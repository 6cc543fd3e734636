/-
# Under which name a received entry is known

The record of a received entry holds the entry's name in front, under `dn`, and behind it what the
server sent, an attribute that is itself called `dn` included.  So such an attribute takes the
place of the name: a single string there is what the entry is known by from then on, and with
several strings it is known by none.  All other attributes are held as they came.  An update or a
deletion goes to the name in the record, so it reaches the entry that was found exactly when the
server sent no attribute `dn`, sent it empty, or sent the entry's own name in it.
-/
import EntryClaims.Directory.Script
import EntryClaims.Proofs.Adapter.Commands
import EntryClaims.Proofs.Ldap.ReadBack

namespace EntryClaims

open EntryClaims.Task (outcome operations)

/-! ## The record of a received entry -/

namespace Ldap

variable {entry : FoundEntry} {name : String} {found : List String} {value : AttributeValue}

/-- The name that the record of an entry carries: what the server sent under `dn`, and the name of
the entry if it sent nothing there. -/
def FoundEntry.knownAs? (entry : FoundEntry) : Option String :=
  match entry.attributes.get? dnAttribute with
  | none | some [] => some entry.dn
  | some [text] => some text
  | some (_ :: _ :: _) => none

lemma valueOf?_eq_some_iff :
    valueOf? found = some value
      ↔ found = value.texts ∧ found ≠ [] ∧ (value.isMulti = true ↔ 2 ≤ found.length) := by
  rcases found with _ | ⟨first, _ | ⟨second, rest⟩⟩
  · simp [valueOf?]
  · cases value <;> simp [valueOf?, AttributeValue.isMulti]
  · cases value <;> simp [valueOf?, AttributeValue.isMulti]

/-- Behind the name stand the other attributes that have values. -/
lemma mem_erase_shown :
    (name, value) ∈ Pairs.erase dnAttribute entry.shown
      ↔ name ≠ dnAttribute ∧ entry.attributes.get? name = some value.texts ∧ value.texts ≠ []
        ∧ (value.isMulti = true ↔ 2 ≤ value.texts.length) := by
  rw [Pairs.erase, List.mem_filter, bne_iff_ne, and_comm, mem_shown]
  refine and_congr_right fun _ => ?_
  constructor
  · rintro ⟨found, hget, hvalue⟩
    obtain ⟨rfl, hvalue⟩ := valueOf?_eq_some_iff.1 hvalue
    exact ⟨hget, hvalue⟩
  · rintro ⟨hget, hvalue⟩
    exact ⟨_, hget, valueOf?_eq_some_iff.2 ⟨rfl, hvalue⟩⟩

lemma lookup_shown (entry : FoundEntry) (name : String) :
    entry.shown.lookup name = (entry.attributes.get? name).bind valueOf? := by
  ext value
  rw [Pairs.lookup_eq_some_iff (nodup_keys_shown entry), mem_shown, Option.bind_eq_some_iff]

lemma dn?_toRecord (entry : FoundEntry) : Record.dn? entry.toRecord = entry.knownAs? := by
  have hget : entry.toRecord.get? dnAttribute
      = some ((entry.shown.lookup dnAttribute).getD (.single entry.dn)) := by
    rw [OrderedMap.get?_eq_some_iff, toList_toRecord_eq]
    exact List.mem_cons_self
  rw [Record.dn?, Record.single?, hget, Option.bind_some, lookup_shown, FoundEntry.knownAs?]
  rcases entry.attributes.get? dnAttribute with _ | _ | ⟨first, _ | ⟨second, rest⟩⟩ <;> rfl

/-- An entry is known by its own name exactly when the server sent no other one. -/
lemma knownAs?_eq_dn_iff :
    entry.knownAs? = some entry.dn
      ↔ ∀ found ∈ entry.attributes.get? dnAttribute, found = [] ∨ found = [entry.dn] := by
  rw [FoundEntry.knownAs?]
  rcases entry.attributes.get? dnAttribute with _ | _ | ⟨first, _ | ⟨second, rest⟩⟩ <;> simp

end Ldap

/-! ## What is addressed -/

namespace Adapter

variable {σ S : Type} (directory : Directory σ S) (adapter : Adapter σ) (state : S)
  {id dn : String} {existing desired : Record} {change : Change}

lemma operations_remove {session : σ} (hsession : adapter.session = some session)
    (found : Option Record) :
    operations directory (adapter.remove found) state
      = ((found.bind Record.dn?).map Operation.delete).toList := by
  cases found with
  | none => rfl
  | some entry =>
    rw [remove, Option.bind_some, requireSession, hsession]
    cases Record.dn? entry with
    | none => rfl
    | some dn =>
      exact Task.operations_bind_pure directory (Task.perform session (.delete dn))
        (fun _ => true) state

/-- A deletion goes to the name of the single entry that the lookup finds. -/
lemma delete_mem_operations_destroy :
    .delete dn ∈ operations directory (adapter.destroy id) state
      ↔ ∃ entry, (outcome directory (adapter.lookupId id) state).1 = .ok [entry]
          ∧ Record.dn? entry = some dn := by
  have hlookup : .delete dn ∉ operations directory (adapter.lookupId id) state := fun hmem => by
    obtain ⟨_, _, _, heq⟩ := mem_operations_lookupId directory adapter state hmem
    cases heq
  rw [destroy_eq, Task.operations_bind, List.mem_append, or_iff_right hlookup]
  rcases hfound : outcome directory (adapter.lookupId id) state with ⟨error | entries, after⟩
  · simp
  · obtain ⟨session, hsession⟩ := session_of_lookupId directory adapter state
      (congrArg Prod.fst hfound)
    simp [operations_remove directory adapter after hsession, Option.bind_eq_some_iff,
      single?_eq_some_iff]

lemma modify_mem_operations_updateEntry :
    .modify dn change ∈ operations directory (adapter.updateEntry existing desired) state
      ↔ adapter.isBound = true ∧ Record.dn? existing = some dn
          ∧ change ∈ Record.changes existing desired adapter.synonyms
              (protectedKeys adapter.options) := by
  rw [operations_updateEntry, isBound]
  cases adapter.session <;> cases Record.dn? existing <;> simp [and_comm]

end Adapter

/-! ## Whether the entry that was found is addressed -/

namespace Ldap

/-- **Exactly when a received entry is addressed.**  The record of an entry has the name it is known
by in front and behind it every other attribute that has values, once and with all of them, in the
order of their names.  The entry is known by its own name exactly when the server sent nothing
under `dn`, or this very name.  When the entry is what a lookup finds, a deletion goes to the name
it is known by, and so does each change that an update makes. -/
theorem record_addressed_as_known {σ S : Type} (directory : Directory σ S) (adapter : Adapter σ)
    (state : S) (entry : FoundEntry) :
    let record := entry.toRecord
    (∃ named others, record.toList = (dnAttribute, named) :: others
        ∧ (Pairs.keys others).Pairwise (· < ·)
        ∧ ∀ name value, (name, value) ∈ others ↔ name ≠ dnAttribute
            ∧ entry.attributes.get? name = some value.texts ∧ value.texts ≠ []
            ∧ (value.isMulti = true ↔ 2 ≤ value.texts.length))
      ∧ Record.dn? record = entry.knownAs?
      ∧ (entry.knownAs? = some entry.dn
          ↔ ∀ found ∈ entry.attributes.get? dnAttribute, found = [] ∨ found = [entry.dn])
      ∧ (∀ id, (outcome directory (adapter.lookupId id) state).1 = .ok [record] →
          ∀ dn, .delete dn ∈ operations directory (adapter.destroy id) state
            ↔ entry.knownAs? = some dn)
      ∧ ∀ desired dn change,
          .modify dn change ∈ operations directory (adapter.updateEntry record desired) state
            ↔ adapter.isBound = true ∧ entry.knownAs? = some dn
              ∧ change ∈ Record.changes record desired adapter.synonyms
                  (Adapter.protectedKeys adapter.options) := by
  intro record
  have hdn : Record.dn? record = entry.knownAs? := dn?_toRecord entry
  refine ⟨⟨_, _, toList_toRecord_eq entry, ?_, fun name value => mem_erase_shown⟩, hdn,
    knownAs?_eq_dn_iff, ?_, ?_⟩
  · exact (pairwise_keys_shown entry).sublist (List.filter_sublist.map _)
  · intro id hfound dn
    rw [Adapter.delete_mem_operations_destroy, ← hdn, hfound]
    simp [record]
  · intro desired dn change
    rw [Adapter.modify_mem_operations_updateEntry, hdn]

/-- The server sends an attribute `dn` with another name in it: the entry for `bob` is known by the
name of `alice`, and a deletion of `bob` goes to `alice`. -/
theorem bob_deleted_as_alice :
    let bob : FoundEntry := ⟨"uid=bob,ou=people",
      ⟨[("uid", ["bob"]), ("dn", ["uid=alice,ou=people"])], by decide⟩⟩
    let adapter : Adapter Unit :=
      { options := { baseDn := "ou=people", idAttribute := "uid" }, session := some () }
    let replies : List Reply := [.entries [bob.toRecord], .agree]
    Record.dn? bob.toRecord ≠ some bob.dn
      ∧ (outcome Script.directory (adapter.lookupId "bob") replies).1 = .ok [bob.toRecord]
      ∧ .delete "uid=alice,ou=people"
          ∈ operations Script.directory (adapter.destroy "bob") replies
      ∧ .delete bob.dn ∉ operations Script.directory (adapter.destroy "bob") replies := by
  intro bob adapter replies
  have hdn : Record.dn? bob.toRecord = some "uid=alice,ou=people" := (dn?_toRecord bob).trans rfl
  have hfound : (outcome Script.directory (adapter.lookupId "bob") replies).1
      = .ok [bob.toRecord] := rfl
  have hdeleted : ∀ dn, .delete dn ∈ operations Script.directory (adapter.destroy "bob") replies
      ↔ dn = "uid=alice,ou=people" := fun dn => by
    rw [Adapter.delete_mem_operations_destroy, hfound]
    simp [hdn, eq_comm]
  exact ⟨by rw [hdn]; decide, hfound, (hdeleted _).2 rfl, (hdeleted bob.dn).not.2 (by decide)⟩

end Ldap
end EntryClaims
