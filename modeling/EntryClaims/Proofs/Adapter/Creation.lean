/-
# When an entry is created

A payload for an id is stored in the entry that a lookup by the id finds, and a lookup that finds
several entries counts as one that finds none.  So an entry is created as soon as the lookup does
not find exactly one: for an id that is unknown, and also for an id that several entries hold.
Whatever the lookup finds, nothing is deleted, and changes go to the single entry found.
-/
import EntryClaims.Directory.Script
import EntryClaims.Proofs.Adapter.Operations

namespace EntryClaims
namespace Adapter

open EntryClaims.Task (outcome operations)

variable {σ S : Type} (directory : Directory σ S) (adapter : Adapter σ) (state : S)
  {id dn : String} {payload : Document} {attributes desired : Record} {change : Change}

/-! ## Looking up and storing -/

/-- Whether a payload has claims of which none is stored. -/
def Loses (payload : Document) : Prop :=
  (adapter.recordOf payload).isEmpty = true ∧ payload.isEmpty = false

/-- The search for the entries that hold an id. -/
def lookupId (id : String) : Task σ (List Record) :=
  adapter.lookup adapter.options.idAttribute id adapter.options.scope

/-- Store a record: in the entry that was found, or in a new one. -/
def store (id : String) (desired : Record) : Option Record → Task σ Upserted
  | none => do return .created (← adapter.insertEntry id desired)
  | some entry => do return .updated (← adapter.updateEntry entry desired)

lemma upsert_of_loses (h : adapter.Loses payload) :
    adapter.upsert id payload = throw (.lostPayload id) := by
  rw [upsert]
  simp [h.1, h.2]

lemma upsert_of_not_loses (h : ¬ adapter.Loses payload) :
    adapter.upsert id payload
      = (adapter.lookupId id >>= fun entries =>
          adapter.store id (adapter.recordOf payload) (single? entries)) := by
  have hkept : ((adapter.recordOf payload).isEmpty && !payload.isEmpty) ≠ true := by
    simpa [Loses] using h
  rw [upsert]
  simp only [rawFind_some, Option.getD_none, bind_assoc, pure_bind]
  rw [if_neg hkept]
  rfl

/-! ## What storing asks for -/

/-- The operations that store a record: changes of the entry that was found, or the addition of
a new one. -/
def stores (id : String) (desired : Record) : Option Record → List Operation
  | none =>
    adapter.options.upsert.toList.map fun placement =>
      .add (placement.entryName id adapter.options.baseDn) (newAttributes placement id desired)
  | some entry =>
    (Record.dn? entry).toList.flatMap fun dn =>
      (Record.changes entry desired adapter.synonyms (protectedKeys adapter.options)).map
        (.modify dn)

lemma operations_store {session : σ} (hsession : adapter.session = some session)
    (found : Option Record) :
    operations directory (adapter.store id desired found) state
      = adapter.stores id desired found := by
  cases found with
  | none =>
    rw [store, Task.operations_bind_pure, operations_insertEntry, hsession, stores]
    cases adapter.options.upsert <;> rfl
  | some entry =>
    rw [store, Task.operations_bind_pure, operations_updateEntry, hsession, stores]
    cases Record.dn? entry <;> simp

section Stores

variable {found : Option Record}

lemma add_mem_stores :
    .add dn attributes ∈ adapter.stores id desired found
      ↔ found = none ∧ ∃ placement, adapter.options.upsert = some placement
          ∧ dn = placement.entryName id adapter.options.baseDn
          ∧ attributes = newAttributes placement id desired := by
  cases found with
  | none => simp [stores, eq_comm]
  | some entry => simp [stores]

lemma modify_mem_stores :
    .modify dn change ∈ adapter.stores id desired found
      ↔ ∃ entry, found = some entry ∧ Record.dn? entry = some dn
          ∧ change ∈ Record.changes entry desired adapter.synonyms
              (protectedKeys adapter.options) := by
  cases found with
  | none => simp [stores]
  | some entry => simp [stores]

lemma delete_not_mem_stores : .delete dn ∉ adapter.stores id desired found := by
  cases found <;> simp [stores]

end Stores

/-! ## What a payload asks for -/

lemma mem_operations_lookupId {operation : Operation}
    (h : operation ∈ operations directory (adapter.lookupId id) state) :
    ∃ base filter scope, operation = .search base filter scope := by
  rw [lookupId, lookup, operations_search] at h
  cases hsession : adapter.session with
  | none => simp [hsession] at h
  | some session => exact ⟨_, _, _, by simpa [hsession] using h⟩

/-- A search is answered only in a session. -/
lemma session_of_lookupId {entries : List Record}
    (h : (outcome directory (adapter.lookupId id) state).1 = .ok entries) :
    ∃ session, adapter.session = some session := by
  rw [lookupId, lookup, outcome_search] at h
  cases hsession : adapter.session with
  | none => simp [hsession] at h
  | some session => exact ⟨session, rfl⟩

/-- Apart from the search, a payload that is not refused asks for what stores its record, once
the search is answered. -/
lemma mem_operations_upsert {operation : Operation}
    (hsearch : ∀ base filter scope, operation ≠ .search base filter scope) :
    operation ∈ operations directory (adapter.upsert id payload) state
      ↔ ¬ adapter.Loses payload
          ∧ ∃ entries, (outcome directory (adapter.lookupId id) state).1 = .ok entries
            ∧ operation ∈ adapter.stores id (adapter.recordOf payload) (single? entries) := by
  by_cases hloses : adapter.Loses payload
  · simp [upsert_of_loses adapter hloses, hloses]
  have hlookup : operation ∉ operations directory (adapter.lookupId id) state := fun hmem => by
    obtain ⟨base, filter, scope, rfl⟩ := mem_operations_lookupId directory adapter state hmem
    exact hsearch base filter scope rfl
  rw [upsert_of_not_loses adapter hloses, Task.operations_bind, List.mem_append,
    or_iff_right hlookup, and_iff_right hloses]
  rcases hfound : outcome directory (adapter.lookupId id) state with ⟨error | entries, after⟩
  · simp
  · obtain ⟨session, hsession⟩ := session_of_lookupId directory adapter state
      (congrArg Prod.fst hfound)
    simp [operations_store directory adapter after hsession]

/-- **Exactly when an entry is created.**  For every adapter and every directory, a payload for an
id asks for an addition exactly when it is not refused, the lookup of the id is answered with any
number of entries other than one, and the adapter says where new entries are placed.  It asks for
a modification exactly when the lookup finds a single entry and the modification is among the
changes that bring this entry to the desired state.  It never asks for a deletion. -/
theorem upsert_creates_unless_single (id : String) (payload : Document) :
    (∀ dn attributes,
      .add dn attributes ∈ operations directory (adapter.upsert id payload) state
        ↔ ¬ adapter.Loses payload
          ∧ ∃ entries placement,
              (outcome directory (adapter.lookupId id) state).1 = .ok entries
                ∧ entries.length ≠ 1
                ∧ adapter.options.upsert = some placement
                ∧ dn = placement.entryName id adapter.options.baseDn
                ∧ attributes = newAttributes placement id (adapter.recordOf payload))
    ∧ (∀ dn change,
      .modify dn change ∈ operations directory (adapter.upsert id payload) state
        ↔ ¬ adapter.Loses payload
          ∧ ∃ entry, (outcome directory (adapter.lookupId id) state).1 = .ok [entry]
              ∧ Record.dn? entry = some dn
              ∧ change ∈ Record.changes entry (adapter.recordOf payload) adapter.synonyms
                  (protectedKeys adapter.options))
    ∧ ∀ dn, .delete dn ∉ operations directory (adapter.upsert id payload) state := by
  refine ⟨fun dn attributes => ?_, fun dn change => ?_, fun dn => ?_⟩
  · rw [mem_operations_upsert directory adapter state (by simp)]
    simp only [add_mem_stores, single?_eq_none_iff, exists_and_left]
  · rw [mem_operations_upsert directory adapter state (by simp)]
    simp only [modify_mem_stores, single?_eq_some_iff]
    refine and_congr_right fun _ => ⟨?_, ?_⟩
    · rintro ⟨entries, hfound, entry, rfl, hchange⟩
      exact ⟨entry, hfound, hchange⟩
    · rintro ⟨entry, hfound, hchange⟩
      exact ⟨[entry], hfound, entry, rfl, hchange⟩
  · rw [mem_operations_upsert directory adapter state (by simp)]
    rintro ⟨_, entries, _, hmem⟩
    exact delete_not_mem_stores adapter hmem

/-- Two entries hold the id, and a third one is created for it. -/
theorem upsert_creates_third_bob :
    let bobs : List Record :=
      [⟨[("dn", .single "cn=bob-a,ou=people"), ("uid", .single "bob")], by decide⟩,
        ⟨[("dn", .single "cn=bob-b,ou=people"), ("uid", .single "bob")], by decide⟩]
    let options : Options :=
      { baseDn := "ou=people", idAttribute := "uid",
        upsert := some { rdnAttribute := "uid", objectClasses := ["top", "person"] } }
    let adapter : Adapter Unit := { options, session := some () }
    let payload : Document := ⟨[("cn", .string "Bob")]⟩
    let replies : List Reply := [.entries bobs, .agree]
    (outcome Script.directory (adapter.lookupId "bob") replies).1 = .ok bobs
      ∧ ∃ dn attributes,
          .add dn attributes
            ∈ operations Script.directory (adapter.upsert "bob" payload) replies := by
  intro bobs options adapter payload replies
  refine ⟨rfl, "uid=bob,ou=people", ⟨[("cn", .single "Bob"), ("uid", .single "bob"),
    ("objectClass", .multi ["top", "person"])], by decide⟩, ?_⟩
  decide

end Adapter
end EntryClaims
