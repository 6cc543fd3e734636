/-
# Which protected attributes are written

Protected keys are passed over, but the changes for another key go to the name under which the
entry stores its value, and that may be a protected name of the family.  So a protected
attribute is written exactly when some managed key leads to it, at least one side has several
strings, and the two sides differ: then strings are added and deleted where the value is
stored.  A single string for a single string is replaced under the key, which is not protected.
The same holds of what an adapter sends when it brings an entry to the desired state.
-/
import EntryClaims.Proofs.Adapter.Operations
import EntryClaims.Proofs.Entry.Convergence

namespace EntryClaims

open SynonymTable (resolve)

/-! ## Changes of protected attributes -/

namespace Record

variable {existing desired : Record} {table : SynonymTable} {protectedKeys : List String}
  {key : String} {wanted : AttributeValue}

/-- The wanted value for a key leaves the protected attributes alone: if it is stored under a
protected name, both sides are single strings or they hold the same strings. -/
def Shielded (existing : Record) (table : SynonymTable) (protectedKeys : List String)
    (key : String) (wanted : AttributeValue) : Prop :=
  resolve table key existing ∈ protectedKeys →
    ∀ current, existing.get? (resolve table key existing) = some current →
      current.hasData = true →
        (current.isMulti = false ∧ wanted.isMulti = false)
          ∨ ValueSet.Same current.texts wanted.texts

lemma shielded_iff (hkey : key ∉ protectedKeys) :
    (∀ change ∈ changesFor existing table key wanted, change.target ∉ protectedKeys)
      ↔ Shielded existing table protectedKeys key wanted := by
  cases plan_changesFor existing table key wanted with
  | fill hnone heq =>
    refine iff_of_true ?_ ?_
    · intro change hchange
      rw [heq, List.mem_ite_nil_left, List.mem_singleton] at hchange
      rwa [hchange.2]
    · intro _ current hget hdata
      rw [hasData_of_get? hget, hdata] at hnone
      exact absurd hnone (by simp)
  | @swap old new hold hdata hnew heq =>
    -- the replacement goes to the key itself
    refine iff_of_true ?_ ?_
    · intro change hchange
      rw [heq, List.mem_ite_nil_left, List.mem_singleton] at hchange
      rwa [hchange.2]
    · intro _ current hget _
      rw [hold, Option.some.injEq] at hget
      exact Or.inl ⟨by rw [← hget]; rfl, by rw [hnew]; rfl⟩
  | @adjust current hold hdata hmulti heq =>
    rw [heq]
    constructor
    · intro h hprotected other hget _
      rw [hold, Option.some.injEq] at hget
      subst hget
      have hnil : setChanges (resolve table key existing) current.texts wanted.texts = [] :=
        List.eq_nil_iff_forall_not_mem.2 fun change hchange =>
          h change hchange ((mem_setChanges hchange).1 ▸ hprotected)
      exact Or.inr (setChanges_eq_nil_iff.1 hnil)
    · intro h change hchange hprotected
      rw [(mem_setChanges hchange).1] at hprotected
      rcases h hprotected current hold hdata with ⟨hcurrent, hwanted⟩ | hsame
      · simp [hcurrent, hwanted] at hmulti
      · rw [setChanges_eq_nil_iff.2 hsame] at hchange
        simp at hchange

/-- All changes leave the protected attributes alone exactly when those for every managed key
do. -/
lemma forall_target_not_mem_iff :
    (∀ change ∈ changes existing desired table protectedKeys, change.target ∉ protectedKeys)
      ↔ ∀ pair ∈ desired.toList, pair.1 ∉ protectedKeys →
          Shielded existing table protectedKeys pair.1 pair.2 := by
  constructor
  · intro h pair hpair hkey
    refine (shielded_iff hkey).1 fun change hchange => h change ?_
    exact mem_changes.2 ⟨pair, hpair, hkey, hchange⟩
  · intro h change hchange
    obtain ⟨pair, hpair, hkey, hmem⟩ := mem_changes.1 hchange
    exact (shielded_iff hkey).2 (h pair hpair hkey) change hmem

end Record

/-! ## What an adapter sends -/

/-- The change of an entry that was asked for, with the entry's name. -/
def Event.change? : Event → Option (String × Change)
  | .perform (.modify dn change) _ => some (dn, change)
  | _ => none

/-- The change of an entry that an operation makes, with the entry's name. -/
def Operation.change? : Operation → Option (String × Change)
  | .modify dn change => some (dn, change)
  | _ => none

lemma Event.filterMap_change? (events : List Event) :
    events.filterMap change? = (events.filterMap operation?).filterMap Operation.change? := by
  rw [List.filterMap_filterMap]
  congr 1
  funext event
  rcases event with _ | ⟨_ | _ | _ | _, _⟩ <;> rfl

namespace Adapter

variable {σ S : Type}

/-- The changes that bringing an entry to a desired state sends: none without a session or
without the entry's name. -/
lemma sent_updateEntry (directory : Directory σ S) (adapter : Adapter σ)
    (existing desired : Record) (state : S) :
    ((adapter.updateEntry existing desired).run.events directory state).filterMap Event.change?
      = match adapter.session, Record.dn? existing with
        | some _, some dn =>
          (Record.changes existing desired adapter.synonyms (protectedKeys adapter.options)).map
            fun change => (dn, change)
        | _, _ => [] := by
  show (Task.asked directory (adapter.updateEntry existing desired) state).filterMap _ = _
  rw [Event.filterMap_change?, ← Task.operations, operations_updateEntry]
  cases adapter.session <;> cases Record.dn? existing <;>
    simp [List.filterMap_map, Operation.change?, Function.comp_def]

end Adapter

/-- **Exactly when protected attributes are spared.**  The changes for a desired record leave the
protected attributes alone exactly when every managed key that leads to a protected name finds
the wanted strings there, or a single string where a single one is wanted.  What an adapter
sends to bring an entry to the desired state leaves names, object classes and the naming
attribute alone under the same condition, and when it sends nothing for want of a session or
of the entry's name. -/
theorem protected_spared_iff {σ S : Type} (directory : Directory σ S) (adapter : Adapter σ)
    (mapping : Mapping) (existing desired : Record) (protectedKeys : List String) (state : S) :
    ((∀ change ∈ Record.changes existing desired mapping.synonyms protectedKeys,
        change.target ∉ protectedKeys)
      ↔ ∀ pair ∈ desired.toList, pair.1 ∉ protectedKeys →
          Record.Shielded existing mapping.synonyms protectedKeys pair.1 pair.2)
    ∧ ((∀ sent ∈ ((adapter.updateEntry existing desired).run.events directory state).filterMap
          Event.change?, sent.2.target ∉ Adapter.protectedKeys adapter.options)
      ↔ (adapter.isBound = true → (Record.dn? existing).isSome = true →
          ∀ pair ∈ desired.toList, pair.1 ∉ Adapter.protectedKeys adapter.options →
            Record.Shielded existing adapter.synonyms (Adapter.protectedKeys adapter.options)
              pair.1 pair.2)) := by
  refine ⟨Record.forall_target_not_mem_iff, ?_⟩
  rw [← Record.forall_target_not_mem_iff, Adapter.sent_updateEntry, Adapter.isBound]
  cases adapter.session <;> cases Record.dn? existing <;> simp

/-- A desired attribute that is not protected reaches a protected one through its synonyms. -/
theorem objectClass_written_through_synonym :
    let mapping : Mapping := ⟨[("sub", [.plain (.synonyms ["cn", "objectClass"])])], by decide⟩
    let existing : Record := ⟨[("dn", .single "uid=bob,ou=people"),
      ("objectClass", .multi ["top", "person"]), ("uid", .single "bob")], by decide⟩
    let desired : Record := ⟨[("cn", .multi ["bob"])], by decide⟩
    let protectedKeys := ["dn", "objectClass", "uid"]
    let changes := Record.changes existing desired mapping.synonyms protectedKeys
    changes = [⟨"objectClass", .add, ["bob"]⟩, ⟨"objectClass", .delete, ["top", "person"]⟩]
      ∧ ¬ ∀ change ∈ changes, change.target ∉ protectedKeys := by
  decide

end EntryClaims
