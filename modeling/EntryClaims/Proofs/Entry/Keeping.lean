/-
# Which strings outlast the changes

A desired value is compared with the whole attribute that the entry stores it under.  So a string
that an attribute holds is at risk from every managed key whose value is stored there: it stays
only if it is among the strings wanted for the key.  There is one exception.  A single string that
takes the place of another goes to the key, and when the entry stores the old one under a synonym,
the old one stays behind.

A string that was there at the start is never written again once it is gone, so it outlasts all
changes exactly when it outlasts each of them.
-/
import EntryClaims.Proofs.Entry.Convergence

namespace EntryClaims

namespace Change

/-- The change does not take a string away from an attribute that holds it. -/
def Keeps (change : Change) (name text : String) : Prop :=
  change.target = name → change.kind = .add ∨ change.kind = .delete ∧ text ∉ change.texts

/-- The change does not put the string into the attribute, and does not empty it. -/
def Overlooks (change : Change) (name text : String) : Prop :=
  change.target = name →
    change.kind = .delete ∧ change.texts ≠ [] ∨ change.kind ≠ .delete ∧ text ∉ change.texts

end Change

namespace Record

open SynonymTable (resolve Rooted)

variable {existing desired : Record} {table : SynonymTable} {protectedKeys : List String}
  {key name text : String} {wanted : AttributeValue} {change : Change}

/-! ## One change, and one change after the other -/

lemma mem_textsOf_apply_iff (h : change.Overlooks name text) (record : Record) :
    text ∈ textsOf (apply record change) name ↔
      text ∈ textsOf record name ∧ change.Keeps name text := by
  by_cases htarget : change.target = name
  · subst htarget
    rw [Change.Keeps, textsOf_apply_self, Change.after]
    rcases h rfl with ⟨hkind, hne⟩ | ⟨hkind, htext⟩
    · simp [hkind, hne]
    · cases hadd : change.kind with
      | add => simp [ValueSet.mem_addAll, htext]
      | replace => simp [htext]
      | delete => exact absurd hadd hkind
  · rw [textsOf_apply_of_ne (Ne.symm htarget), Change.Keeps]
    simp [htarget]

/-- A string that none of the changes writes is there afterwards exactly when it was there and
every change keeps it. -/
lemma mem_textsOf_applyAll_iff {changes : List Change}
    (h : ∀ change ∈ changes, change.Overlooks name text) (record : Record) :
    text ∈ textsOf (applyAll record changes) name ↔
      text ∈ textsOf record name ∧ ∀ change ∈ changes, change.Keeps name text := by
  induction changes generalizing record with
  | nil => simp
  | cons change rest ih =>
    rw [applyAll_cons, ih (fun c hc => h c (List.mem_cons_of_mem _ hc)),
      mem_textsOf_apply_iff (h change List.mem_cons_self), List.forall_mem_cons, and_assoc]

/-! ## The changes for one key -/

lemma mem_setChanges_iff {target : String} {old new : List String} :
    change ∈ setChanges target old new ↔
      ValueSet.difference new old ≠ [] ∧ change = ⟨target, .add, ValueSet.difference new old⟩
        ∨ ValueSet.difference old new ≠ []
          ∧ change = ⟨target, .delete, ValueSet.difference old new⟩ := by
  rw [setChanges, List.mem_append, List.mem_ite_nil_left, List.mem_ite_nil_left,
    List.mem_singleton, List.mem_singleton, List.isEmpty_iff, List.isEmpty_iff]

/-- The changes from one set to another keep a string of the first if it is in the second. -/
lemma forall_keeps_setChanges_iff {old new : List String} (hheld : text ∈ old) :
    (∀ change ∈ setChanges name old new, change.Keeps name text) ↔ text ∈ new := by
  constructor
  · intro h
    by_contra hgone
    have hdeleted : text ∈ ValueSet.difference old new := ValueSet.mem_difference.2 ⟨hheld, hgone⟩
    have hchange : ⟨name, .delete, ValueSet.difference old new⟩ ∈ setChanges name old new :=
      mem_setChanges_iff.2 (Or.inr ⟨List.ne_nil_of_mem hdeleted, rfl⟩)
    rcases h _ hchange rfl with hadd | ⟨-, hkept⟩
    · simp at hadd
    · exact hkept hdeleted
  · intro hwanted change hchange _
    rcases mem_setChanges_iff.1 hchange with ⟨-, rfl⟩ | ⟨-, rfl⟩
    · exact Or.inl rfl
    · exact Or.inr ⟨rfl, fun hdeleted => (ValueSet.mem_difference.1 hdeleted).2 hwanted⟩

/-- An attribute that holds a string which is not empty carries data. -/
lemma mem_dataTexts_of_ne (hne : text ≠ "") (h : text ∈ textsOf existing name) :
    text ∈ dataTexts existing name := by
  rw [dataTexts, if_pos ?_]
  · exact h
  · rw [textsOf] at h
    cases hget : existing.get? name with
    | none => simp [hget] at h
    | some value =>
      rw [hget] at h
      rw [hasData_of_get? hget]
      cases value with
      | single stored =>
        obtain rfl : text = stored := by simpa using h
        simpa [AttributeValue.hasData] using hne
      | multi stored => simpa [AttributeValue.hasData] using List.ne_nil_of_mem h

section Held

variable (hheld : text ∈ dataTexts existing name)

include hheld

lemma hasData_of_mem_dataTexts : hasData existing name = true := by
  by_contra hnone
  simp [dataTexts, hnone] at hheld

lemma mem_textsOf_of_mem_dataTexts : text ∈ textsOf existing name := by
  rwa [dataTexts, if_pos (hasData_of_mem_dataTexts hheld)] at hheld

/-- An attribute with data is where the value for its own name is stored. -/
lemma resolve_of_mem_dataTexts (hrooted : Rooted table) : resolve table name existing = name :=
  hrooted.resolve_of_contains (contains_of_hasData (hasData_of_mem_dataTexts hheld))

/-- The changes for a key do not write a string that their target holds. -/
lemma overlooks_of_mem_changesFor (hrooted : Rooted table)
    (h : change ∈ changesFor existing table key wanted) : change.Overlooks name text := by
  intro htarget
  have hown := resolve_of_mem_dataTexts hheld hrooted
  have hmem := mem_textsOf_of_mem_dataTexts hheld
  cases plan_changesFor existing table key wanted with
  | fill hnone heq =>
    rw [heq, List.mem_ite_nil_left, List.mem_singleton] at h
    obtain ⟨-, rfl⟩ := h
    obtain rfl : key = name := htarget
    rw [hown, hasData_of_mem_dataTexts hheld] at hnone
    simp at hnone
  | @swap old new hold hne hnew heq =>
    rw [heq, List.mem_ite_nil_left, List.mem_singleton] at h
    obtain ⟨hdiffer, rfl⟩ := h
    obtain rfl : key = name := htarget
    rw [hown] at hold
    obtain rfl : text = old := by simpa [textsOf_of_get? hold] using hmem
    exact Or.inr ⟨by simp, by simpa using hdiffer⟩
  | @adjust current hold _ _ heq =>
    rw [heq] at h
    rw [(mem_setChanges h).1.symm.trans htarget] at hold
    rw [textsOf_of_get? hold] at hmem
    rcases mem_setChanges_iff.1 h with ⟨-, rfl⟩ | ⟨hdeleted, rfl⟩
    · exact Or.inr ⟨by simp, fun hadded => (ValueSet.mem_difference.1 hadded).2 hmem⟩
    · exact Or.inl ⟨rfl, hdeleted⟩

end Held

/-- What is wanted for a key spares a string of an attribute: the value for the key is not stored
there, or the string is wanted, or a single string goes to the key and leaves a single one behind
under a synonym. -/
def Spares (existing : Record) (table : SynonymTable) (key : String) (wanted : AttributeValue)
    (name text : String) : Prop :=
  resolve table key existing = name →
    text ∈ wanted.texts
      ∨ key ≠ name ∧ wanted.isMulti = false ∧ ∀ value ∈ existing.get? name, value.isMulti = false

/-- All changes for a key keep a string exactly when what is wanted for the key spares it. -/
lemma forall_keeps_iff (hrooted : Rooted table) (hheld : text ∈ dataTexts existing name) :
    (∀ change ∈ changesFor existing table key wanted, change.Keeps name text)
      ↔ Spares existing table key wanted name text := by
  have hmem := mem_textsOf_of_mem_dataTexts hheld
  cases plan_changesFor existing table key wanted with
  | fill hnone heq =>
    refine iff_of_true (fun change hchange => ?_) fun hname => ?_
    · rw [heq, List.mem_ite_nil_left, List.mem_singleton] at hchange
      rw [hchange.2]
      exact fun _ => Or.inl rfl
    · rw [hname, hasData_of_mem_dataTexts hheld] at hnone
      simp at hnone
  | @swap old new hold hne hnew heq =>
    subst hnew
    rw [heq, Spares]
    simp only [List.mem_ite_nil_left, List.mem_singleton, and_imp, Change.Keeps]
    constructor
    · intro h hname
      rw [hname] at hold
      obtain rfl : text = old := by simpa [textsOf_of_get? hold] using hmem
      by_cases hsame : text = new
      · exact Or.inl (by simp [hsame])
      · -- a replacement under the attribute itself would not keep the string
        refine Or.inr ⟨fun hkey => ?_, rfl, by simp [hold, AttributeValue.isMulti]⟩
        simpa using h _ hsame rfl hkey
    · rintro h change hdiffer rfl rfl
      have hname := resolve_of_mem_dataTexts hheld hrooted
      rw [hname] at hold
      obtain rfl : text = old := by simpa [textsOf_of_get? hold] using hmem
      rcases h hname with hwanted | ⟨hkey, -⟩
      · exact absurd (by simpa using hwanted) hdiffer
      · exact absurd rfl hkey
  | @adjust current hold _ hmulti heq =>
    rw [heq, Spares]
    by_cases hname : resolve table key existing = name
    · rw [hname] at hold
      rw [textsOf_of_get? hold] at hmem
      rw [hname, forall_keeps_setChanges_iff hmem]
      refine ⟨fun hwanted _ => Or.inl hwanted, fun h => (h rfl).resolve_right ?_⟩
      rintro ⟨-, hsingle, hsingles⟩
      rw [hsingles current hold, hsingle] at hmulti
      simp at hmulti
    · refine iff_of_true (fun change hchange htarget => ?_) fun h => absurd h hname
      exact absurd ((mem_setChanges hchange).1.symm.trans htarget) hname

/-! ## All changes -/

/-- **Exactly which strings are kept.**  A string that an attribute with data holds is still there
after all changes exactly when what is wanted for each managed key spares it. -/
lemma mem_textsOf_applyAll_changes_iff (hrooted : Rooted table)
    (hheld : text ∈ dataTexts existing name) :
    text ∈ textsOf (applyAll existing (changes existing desired table protectedKeys)) name ↔
      ∀ key wanted, desired.get? key = some wanted → key ∉ protectedKeys →
        Spares existing table key wanted name text := by
  rw [mem_textsOf_applyAll_iff, and_iff_right (mem_textsOf_of_mem_dataTexts hheld)]
  · constructor
    · intro h key wanted hget hkey
      refine (forall_keeps_iff hrooted hheld).1 fun change hchange => h change ?_
      exact mem_changes.2 ⟨(key, wanted), OrderedMap.get?_eq_some_iff.1 hget, hkey, hchange⟩
    · intro h change hchange
      obtain ⟨⟨key, wanted⟩, hpair, hkey, hmem⟩ := mem_changes.1 hchange
      have hspares := h key wanted (OrderedMap.get?_eq_some_iff.2 hpair) hkey
      exact (forall_keeps_iff hrooted hheld).2 hspares change hmem
  · intro change hchange
    obtain ⟨pair, hpair, hkey, hmem⟩ := mem_changes.1 hchange
    exact overlooks_of_mem_changesFor hheld hrooted hmem

end Record
end EntryClaims
