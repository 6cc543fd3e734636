/-
# What is asked for one desired attribute

There are three ways to bring one attribute to its desired state.  An attribute without data
gets the wanted strings under the key; a single string that differs from the single wanted one
is replaced under the key; in all other cases strings are added and deleted where the entry
stores the value.  In each case nothing is asked for exactly when the entry already holds the
wanted strings, and what is asked for leads there without ever leaving an attribute empty.
-/
import EntryClaims.Entry.Difference
import EntryClaims.Proofs.Entry.Families

namespace EntryClaims
namespace Record

open SynonymTable (resolve namesFor Rooted)

variable {existing : Record} {table : SynonymTable} {key : String} {wanted : AttributeValue}

/-! ## Changes between two sets -/

lemma setChanges_eq_nil_iff {target : String} {old new : List String} :
    setChanges target old new = [] ↔ ValueSet.Same old new := by
  have hparts : setChanges target old new = [] ↔
      ValueSet.difference new old = [] ∧ ValueSet.difference old new = [] := by
    rw [setChanges, List.append_eq_nil_iff]
    refine and_congr ?_ ?_ <;> split <;> simp_all
  rw [hparts, ValueSet.difference_eq_nil_iff, ValueSet.difference_eq_nil_iff]
  constructor
  · rintro ⟨hnew, hold⟩ text
    exact ⟨fun h => hold h, fun h => hnew h⟩
  · intro h
    exact ⟨fun text ht => (h text).2 ht, fun text ht => (h text).1 ht⟩

/-- Of the changes between two sets one can have made none, the additions, or all. -/
lemma prefix_setChanges {target : String} {old new : List String} {made : List Change}
    (h : made <+: setChanges target old new) :
    made = [] ∨ made = [⟨target, .add, ValueSet.difference new old⟩]
      ∨ made = setChanges target old new := by
  rw [setChanges] at h ⊢
  by_cases hadd : (ValueSet.difference new old).isEmpty = true <;>
    by_cases hdelete : (ValueSet.difference old new).isEmpty = true <;>
    simp only [hadd, hdelete, Bool.false_eq_true, ↓reduceIte, List.nil_append, List.append_nil,
      List.cons_append, List.prefix_cons_iff, List.prefix_nil] at h ⊢
  · exact Or.inl h
  · rcases h with h | ⟨rest, rfl, rfl⟩
    · exact Or.inl h
    · exact Or.inr (Or.inr rfl)
  · rcases h with h | ⟨rest, rfl, rfl⟩
    · exact Or.inl h
    · exact Or.inr (Or.inl rfl)
  · rcases h with h | ⟨rest, rfl, rfl | ⟨last, rfl, rfl⟩⟩
    · exact Or.inl h
    · exact Or.inr (Or.inl rfl)
    · exact Or.inr (Or.inr rfl)

lemma mem_textsOf_additions {record : Record} {target text : String} {texts : List String} :
    text ∈ textsOf (applyAll record (if texts.isEmpty then [] else [⟨target, .add, texts⟩])) target
      ↔ text ∈ textsOf record target ∨ text ∈ texts := by
  by_cases h : texts = []
  · simp [h]
  · rw [if_neg (by simpa using h)]
    exact mem_textsOf_add

lemma mem_textsOf_deletions {record : Record} {target text : String} {texts : List String} :
    text ∈ textsOf (applyAll record (if texts.isEmpty then [] else [⟨target, .delete, texts⟩]))
      target ↔ text ∈ textsOf record target ∧ text ∉ texts := by
  by_cases h : texts = []
  · simp [h]
  · rw [if_neg (by simpa using h)]
    exact mem_textsOf_delete h

/-- The changes between two sets turn the one into the other. -/
lemma same_textsOf_setChanges (record : Record) (target : String) (new : List String) :
    ValueSet.Same
      (textsOf (applyAll record (setChanges target (textsOf record target) new)) target) new := by
  intro text
  rw [setChanges, applyAll_append, mem_textsOf_deletions, mem_textsOf_additions,
    ValueSet.mem_difference, ValueSet.mem_difference]
  constructor
  · rintro ⟨hold | hnew, hkept⟩
    · by_cases h : text ∈ new
      · exact h
      · exact absurd ⟨hold, h⟩ hkept
    · exact hnew.1
  · intro h
    refine ⟨?_, fun hgone => hgone.2 h⟩
    by_cases hold : text ∈ textsOf record target
    · exact Or.inl hold
    · exact Or.inr ⟨h, hold⟩

/-! ## The three plans -/

/-- How the changes for one desired attribute come about, `stored` being the name that its
value is looked up under. -/
inductive Plan (existing : Record) (stored key : String) (wanted : AttributeValue)
    (changes : List Change) : Prop where
  /-- There is no data, and the wanted strings are added under the key. -/
  | fill (hnone : hasData existing stored = false)
      (heq : changes = if wanted.texts.isEmpty then [] else [⟨key, .add, wanted.texts⟩])
  /-- A single string takes the place of another under the key. -/
  | swap {old new : String} (hold : existing.get? stored = some (.single old)) (hdata : old ≠ "")
      (hnew : wanted = .single new)
      (heq : changes = if old = new then [] else [⟨key, .replace, [new]⟩])
  /-- The two sides are compared as sets where the value is stored. -/
  | adjust {current : AttributeValue} (hold : existing.get? stored = some current)
      (hdata : current.hasData = true) (hmulti : current.isMulti = true ∨ wanted.isMulti = true)
      (heq : changes = setChanges stored current.texts wanted.texts)

lemma plan_changesFor (existing : Record) (table : SynonymTable) (key : String)
    (wanted : AttributeValue) :
    Plan existing (resolve table key existing) key wanted
      (changesFor existing table key wanted) := by
  cases hfilter : (existing.get? (resolve table key existing)).filter AttributeValue.hasData with
  | none =>
    refine .fill ?_ (by simp only [changesFor, hfilter])
    rw [hasData, Option.any_eq_false]
    exact fun current hget => by simpa using Option.filter_eq_none_iff.1 hfilter current hget
  | some current =>
    obtain ⟨hget, hdata⟩ := Option.filter_eq_some_iff.1 hfilter
    cases current with
    | multi texts => exact .adjust hget hdata (Or.inl rfl) (by simp only [changesFor, hfilter])
    | single old =>
      cases wanted with
      | multi texts => exact .adjust hget hdata (Or.inr rfl) (by simp only [changesFor, hfilter])
      | single new =>
        refine .swap hget ?_ rfl (by simp only [changesFor, hfilter])
        simpa [AttributeValue.hasData] using hdata

/-- What is asked for on account of a key depends only on what is held under its names. -/
lemma changesFor_congr {other : Record}
    (h : ∀ name ∈ namesFor table key, existing.get? name = other.get? name) :
    changesFor existing table key wanted = changesFor other table key wanted := by
  have hname := SynonymTable.resolve_congr_get? h
  have hget := h _ (SynonymTable.resolve_mem_namesFor table key existing)
  simp only [changesFor, ← hname, hget]

/-- Changes go to a name of the key. -/
lemma target_mem_namesFor {change : Change}
    (h : change ∈ changesFor existing table key wanted) : change.target ∈ namesFor table key := by
  have hkey := SynonymTable.key_mem_namesFor table key
  cases plan_changesFor existing table key wanted with
  | fill hnone heq =>
    rw [heq, List.mem_ite_nil_left, List.mem_singleton] at h
    rw [h.2]
    exact hkey
  | swap hold hdata hnew heq =>
    rw [heq, List.mem_ite_nil_left, List.mem_singleton] at h
    rw [h.2]
    exact hkey
  | adjust hold hdata hmulti heq =>
    rw [heq] at h
    rw [(mem_setChanges h).1]
    exact SynonymTable.resolve_mem_namesFor table key existing

/-- Nothing is asked for exactly when the data of the entry are the wanted strings. -/
lemma changesFor_eq_nil_iff :
    changesFor existing table key wanted = [] ↔
      ValueSet.Same (dataTexts existing (resolve table key existing)) wanted.texts := by
  cases plan_changesFor existing table key wanted with
  | fill hnone heq =>
    have hempty : dataTexts existing (resolve table key existing) = [] := by
      simp [dataTexts, hnone]
    rw [heq, hempty, ValueSet.Same.nil_iff]
    split <;> simp_all
  | @swap old new hold hdata hnew heq =>
    have hhas : hasData existing (resolve table key existing) = true := by
      simpa [hasData_of_get? hold, AttributeValue.hasData] using hdata
    rw [heq, dataTexts, if_pos hhas, textsOf_of_get? hold, hnew, AttributeValue.texts_single,
      AttributeValue.texts_single, ValueSet.Same.singleton_iff]
    split <;> simp_all
  | adjust hold hdata hmulti heq =>
    rw [heq, dataTexts, if_pos (by rw [hasData_of_get? hold, hdata]), textsOf_of_get? hold,
      setChanges_eq_nil_iff]

/-- Nothing is asked for where the entry holds the wanted strings under the key itself. -/
lemma changesFor_eq_nil_of_same (hrooted : Rooted table) {held : AttributeValue}
    (hget : existing.get? key = some held) (hdata : held.hasData = true)
    (hsame : ValueSet.Same held.texts wanted.texts) :
    changesFor existing table key wanted = [] := by
  have hhas : hasData existing key = true := by rw [hasData_of_get? hget, hdata]
  rw [changesFor_eq_nil_iff, hrooted.resolve_of_contains (contains_of_hasData hhas), dataTexts,
    if_pos hhas, textsOf_of_get? hget]
  exact hsame

/-! ## What the plan leads to -/

/-- The entry holds the wanted strings under the name where it stores the value for the key. -/
def Settled (entry : Record) (table : SynonymTable) (key : String) (wanted : AttributeValue) :
    Prop :=
  ∃ value, entry.get? (resolve table key entry) = some value
    ∧ ValueSet.Same value.texts wanted.texts

lemma Settled.same {entry : Record} (h : Settled entry table key wanted) :
    ValueSet.Same (textsOf entry (resolve table key entry)) wanted.texts := by
  obtain ⟨value, hget, hsame⟩ := h
  rwa [textsOf_of_get? hget]

/-- Where the wanted strings are held, nothing is asked for. -/
lemma Settled.changesFor_eq_nil (h : Settled existing table key wanted) (hsolid : Solid existing) :
    changesFor existing table key wanted = [] := by
  rw [changesFor_eq_nil_iff, hsolid.filled.dataTexts_eq]
  exact h.same

lemma settled_of_same {entry : Record} (hwanted : wanted.Solid) {name : String}
    (hname : resolve table key entry = name)
    (hsame : ValueSet.Same (textsOf entry name) wanted.texts) : Settled entry table key wanted := by
  have hne : textsOf entry name ≠ [] := hsame.symm.ne_nil hwanted.texts_ne_nil
  rw [Settled, hname]
  cases hget : entry.get? name with
  | none => exact absurd (by simp [textsOf, hget]) hne
  | some value => exact ⟨value, rfl, textsOf_of_get? hget ▸ hsame⟩

lemma empty_not_mem_of_mem_changesFor (hexisting : Solid existing) (hwanted : wanted.Solid)
    {change : Change} (h : change ∈ changesFor existing table key wanted) : "" ∉ change.texts := by
  cases plan_changesFor existing table key wanted with
  | fill hnone heq =>
    rw [heq, List.mem_ite_nil_left, List.mem_singleton] at h
    rw [h.2]
    exact hwanted.empty_not_mem
  | swap hold hdata hnew heq =>
    rw [heq, List.mem_ite_nil_left, List.mem_singleton] at h
    rw [h.2]
    simpa [hnew] using hwanted.empty_not_mem
  | adjust hold hdata hmulti heq =>
    have hcurrent := (hexisting.get? hold).empty_not_mem
    rw [heq, setChanges, List.mem_append, List.mem_ite_nil_left, List.mem_ite_nil_left,
      List.mem_singleton, List.mem_singleton] at h
    rcases h with ⟨-, rfl⟩ | ⟨-, rfl⟩
    · exact fun hmem => hwanted.empty_not_mem (ValueSet.mem_difference.1 hmem).1
    · exact fun hmem => hcurrent (ValueSet.mem_difference.1 hmem).1

/-- Changes where the value for a key is stored leave it there, if they leave something. -/
lemma resolve_applyAll_of_contains {made : List Change} {stored : String}
    (hstored : resolve table key existing = stored) (hthere : existing.contains stored = true)
    (htarget : ∀ change ∈ made, change.target = stored)
    (hstill : (applyAll existing made).contains stored = true) :
    resolve table key (applyAll existing made) = stored := by
  rw [← hstored]
  refine SynonymTable.resolve_congr fun name _ => ?_
  by_cases hname : name = stored
  · rw [hname, hstill, hthere]
  · rw [OrderedMap.contains, OrderedMap.contains, get?_applyAll_of_forall_ne]
    exact fun change hchange => (htarget change hchange).symm ▸ Ne.symm hname

/-- All changes for a key go to one name, which afterwards holds the wanted strings and is the one
where the entry then stores the value. -/
lemma exists_target (hexisting : Solid existing) (hwanted : wanted.Solid) (hrooted : Rooted table) :
    ∃ name, (∀ change ∈ changesFor existing table key wanted, change.target = name)
      ∧ resolve table key (applyAll existing (changesFor existing table key wanted)) = name
      ∧ ValueSet.Same (textsOf (applyAll existing (changesFor existing table key wanted)) name)
          wanted.texts := by
  cases plan_changesFor existing table key wanted with
  | fill hnone heq =>
    rw [heq, if_neg (by simpa using hwanted.texts_ne_nil), applyAll_cons, applyAll_nil]
    -- no name of the family is there, so the value goes to the key and is found there
    have habsent : existing.contains (resolve table key existing) = false := by
      rwa [hexisting.filled.hasData_eq] at hnone
    have hkey : resolve table key existing = key :=
      SynonymTable.resolve_eq_of_not_contains habsent
    have hold : textsOf existing key = [] := by
      rw [← hkey]
      by_cases h : textsOf existing (resolve table key existing) = []
      · exact h
      · simp [hexisting.contains_iff.2 h] at habsent
    have hsame : ValueSet.Same (textsOf (apply existing ⟨key, .add, wanted.texts⟩) key)
        wanted.texts := by
      intro text
      simp [mem_textsOf_add, hold]
    have hsolid : Solid (apply existing ⟨key, .add, wanted.texts⟩) :=
      hexisting.apply hwanted.empty_not_mem
    have hthere := hsolid.contains_iff.2 (hsame.symm.ne_nil hwanted.texts_ne_nil)
    exact ⟨key, by simp, hrooted.resolve_of_contains hthere, hsame⟩
  | @swap old new hold hdata hnew heq =>
    subst hnew
    by_cases hsame : old = new
    · subst hsame
      rw [heq, if_pos rfl, applyAll_nil]
      exact ⟨resolve table key existing, by simp, rfl, by rw [textsOf_of_get? hold]⟩
    · rw [heq, if_neg hsame, applyAll_cons, applyAll_nil]
      have htexts := textsOf_replace existing key [new]
      have hsolid : Solid (apply existing ⟨key, .replace, [new]⟩) :=
        hexisting.apply hwanted.empty_not_mem
      have hthere := hsolid.contains_iff.2 (by rw [htexts]; simp)
      refine ⟨key, by simp, hrooted.resolve_of_contains hthere, ?_⟩
      rw [htexts, AttributeValue.texts_single]
  | @adjust current hold hdata hmulti heq =>
    rw [heq]
    have hsame := same_textsOf_setChanges existing (resolve table key existing) wanted.texts
    rw [textsOf_of_get? hold] at hsame
    have hempty : ∀ change ∈ changesFor existing table key wanted, "" ∉ change.texts :=
      fun change => empty_not_mem_of_mem_changesFor hexisting hwanted
    rw [heq] at hempty
    have hsolid := hexisting.applyAll hempty
    have htargets : ∀ change ∈ setChanges (resolve table key existing) current.texts wanted.texts,
        change.target = resolve table key existing :=
      fun change hchange => (mem_setChanges hchange).1
    have hthere := contains_of_get? hold
    have hstill := hsolid.contains_iff.2 (hsame.symm.ne_nil hwanted.texts_ne_nil)
    exact ⟨resolve table key existing, htargets,
      resolve_applyAll_of_contains rfl hthere htargets hstill, hsame⟩

/-- **One attribute converges.**  After its changes the entry holds the wanted strings under
the name where it then stores the value. -/
lemma settled_applyAll_changesFor (hexisting : Solid existing) (hwanted : wanted.Solid)
    (hrooted : Rooted table) :
    Settled (applyAll existing (changesFor existing table key wanted)) table key wanted := by
  obtain ⟨name, -, hname, hsame⟩ := exists_target hexisting hwanted hrooted
  exact settled_of_same hwanted hname hsame

/-- The changes for a key go where the entry afterwards stores the value. -/
lemma target_eq_resolve (hexisting : Solid existing) (hwanted : wanted.Solid)
    (hrooted : Rooted table) {change : Change} (h : change ∈ changesFor existing table key wanted) :
    change.target
      = resolve table key (applyAll existing (changesFor existing table key wanted)) := by
  obtain ⟨name, htargets, hname, -⟩ := exists_target hexisting hwanted hrooted
  rw [htargets change h, hname]

/-- On the way no attribute that carries data loses it. -/
lemma hasData_applyAll_prefix (hexisting : Solid existing) (hwanted : wanted.Solid)
    {made : List Change} (hmade : made <+: changesFor existing table key wanted) {name : String}
    (h : hasData existing name = true) : hasData (applyAll existing made) name = true := by
  have hsolid : Solid (applyAll existing made) := hexisting.applyAll fun change hchange =>
    empty_not_mem_of_mem_changesFor hexisting hwanted (hmade.subset hchange)
  rw [hexisting.filled.hasData_eq, hexisting.contains_iff] at h
  rw [hsolid.filled.hasData_eq, hsolid.contains_iff]
  cases plan_changesFor existing table key wanted with
  | fill hnone heq =>
    rw [heq, if_neg (by simpa using hwanted.texts_ne_nil), List.prefix_cons_iff] at hmade
    rcases hmade with rfl | ⟨rest, rfl, hrest⟩
    · exact h
    · rw [List.prefix_nil.1 hrest]
      exact textsOf_add_ne_nil h
  | @swap old new hold hdata hnew heq =>
    by_cases hsame : old = new
    · rw [heq, if_pos hsame, List.prefix_nil] at hmade
      rwa [hmade]
    · rw [heq, if_neg hsame, List.prefix_cons_iff] at hmade
      rcases hmade with rfl | ⟨rest, rfl, hrest⟩
      · exact h
      · rw [List.prefix_nil.1 hrest, applyAll_cons, applyAll_nil]
        by_cases hname : name = key
        · rw [hname, textsOf_replace]
          simp
        · rwa [textsOf_apply_of_ne hname]
  | @adjust current hold hdata hmulti heq =>
    rw [heq] at hmade
    rcases prefix_setChanges hmade with rfl | rfl | rfl
    · exact h
    · exact textsOf_add_ne_nil h
    · by_cases hname : name = resolve table key existing
      · have hsame := same_textsOf_setChanges existing (resolve table key existing) wanted.texts
        rw [textsOf_of_get? hold] at hsame
        rw [hname]
        exact hsame.symm.ne_nil hwanted.texts_ne_nil
      · rwa [textsOf_congr (get?_applyAll_of_forall_ne fun change hchange => ?_)]
        rw [(mem_setChanges hchange).1]
        exact Ne.symm hname

end Record
end EntryClaims
