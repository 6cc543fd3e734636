/-
# A record that is already as desired

A record is compared with itself.  Every key is there, so its value is looked up under the key
itself, whatever synonyms of it are there too, and the two sides hold the same strings.  So nothing
is asked for, with one exception: the empty string counts as no data, and one that is desired is
added although it is there.  The addition has no effect.
-/
import EntryClaims.Proofs.Claim.Alignment
import EntryClaims.Proofs.Entry.Convergence
import EntryClaims.Proofs.Maps

namespace EntryClaims
namespace Record

open SynonymTable (Rooted)

variable {record : Record} {table : SynonymTable} {key : String} {value : AttributeValue}

/-! ## One key -/

/-- For the value that is there nothing is asked for, unless it is the empty string. -/
lemma changesFor_self (hrooted : Rooted table) (hget : record.get? key = some value) :
    changesFor record table key value
      = if value = .single "" then [⟨key, .add, [""]⟩] else [] := by
  cases hdata : value.hasData with
  | true =>
    have hne : value ≠ .single "" := by
      rintro rfl
      simp [AttributeValue.hasData] at hdata
    rw [if_neg hne, changesFor_eq_nil_of_same hrooted hget hdata (ValueSet.Same.refl _)]
  | false =>
    -- the key is there, and what it holds counts as nothing
    have hstored : (record.get? key).filter AttributeValue.hasData = none := by
      simp [hget, hdata]
    simp only [changesFor, hrooted.resolve_of_contains (contains_of_get? hget), hstored]
    rcases AttributeValue.hasData_eq_false_iff.1 hdata with rfl | rfl <;> simp

/-- Adding the empty string where it is there has no effect. -/
lemma apply_add_empty (hget : record.get? key = some (.single "")) :
    apply record ⟨key, .add, [""]⟩ = record := by
  have hafter : Change.after ⟨key, .add, [""]⟩ [""] = [""] := by
    simp [Change.after, ValueSet.addAll, ValueSet.add]
  rw [apply, textsOf_of_get? hget, AttributeValue.texts_single, hafter, store]
  exact OrderedMap.insert_of_get? hget

/-! ## All keys -/

lemma applyAll_eq_self {changes : List Change}
    (h : ∀ change ∈ changes, apply record change = record) : applyAll record changes = record := by
  induction changes with
  | nil => rfl
  | cons change rest ih =>
    rw [List.forall_mem_cons] at h
    rw [applyAll_cons, h.1, ih h.2]

lemma flatMap_ite_singleton {α β : Type} (test : α → Bool) (f : α → β) (items : List α) :
    items.flatMap (fun item => if test item then [f item] else []) = (items.filter test).map f := by
  induction items with
  | nil => rfl
  | cons item rest ih =>
    rw [List.flatMap_cons, ih]
    cases htest : test item <;> simp [htest]

/-- **What a record is short of itself.**  Between a record and itself, with the synonyms of any
mapping, the empty strings are asked for that the record holds as single values of attributes that
are not protected, in the order of the attributes, and nothing else.  So nothing is asked for
exactly when there are none; and where there are some, making the changes leaves the record as it
is. -/
theorem changes_self (record : Record) (mapping : Mapping) (protectedKeys : List String) :
    let asked := changes record record mapping.synonyms protectedKeys
    asked = (record.toList.filter fun pair => pair.1 ∉ protectedKeys ∧ pair.2 = .single "").map
        (fun pair => ⟨pair.1, .add, [""]⟩)
      ∧ (asked = [] ↔ ∀ name, record.get? name = some (.single "") → name ∈ protectedKeys)
      ∧ applyAll record asked = record := by
  intro asked
  have hasked : asked
      = (record.toList.filter fun pair => pair.1 ∉ protectedKeys ∧ pair.2 = .single "").map
        (fun pair => ⟨pair.1, .add, [""]⟩) := by
    rw [← flatMap_ite_singleton]
    refine List.flatMap_congr fun pair hpair => ?_
    by_cases hkey : pair.1 ∈ protectedKeys
    · simp [hkey]
    · simp [hkey, changesFor_self (Mapping.rooted_synonyms mapping)
        (OrderedMap.get?_eq_some_iff.2 hpair)]
  refine ⟨hasked, ?_, applyAll_eq_self fun change hchange => ?_⟩
  · rw [hasked, List.map_eq_nil_iff, List.filter_eq_nil_iff]
    constructor
    · intro h name hget
      simpa using h (name, .single "") (OrderedMap.get?_eq_some_iff.1 hget)
    · rintro h ⟨name, value⟩ hpair
      simp only [decide_eq_true_eq, not_and]
      rintro hname rfl
      exact hname (h name (OrderedMap.get?_eq_some_iff.2 hpair))
  · rw [hasked, List.mem_map] at hchange
    obtain ⟨⟨name, value⟩, hpair, rfl⟩ := hchange
    obtain ⟨hmem, hempty⟩ := List.mem_filter.1 hpair
    obtain ⟨-, rfl⟩ := of_decide_eq_true hempty
    exact apply_add_empty (OrderedMap.get?_eq_some_iff.2 hmem)

/-- An empty description is asked for although it is there, unlike an empty list. -/
theorem empty_description_added :
    let mapping : Mapping := ⟨[("name", [.plain (.synonyms ["cn", "commonName"])])], by decide⟩
    let record : Record := ⟨[("commonName", .single "Bob"), ("cn", .multi []),
      ("description", .single "")], by decide⟩
    let asked := changes record record mapping.synonyms ["dn"]
    asked = [⟨"description", .add, [""]⟩] ∧ asked ≠ [] := by
  decide

end Record
end EntryClaims
