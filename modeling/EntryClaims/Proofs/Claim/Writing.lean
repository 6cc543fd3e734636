/-
# What the record of a document is

Every claim contributes at most one value to one attribute, and the record holds what was
contributed and nothing else: an attribute is there when some claim contributes to it, and its
strings are those of the values that were contributed, taken together.
-/
import EntryClaims.Claim.Mapping
import EntryClaims.Proofs.Entry.Texts

namespace EntryClaims
namespace Mapping

open Record (textsOf)

variable {record : Record} {name text : String} {given : List (String × AttributeValue)}

/-- What the claims of a document contribute, in the order of the claims. -/
def contributions (mapping : Mapping) (document : Document) : List (String × AttributeValue) :=
  mapping.toList.filterMap fun (claim, rules) => contribution? document claim rules

lemma recordOf_eq_foldl (mapping : Mapping) (document : Document) :
    mapping.recordOf document = (mapping.contributions document).foldl collect OrderedMap.empty :=
  rfl

lemma mem_contributions {mapping : Mapping} {document : Document}
    {contribution : String × AttributeValue} :
    contribution ∈ mapping.contributions document ↔
      ∃ claim rules, (claim, rules) ∈ mapping.toList
        ∧ contribution? document claim rules = some contribution := by
  simp [contributions]

/-! ## Collecting -/

lemma get?_collect_self (record : Record) (contribution : String × AttributeValue) :
    (collect record contribution).get? contribution.1
      = some ((record.get? contribution.1).elim contribution.2 fun earlier =>
          .multi (ValueSet.addAll earlier.texts contribution.2.texts)) := by
  rw [collect]
  cases record.get? contribution.1 <;> exact OrderedMap.get?_insert_self record _ _

lemma get?_collect_of_ne {contribution : String × AttributeValue} (h : name ≠ contribution.1) :
    (collect record contribution).get? name = record.get? name := by
  rw [collect]
  cases record.get? contribution.1 <;> exact OrderedMap.get?_insert_of_ne h record _

lemma mem_textsOf_collect {contribution : String × AttributeValue} :
    text ∈ textsOf (collect record contribution) name ↔
      text ∈ textsOf record name ∨ contribution.1 = name ∧ text ∈ contribution.2.texts := by
  by_cases hname : name = contribution.1
  · subst hname
    rw [Record.textsOf_of_get? (get?_collect_self record contribution)]
    cases hget : record.get? contribution.1 with
    | none => simp [textsOf, hget]
    | some earlier => simp [textsOf, hget, ValueSet.mem_addAll]
  · rw [Record.textsOf_congr (get?_collect_of_ne hname)]
    simp [Ne.symm hname]

lemma mem_textsOf_foldl_collect :
    text ∈ textsOf (given.foldl collect record) name ↔
      text ∈ textsOf record name ∨ ∃ value, (name, value) ∈ given ∧ text ∈ value.texts := by
  induction given generalizing record with
  | nil => simp
  | cons contribution rest ih =>
    obtain ⟨target, value⟩ := contribution
    rw [List.foldl_cons, ih, mem_textsOf_collect, or_assoc]
    refine or_congr_right ?_
    constructor
    · rintro (⟨rfl, htext⟩ | ⟨other, hmem, htext⟩)
      · exact ⟨value, List.mem_cons_self, htext⟩
      · exact ⟨other, List.mem_cons_of_mem _ hmem, htext⟩
    · rintro ⟨other, hmem, htext⟩
      rcases List.mem_cons.1 hmem with heq | hrest
      · cases heq
        exact Or.inl ⟨rfl, htext⟩
      · exact Or.inr ⟨other, hrest, htext⟩

lemma keys_collect (record : Record) (contribution : String × AttributeValue) :
    (collect record contribution).keys = ValueSet.add record.keys contribution.1 := by
  rw [collect]
  cases record.get? contribution.1 <;> exact OrderedMap.keys_insert record contribution.1 _

/-- An attribute comes in when something is contributed to it for the first time. -/
lemma keys_foldl_collect (record : Record) (given : List (String × AttributeValue)) :
    (given.foldl collect record).keys = ValueSet.addAll record.keys (given.map Prod.fst) := by
  induction given generalizing record with
  | nil => rfl
  | cons contribution rest ih => rw [List.foldl_cons, ih, keys_collect]; rfl

/-! ## The record of a document -/

variable {mapping : Mapping} {document : Document}

/-- An attribute of the record holds the strings that were contributed to it. -/
lemma mem_textsOf_recordOf :
    text ∈ textsOf (mapping.recordOf document) name ↔
      ∃ value, (name, value) ∈ mapping.contributions document ∧ text ∈ value.texts := by
  rw [recordOf_eq_foldl, mem_textsOf_foldl_collect]
  simp [textsOf]

/-- The record has the attributes that something was contributed to. -/
lemma contains_recordOf :
    (mapping.recordOf document).contains name = true ↔
      ∃ value, (name, value) ∈ mapping.contributions document := by
  have hkeys : name ∈ (mapping.recordOf document).keys ↔
      name ∈ (mapping.contributions document).map Prod.fst := by
    rw [recordOf_eq_foldl, keys_foldl_collect, ValueSet.mem_addAll]
    simp [OrderedMap.keys, OrderedMap.empty]
  rw [OrderedMap.contains, ← OrderedMap.mem_keys_iff, hkeys]
  simp

section Attribute

variable {wanted : AttributeValue} (hget : (mapping.recordOf document).get? name = some wanted)

include hget

lemma exists_contribution : ∃ value, (name, value) ∈ mapping.contributions document :=
  contains_recordOf.1 (Record.contains_of_get? hget)

lemma mem_texts_iff :
    text ∈ wanted.texts ↔
      ∃ value, (name, value) ∈ mapping.contributions document ∧ text ∈ value.texts := by
  rw [← Record.textsOf_of_get? hget, mem_textsOf_recordOf]

/-- Where all contributions to an attribute have the same strings, the record holds these. -/
lemma same_of_forall_contribution {texts : List String}
    (h : ∀ value, (name, value) ∈ mapping.contributions document →
      ValueSet.Same value.texts texts) : ValueSet.Same wanted.texts texts := by
  obtain ⟨value, hvalue⟩ := exists_contribution hget
  intro text
  rw [mem_texts_iff hget]
  constructor
  · rintro ⟨other, hmem, htext⟩
    exact (h other hmem text).1 htext
  · intro htext
    exact ⟨value, hvalue, (h value hvalue text).2 htext⟩

end Attribute

/-- The record is solid when everything contributed is. -/
lemma solid_recordOf (h : ∀ contribution ∈ mapping.contributions document, contribution.2.Solid) :
    Record.Solid (mapping.recordOf document) := by
  rw [Record.solid_iff]
  intro name wanted hget
  constructor
  · obtain ⟨value, hvalue⟩ := exists_contribution hget
    obtain ⟨text, htext⟩ := List.exists_mem_of_ne_nil _ (h _ hvalue).texts_ne_nil
    exact List.ne_nil_of_mem ((mem_texts_iff hget).2 ⟨value, hvalue, htext⟩)
  · intro hempty
    obtain ⟨value, hvalue, hmem⟩ := (mem_texts_iff hget).1 hempty
    exact (h _ hvalue).empty_not_mem hmem

end Mapping
end EntryClaims
