/-
# Sub-claims by position

An attribute has no room for the names of sub-claims.  Their texts are joined in the order of the
names, and a name without a text leaves no gap.  When the value is taken apart again, the texts are
matched with the names from the end.  So whatever names the texts were stored under, they come back
under the last names, and under their own only when these are the last ones.
-/
import EntryClaims.Proofs.Claim.Regrouping
import Mathlib.Data.List.Perm.Basic

namespace EntryClaims

/-! ## Texts without the delimiter -/

namespace Text

lemma cutFrom_singleton (d : Char) (text : List Char) : cutFrom [d] 0 text = cutAt d text := by
  induction text with
  | nil => rfl
  | cons c cs ih =>
    by_cases h : c = d
    · simp [cutFrom, cutAt, h, ih]
    · simp [cutFrom, cutAt, h, Ne.symm h, ih]

lemma cutAt_of_not_mem {d : Char} {text : List Char} (h : d ∉ text) : cutAt d text = [text] := by
  induction text with
  | nil => rfl
  | cons c cs ih =>
    rw [List.mem_cons, not_or] at h
    rw [cutAt, if_neg (Ne.symm h.1), ih h.2, consFirst]

/-- Pieces that do not hold the delimiter are the pieces of what they are joined to. -/
lemma cutAt_intercalate {d : Char} {pieces : List (List Char)} (hne : pieces ≠ [])
    (h : ∀ piece ∈ pieces, d ∉ piece) : cutAt d ([d].intercalate pieces) = pieces := by
  induction pieces with
  | nil => exact absurd rfl hne
  | cons piece rest ih =>
    have hpiece := cutAt_of_not_mem (h piece List.mem_cons_self)
    cases rest with
    | nil => rw [List.intercalate_singleton, hpiece]
    | cons next others =>
      have hrest := ih (List.cons_ne_nil next others) fun p hp => h p (List.mem_cons_of_mem _ hp)
      rw [List.intercalate_cons_cons, List.append_assoc, List.singleton_append, cutAt_append,
        hpiece, hrest, List.singleton_append]

lemma split_intercalate {d : Char} {texts : List String} (hne : texts ≠ [])
    (h : ∀ text ∈ texts, d ∉ text.toList) :
    split (String.singleton d) ((String.singleton d).intercalate texts) = texts := by
  have hpieces : ∀ piece ∈ texts.map String.toList, d ∉ piece := by simpa using h
  rw [split, cut, String.toList_intercalate, String.toList_singleton, if_neg (by simp),
    cutFrom_singleton, cutAt_intercalate (by simpa using hne) hpieces, List.map_map]
  simp [Function.comp_def]

end Text

/-! ## Fields that hold texts -/

namespace Json

/-- The fields that hold the given texts. -/
def textFields (pairs : List (String × String)) : Fields :=
  pairs.map (Prod.map id .string)

lemma lookup_textFields (pairs : List (String × String)) (name : String) :
    (textFields pairs).lookup name = (pairs.lookup name).map .string := by
  induction pairs with
  | nil => rfl
  | cons pair rest ih =>
    obtain ⟨key, text⟩ := pair
    rw [textFields] at ih
    simp only [textFields, List.map_cons, Prod.map_apply, id_eq, List.lookup_cons]
    cases name == key with
    | true => rfl
    | false => exact ih

end Json

/-! ## Sub-claims in the order of the names -/

namespace Step

open Json (textFields)

variable {names texts : List String} {claim : OrderedMap String}

/-- The sub-claims in the order of the names. -/
def inOrderOf (names : List String) (claim : OrderedMap String) : List (String × String) :=
  names.filterMap fun name => (claim.get? name).map fun text => (name, text)

lemma keys_inOrderOf (names : List String) (claim : OrderedMap String) :
    Pairs.keys (inOrderOf names claim) = names.filter (· ∈ claim.keys) := by
  induction names with
  | nil => rfl
  | cons name rest ih =>
    rw [Pairs.keys, inOrderOf] at ih
    rw [Pairs.keys, inOrderOf, List.filterMap_cons, List.filter_cons, ← ih]
    cases hget : claim.get? name with
    | none => simp [OrderedMap.mem_keys_iff, hget]
    | some text => simp [OrderedMap.mem_keys_iff, hget]

/-- When all sub-claims have one of the names, none of them is missing. -/
lemma perm_inOrderOf (hnodup : names.Nodup) (hnames : ∀ name ∈ claim.keys, name ∈ names) :
    (inOrderOf names claim).Perm claim.toList := by
  have hkeys : (Pairs.keys (inOrderOf names claim)).Nodup := by
    rw [keys_inOrderOf]
    exact hnodup.filter _
  refine (List.perm_ext_iff_of_nodup hkeys.of_map claim.nodup_keys.of_map).2 fun pair => ?_
  rw [inOrderOf, List.mem_filterMap]
  constructor
  · rintro ⟨name, -, hpair⟩
    obtain ⟨text, hget, rfl⟩ := Option.map_eq_some_iff.1 hpair
    exact OrderedMap.get?_eq_some_iff.1 hget
  · intro hpair
    refine ⟨pair.1, hnames pair.1 (OrderedMap.mem_keys_of_mem hpair), ?_⟩
    rw [OrderedMap.get?_eq_some_iff.2 hpair, Option.map_some]

/-- Of names that are the last ones, in whatever order, the order of all names keeps just these. -/
lemma filter_mem_eq_drop {kept : List String} (hnodup : names.Nodup) {skipped : Nat}
    (h : kept.Perm (names.drop skipped)) : names.filter (· ∈ kept) = names.drop skipped := by
  have hdisjoint := List.disjoint_take_drop hnodup (Nat.le_refl skipped)
  have hfront : (names.take skipped).filter (· ∈ kept) = [] := by
    refine List.filter_eq_nil_iff.2 fun name hname => ?_
    simpa [h.mem_iff] using fun hdrop => hdisjoint hname hdrop
  have hback : (names.drop skipped).filter (· ∈ kept) = names.drop skipped :=
    List.filter_eq_self.2 fun name hname => by simpa [h.mem_iff] using hname
  calc names.filter (· ∈ kept)
      = (names.take skipped).filter (· ∈ kept) ++ (names.drop skipped).filter (· ∈ kept) := by
        rw [← List.filter_append, List.take_append_drop]
    _ = names.drop skipped := by rw [hfront, hback, List.nil_append]

/-- The texts of the sub-claims, each under the name that it gets when they are matched with the
names from the end. -/
def underLast (names : List String) (claim : OrderedMap String) : List (String × String) :=
  (names.drop (names.length - claim.size)).zip ((inOrderOf names claim).map Prod.snd)

lemma keys_underLast (hnodup : names.Nodup) (hnames : ∀ name ∈ claim.keys, name ∈ names) :
    Pairs.keys (underLast names claim) = names.drop (names.length - claim.size) := by
  have hsize : (inOrderOf names claim).length = claim.size :=
    (perm_inOrderOf hnodup hnames).length_eq
  refine List.map_fst_zip ?_
  rw [List.length_drop, List.length_map, hsize]
  omega

/-- Under the last names the sub-claims are what they were exactly when these are their names. -/
lemma perm_underLast_iff (hnodup : names.Nodup) (hnames : ∀ name ∈ claim.keys, name ∈ names) :
    (underLast names claim).Perm claim.toList
      ↔ claim.keys.Perm (names.drop (names.length - claim.size)) := by
  constructor
  · intro h
    have hkeys := (h.map Prod.fst).symm
    rwa [show (underLast names claim).map Prod.fst = names.drop (names.length - claim.size) from
      keys_underLast hnodup hnames] at hkeys
  · intro h
    have hkeys : (inOrderOf names claim).map Prod.fst = names.drop (names.length - claim.size) :=
      (keys_inOrderOf names claim).trans (filter_mem_eq_drop hnodup h)
    rw [underLast, ← List.zip_of_prod hkeys rfl]
    exact perm_inOrderOf hnodup hnames

/-! ## From the names to positions and back -/

lemma positional_textFields (names : List String) (claim : OrderedMap String) :
    positional names (textFields claim.toList)
      = ((inOrderOf names claim).map Prod.snd).map .string := by
  induction names with
  | nil => rfl
  | cons name rest ih =>
    rw [positional_eq] at ih
    rw [positional_eq, List.flatMap_cons, ih, Json.lookup_textFields, inOrderOf, inOrderOf,
      List.filterMap_cons, OrderedMap.get?]
    cases claim.toList.lookup name <;> rfl

/-- Not more texts than names are assigned to the last names. -/
lemma assigned_strings (hne : names ≠ []) (hnodup : names.Nodup)
    (hle : texts.length ≤ names.length) :
    assigned (texts.map .string) names
      = textFields ((names.drop (names.length - texts.length)).zip texts) := by
  have haligned : aligned (texts.map .string) names.length
      = List.replicate (names.length - texts.length) .null ++ texts.map .string := by
    rw [aligned, List.length_map, if_neg (by omega)]
  have hzip : names.zip (aligned (texts.map .string) names.length)
      = (names.take (names.length - texts.length)).zip
          (List.replicate (names.length - texts.length) .null)
        ++ textFields ((names.drop (names.length - texts.length)).zip texts) := by
    rw [haligned, textFields, ← List.zip_map_right, ← List.zip_append (by simp),
      List.take_append_drop]
  have hfront : Pairs.filterValues Json.present? ((names.take (names.length - texts.length)).zip
      (List.replicate (names.length - texts.length) .null)) = [] := by
    refine List.filterMap_eq_nil_iff.2 fun pair hpair => ?_
    obtain ⟨name, part⟩ := pair
    obtain rfl : part = .null := List.eq_of_mem_replicate (List.of_mem_zip hpair).2
    rfl
  have hback : ∀ pairs : List (String × String),
      Pairs.filterValues Json.present? (textFields pairs) = textFields pairs := fun pairs => by
    rw [Pairs.filterValues, textFields, List.filterMap_map, ← List.filterMap_eq_map]
    rfl
  rw [assigned_eq _ hne hnodup, hzip, Pairs.filterValues_append, hfront, hback, List.nil_append]

/-- Joined, the texts are taken apart again and assigned to the last names. -/
lemma assign_split_intercalate {delimiter : Char} (hne : texts ≠ []) (hnodup : names.Nodup)
    (hle : texts.length ≤ names.length) (hfree : ∀ text ∈ texts, delimiter ∉ text.toList) :
    assign names (split (String.singleton delimiter)
        (.string ((String.singleton delimiter).intercalate texts)))
      = .object (textFields ((names.drop (names.length - texts.length)).zip texts)) := by
  have hnames : names ≠ [] := by
    rintro rfl
    exact hne (List.length_eq_zero_iff.1 (Nat.le_zero.1 hle))
  have hsplit : split (String.singleton delimiter)
      (.string ((String.singleton delimiter).intercalate texts))
        = .array (texts.map .string) := by
    simp only [split, onStrings, onString, Text.split_intercalate hne hfree, Json.ofStrings]
  rw [hsplit, assign, if_neg (by simpa using hnames), assigned_strings hnames hnodup hle]

end Step

namespace Rule

open Json (textFields)
open Step (inOrderOf underLast)

section Parting

variable (source : Source) {names : List String} (hnodup : names.Nodup)

include hnodup

/-- Texts under names are stored joined, in the order of the names. -/
lemma write?_parting {separator : String} (h : separator ≠ "") (claim : OrderedMap String) :
    (parting source separator names).write? (.object (textFields claim.toList))
      = some (.string (separator.intercalate ((inOrderOf names claim).map Prod.snd))) := by
  have hsplitting := splitting_parting source separator hnodup
  rw [hsplitting.write?_eq_pack? (by simp), pack?_parting source h, Step.unassign,
    Step.positional_textFields]
  exact Step.join?_strings _ _

/-- Texts that were joined with a character which none of them holds are read back under the last
names. -/
lemma read?_parting {delimiter : Char} {texts : List String} (hne : texts ≠ [])
    (hle : texts.length ≤ names.length) (hfree : ∀ text ∈ texts, delimiter ∉ text.toList) :
    (parting source (String.singleton delimiter) names).read?
        (.string ((String.singleton delimiter).intercalate texts))
      = some (.object (textFields ((names.drop (names.length - texts.length)).zip texts))) := by
  have hread := (splitting_parting source (String.singleton delimiter) hnodup).read?_eq
    (.single ((String.singleton delimiter).intercalate texts))
  rw [parts_parting source (by simp), AttributeValue.toClaim,
    Step.assign_split_intercalate hne hnodup hle hfree] at hread
  exact hread

/-- **Sub-claims come back under the last names.**  A rule that splits at one character and assigns
the parts to different names stores the texts of a claim, which do not hold this character, in the
order of the names, and reads them back under the last names, as many as there are texts.  So the
claim comes back as it was, up to the order of its sub-claims, exactly when these are its names. -/
theorem subclaims_under_last_names {delimiter : Char} {claim : OrderedMap String}
    (hsome : claim.toList ≠ []) (hnames : ∀ name ∈ claim.keys, name ∈ names)
    (hfree : ∀ pair ∈ claim.toList, delimiter ∉ pair.2.toList) :
    let rule := parting source (String.singleton delimiter) names
    let last := names.drop (names.length - claim.size)
    let back := last.zip ((inOrderOf names claim).map Prod.snd)
    (rule.write? (.object (textFields claim.toList))).bind rule.read?
        = some (.object (textFields back))
      ∧ Pairs.keys back = last
      ∧ (back.Perm claim.toList ↔ claim.keys.Perm last) := by
  intro rule last back
  have hperm := Step.perm_inOrderOf hnodup hnames
  have hne : (inOrderOf names claim).map Prod.snd ≠ [] := fun hnil =>
    hsome (List.map_eq_nil_iff.1 hnil ▸ hperm).symm.eq_nil
  have hlength : ((inOrderOf names claim).map Prod.snd).length = claim.size := by
    rw [List.length_map, hperm.length_eq, OrderedMap.size]
  have hle : ((inOrderOf names claim).map Prod.snd).length ≤ names.length := by
    rw [List.length_map]
    exact List.length_filterMap_le _ _
  have hfree' : ∀ text ∈ (inOrderOf names claim).map Prod.snd, delimiter ∉ text.toList := by
    intro text htext
    obtain ⟨pair, hpair, rfl⟩ := List.mem_map.1 htext
    exact hfree pair (hperm.mem_iff.1 hpair)
  have hread := read?_parting source hnodup hne hle hfree'
  rw [hlength] at hread
  rw [write?_parting source hnodup (by simp), Option.bind_some, hread]
  exact ⟨rfl, Step.keys_underLast hnodup hnames, Step.perm_underLast_iff hnodup hnames⟩

end Parting

/-- Number and town are the last two of three names, and come back under their own. -/
theorem subclaims_under_last_names_of_town :
    let names := ["street", "number", "town"]
    let rule := parting (.one "postalAddress") "$" names
    let claim : OrderedMap String := ⟨[("town", "Zurich"), ("number", "")], by decide⟩
    let back := [("number", ""), ("town", "Zurich")]
    names.Nodup ∧ (∀ name ∈ claim.keys, name ∈ names)
      ∧ (∀ pair ∈ claim.toList, '$' ∉ pair.2.toList)
      ∧ (rule.write? (.object (textFields claim.toList))).bind rule.read?
          = some (.object (textFields back))
      ∧ back.Perm claim.toList := by
  intro names rule claim back
  have hnodup : names.Nodup := by decide
  have hnames : ∀ name ∈ claim.keys, name ∈ names := by decide
  have hfree : ∀ pair ∈ claim.toList, '$' ∉ pair.2.toList := by decide
  obtain ⟨hback, -, hsame⟩ :=
    subclaims_under_last_names (.one "postalAddress") hnodup (by decide) hnames hfree
  exact ⟨hnodup, hnames, hfree, hback, hsame.2 (by decide)⟩

/-- A street alone comes back as the town. -/
theorem street_comes_back_as_town :
    let names := ["street", "town"]
    let rule := parting (.one "postalAddress") "$" names
    let claim : OrderedMap String := ⟨[("street", "Main Street 1")], by decide⟩
    names.Nodup ∧ claim.toList ≠ [] ∧ (∀ name ∈ claim.keys, name ∈ names)
      ∧ (∀ pair ∈ claim.toList, pair.2 ≠ "" ∧ '$' ∉ pair.2.toList)
      ∧ (rule.write? (.object (textFields claim.toList))).bind rule.read?
          = some (.object (textFields [("town", "Main Street 1")]))
      ∧ ¬ [("town", "Main Street 1")].Perm claim.toList := by
  decide +kernel

end Rule
end EntryClaims
