/-
# Claims in directory form

An attribute has no room for arrays in arrays.  What is stored of an array are the texts of its
leaves, which are met from left to right on the way through all arrays inside it.  A leaf is at a
place: the positions that lead to it from array to array.  Of two places the one that comes first in
a dictionary is further left, so the order of the leaves is the order of their places.  What is
stored is shown as a claim without nested arrays and without null, and this claim is stored as the
same value.  So a record that is shown as claims comes back as it was, without its empty lists.
-/
import EntryClaims.Proofs.Claim.Emptying

namespace EntryClaims

/-! ## Places in nested arrays -/

namespace Json

/-- The value at a place: the positions lead to it through nested arrays. -/
def at? : (place : List Nat) → Json → Option Json
  | [], value => some value
  | position :: place, .array items => items[position]?.bind (at? place)
  | _ :: _, _ => none

/-- Neither null nor an array. -/
def IsLeaf (value : Json) : Prop := value.isNull = false ∧ value.isArray = false

/-- At the place there is a leaf of the claim. -/
def LeafAt (claim : Json) (place : List Nat) (leaf : Json) : Prop :=
  claim.at? place = some leaf ∧ leaf.IsLeaf

/-- The pairs are the places and leaves of the claim, all of them, from left to right. -/
structure Enumerates (pairs : List (List Nat × Json)) (claim : Json) : Prop where
  /-- The places come in the order of a dictionary. -/
  inOrder : (pairs.map Prod.fst).Pairwise (· < ·)
  /-- Each place is there with its leaf, and nothing else. -/
  mem_iff : ∀ place leaf, (place, leaf) ∈ pairs ↔ claim.LeafAt place leaf

mutual

/-- The leaves of a claim with their places. -/
def placed : Json → List (List Nat × Json)
  | .null => []
  | .array items => placedFrom 0 items
  | leaf => [([], leaf)]

/-- The leaves of the items that stand at `position` and behind it, with their places. -/
def placedFrom (position : Nat) : List Json → List (List Nat × Json)
  | [] => []
  | item :: rest =>
    (placed item).map (Prod.map (position :: ·) id) ++ placedFrom (position + 1) rest

end

variable {place : List Nat} {leaf : Json} {items : List Json}

lemma placed_of_isLeaf (h : leaf.IsLeaf) : placed leaf = [([], leaf)] := by
  obtain ⟨hnull, harray⟩ := h
  cases leaf with
  | null => cases hnull
  | array items => cases harray
  | bool _ | number _ | string _ | object _ => rw [placed] <;> simp

lemma mem_placedFrom_iff {start : Nat} :
    (place, leaf) ∈ placedFrom start items ↔ ∃ position item inner, items[position]? = some item
      ∧ place = (start + position) :: inner ∧ (inner, leaf) ∈ placed item := by
  induction items generalizing start with
  | nil => simp [placedFrom]
  | cons item rest ih =>
    have hhere : (place, leaf) ∈ (placed item).map (Prod.map (start :: ·) id)
        ↔ ∃ inner, place = start :: inner ∧ (inner, leaf) ∈ placed item := by
      simp only [List.mem_map, Prod.exists, Prod.map_apply, id_eq, Prod.mk.injEq]
      constructor
      · rintro ⟨inner, _, hmem, rfl, rfl⟩
        exact ⟨inner, rfl, hmem⟩
      · rintro ⟨inner, rfl, hmem⟩
        exact ⟨inner, leaf, hmem, rfl, rfl⟩
    rw [placedFrom, List.mem_append, hhere, ih]
    constructor
    · rintro (⟨inner, hplace, hmem⟩ | ⟨position, other, inner, hother, hplace, hmem⟩)
      · exact ⟨0, item, inner, rfl, hplace, hmem⟩
      · exact ⟨position + 1, other, inner, hother, by rw [hplace]; congr 1; omega, hmem⟩
    · rintro ⟨position, other, inner, hother, hplace, hmem⟩
      cases position with
      | zero =>
        obtain rfl : item = other := Option.some.inj hother
        exact Or.inl ⟨inner, hplace, hmem⟩
      | succ position =>
        exact Or.inr ⟨position, other, inner, hother, by rw [hplace]; congr 1; omega, hmem⟩

/-- What is found on the way through the arrays are the leaves at their places. -/
lemma mem_placed_iff {claim : Json} : (place, leaf) ∈ placed claim ↔ claim.LeafAt place leaf := by
  -- a place says itself in which item the search goes on
  induction place generalizing claim with
  | nil =>
    cases claim with
    | null =>
      refine iff_of_false (by simp [placed]) ?_
      rintro ⟨hat, hnull, -⟩
      obtain rfl : Json.null = leaf := Option.some.inj hat
      cases hnull
    | array items =>
      refine iff_of_false (by simp [placed, mem_placedFrom_iff]) ?_
      rintro ⟨hat, -, harray⟩
      obtain rfl : Json.array items = leaf := Option.some.inj hat
      cases harray
    | bool _ | number _ | string _ | object _ =>
      rw [placed_of_isLeaf ⟨rfl, rfl⟩, LeafAt, at?]
      simp only [List.mem_singleton, Prod.mk.injEq, true_and, Option.some.injEq]
      exact ⟨fun heq => ⟨heq.symm, heq ▸ ⟨rfl, rfl⟩⟩, fun h => h.1.symm⟩
  | cons position inner ih =>
    cases claim with
    | array items =>
      simp only [placed, mem_placedFrom_iff, Nat.zero_add, List.cons.injEq, LeafAt, at?,
        Option.bind_eq_some_iff]
      constructor
      · rintro ⟨_, item, _, hitem, ⟨rfl, rfl⟩, hmem⟩
        obtain ⟨hat, hleaf⟩ := ih.1 hmem
        exact ⟨⟨item, hitem, hat⟩, hleaf⟩
      · rintro ⟨⟨item, hitem, hat⟩, hleaf⟩
        exact ⟨position, item, inner, hitem, ⟨rfl, rfl⟩, ih.2 ⟨hat, hleaf⟩⟩
    | null | bool _ | number _ | string _ | object _ => simp [placed, LeafAt, at?]

mutual

lemma pairwise_placed : ∀ claim : Json, ((placed claim).map Prod.fst).Pairwise (· < ·)
  | .null => by simp [placed]
  | .array items => by
    rw [placed]
    exact pairwise_placedFrom items 0
  | .bool _ | .number _ | .string _ | .object _ => by simp [placed]

/-- The places in an item begin with its position, which is smaller than that of a later item. -/
lemma pairwise_placedFrom : ∀ (items : List Json) (start : Nat),
    ((placedFrom start items).map Prod.fst).Pairwise (· < ·)
  | [], _ => by simp [placedFrom]
  | item :: rest, start => by
    have hitem : (((placed item).map Prod.fst).map (start :: ·)).Pairwise (· < ·) :=
      (pairwise_placed item).map _ fun _ _ hlt => List.cons_lt_cons_iff.2 (Or.inr ⟨rfl, hlt⟩)
    rw [placedFrom, List.map_append, List.pairwise_append]
    refine ⟨by simpa [Function.comp_def] using hitem, pairwise_placedFrom rest (start + 1), ?_⟩
    intro place hplace later hlater
    obtain ⟨inner, rfl⟩ : ∃ inner, place = start :: inner := by
      simp only [List.map_map, List.mem_map] at hplace
      obtain ⟨pair, -, rfl⟩ := hplace
      exact ⟨pair.1, rfl⟩
    obtain ⟨⟨_, leaf⟩, hmem, rfl⟩ := List.mem_map.1 hlater
    obtain ⟨position, _, _, -, rfl, -⟩ := mem_placedFrom_iff.1 hmem
    exact List.cons_lt_cons_iff.2 (Or.inl (by omega))

end

lemma enumerates_placed (claim : Json) : Enumerates (placed claim) claim :=
  ⟨pairwise_placed claim, fun _ _ => mem_placed_iff⟩

end Json

/-! ## The texts of the leaves -/

namespace AttributeValue

open Json (placed placedFrom Enumerates)

variable {claim : Json} {value : AttributeValue}

mutual

lemma leaves_eq : ∀ claim : Json,
    leaves claim = (placed claim).map fun pair => claimText pair.2
  | .null => by simp [leaves, placed]
  | .array items => by
    rw [leaves, placed]
    exact leavesOfAll_eq items 0
  | .bool _ | .number _ | .string _ | .object _ => by simp [leaves, placed]

lemma leavesOfAll_eq : ∀ (items : List Json) (start : Nat),
    leavesOfAll items = (placedFrom start items).map fun pair => claimText pair.2
  | [], _ => by simp [leavesOfAll, placedFrom]
  | item :: rest, start => by
    rw [leavesOfAll, placedFrom, List.map_append, List.map_map, leaves_eq item,
      leavesOfAll_eq rest (start + 1)]
    rfl

end

lemma ofClaim?_array_eq_some_iff {items : List Json} :
    ofClaim? (.array items) = some value
      ↔ leavesOfAll items ≠ [] ∧ value = .multi (leavesOfAll items) := by
  rw [ofClaim?]
  split
  case h_1 hnone => simp [hnone]
  case h_2 hsome =>
    rw [Option.some.injEq, and_iff_right hsome]
    exact eq_comm

/-- Every value but the empty list is stored as it is. -/
lemma ofClaim?_toClaim_eq (value : AttributeValue) :
    ofClaim? value.toClaim = if value = .multi [] then none else some value := by
  cases value with
  | single text => rfl
  | multi texts =>
    split
    case isTrue hempty => rw [hempty]; rfl
    case isFalse hne =>
      exact ofClaim?_toClaim (by simpa [hasData] using hne)

end AttributeValue

/-! ## Records shown as claims -/

namespace Document

open AttributeValue (ofClaim? ofClaim?_toClaim_eq)

/-- A record that is shown as claims is stored without its empty lists. -/
lemma toList_toRecord_ofRecord (record : Record) :
    (ofRecord record).toRecord.toList
      = record.toList.filter fun pair => pair.2 ≠ .multi [] := by
  have hclaims : Pairs.filterValues ofClaim? (ofRecord record).claims
      = record.toList.filter fun pair => pair.2 ≠ .multi [] := by
    rw [Pairs.filterValues, ofRecord, List.filterMap_map, ← List.filterMap_eq_filter]
    refine List.filterMap_congr fun pair _ => ?_
    by_cases hempty : pair.2 = .multi [] <;>
      simp [ofClaim?_toClaim_eq, hempty, Option.guard]
  have hnodup : (Pairs.keys (record.toList.filter fun pair => pair.2 ≠ .multi [])).Nodup :=
    record.nodup_keys.sublist (List.filter_sublist.map Prod.fst)
  calc (ofRecord record).toRecord.toList
      = Pairs.putAll [] (Pairs.filterValues ofClaim? (ofRecord record).claims) := rfl
    _ = record.toList.filter fun pair => pair.2 ≠ .multi [] := by
        rw [hclaims]
        exact Pairs.putAll_eq_append hnodup

end Document

namespace AttributeValue

open Json (Enumerates)

/-- **The directory form is a normal form.**  A value that stores a claim is shown as a claim that
the same value stores.  An array has a value when it has a leaf, however deep; the value is then the
list of the texts of all leaves from left to right.  A record that is shown as claims comes back
with all attributes but the empty lists, in the same order. -/
theorem directory_form_normal :
    (∀ claim value, ofClaim? claim = some value → ofClaim? value.toClaim = some value)
      ∧ (∀ items, ∃ pairs, Enumerates pairs (.array items) ∧ ∀ value,
          ofClaim? (.array items) = some value
            ↔ pairs ≠ [] ∧ value = .multi (pairs.map fun (_, leaf) => claimText leaf))
      ∧ ∀ record : Record, (Document.ofRecord record).toRecord.toList
          = record.toList.filter fun (_, value) => value ≠ .multi [] := by
  refine ⟨fun claim value h => ?_, fun items => ?_, Document.toList_toRecord_ofRecord⟩
  · have hne : value ≠ .multi [] := by
      rintro rfl
      exact texts_ne_nil_of_ofClaim? h rfl
    rw [ofClaim?_toClaim_eq, if_neg hne]
  · refine ⟨_, Json.enumerates_placed (.array items), fun value => ?_⟩
    rw [ofClaim?_array_eq_some_iff, leavesOfAll_eq items 0, Json.placed, Ne, List.map_eq_nil_iff]

-- an object is stored as a text, with the null that it holds
example : ofClaim? (.array [.null, .string "a", .array [.array [], .bool true,
    .array [.object [("b", .null)], .null]], .string ""])
      = some (.multi ["a", "true", "\x7b\"b\":null\x7d", ""]) := by
  decide

end AttributeValue
end EntryClaims
