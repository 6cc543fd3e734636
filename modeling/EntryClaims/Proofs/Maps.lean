/-
# Maps built pair by pair

A form is written by leaving out what is not set, and a map is built by storing one pair after the
other.  As long as no key comes twice, neither loses anything: each key is found with what was
written for it, and the pairs stand in the order in which they were stored.
-/
import EntryClaims.OrderedMap
import Mathlib.Data.List.Nodup
import Mathlib.Tactic.Lemma

namespace EntryClaims

universe u v

variable {β : Type u} {γ : Type v}

namespace Pairs

/-! ## Pairs that may be left out -/

/-- The pairs with their values turned into others, those without another value left out. -/
def filterValues (f : β → Option γ) (pairs : List (String × β)) : List (String × γ) :=
  pairs.filterMap fun (key, value) => (f value).map fun value => (key, value)

variable {f : β → Option γ} {pairs : List (String × β)}

lemma mem_filterValues {key : String} {value : γ} :
    (key, value) ∈ filterValues f pairs ↔ ∃ old, (key, old) ∈ pairs ∧ f old = some value := by
  rw [filterValues, List.mem_filterMap]
  constructor
  · rintro ⟨⟨other, old⟩, hmem, heq⟩
    obtain ⟨new, hnew, hpair⟩ := Option.map_eq_some_iff.1 heq
    cases hpair
    exact ⟨old, hmem, hnew⟩
  · rintro ⟨old, hmem, hold⟩
    exact ⟨(key, old), hmem, by simp [hold]⟩

lemma filterValues_cons (f : β → Option γ) (pair : String × β) (rest : List (String × β)) :
    filterValues f (pair :: rest)
      = ((f pair.2).map fun value => (pair.1, value)).toList ++ filterValues f rest := by
  simp only [filterValues, List.filterMap_cons]
  cases f pair.2 <;> rfl

lemma filterValues_append (f : β → Option γ) (pairs others : List (String × β)) :
    filterValues f (pairs ++ others) = filterValues f pairs ++ filterValues f others :=
  List.filterMap_append

lemma keys_filterValues_sublist (f : β → Option γ) (pairs : List (String × β)) :
    (keys (filterValues f pairs)).Sublist (keys pairs) := by
  induction pairs with
  | nil => exact List.Sublist.refl _
  | cons pair rest ih =>
    rw [filterValues_cons]
    cases f pair.2 with
    | none => exact ih.cons pair.1
    | some new => exact ih.cons_cons pair.1

lemma nodup_keys_filterValues (h : (keys pairs).Nodup) : (keys (filterValues f pairs)).Nodup :=
  h.sublist (keys_filterValues_sublist f pairs)

/-- Where no key occurs twice, a key has the value that its own was turned into. -/
lemma lookup_filterValues (h : (keys pairs).Nodup) {pair : String × β} (hmem : pair ∈ pairs) :
    (filterValues f pairs).lookup pair.1 = f pair.2 := by
  ext value
  rw [lookup_eq_some_iff (nodup_keys_filterValues h), mem_filterValues]
  have hpair : pairs.lookup pair.1 = some pair.2 := (lookup_eq_some_iff h).2 hmem
  constructor
  · rintro ⟨old, hold, hvalue⟩
    rw [← lookup_eq_some_iff h, hpair, Option.some.injEq] at hold
    rwa [hold]
  · intro hvalue
    exact ⟨pair.2, hmem, hvalue⟩

/-! ## Pairs stored behind a first one -/

lemma lookup_eq_none_of_not_mem {key : String} (h : key ∉ keys pairs) : pairs.lookup key = none :=
  Option.not_isSome_iff_eq_none.1 (mt mem_keys_iff_lookup.2 h)

/-- When pairs are stored one after the other, the first pair keeps its place, but not its value if
its key comes again. -/
lemma putAll_cons (h : (keys pairs).Nodup) (key : String) (value : β) (start : List (String × β)) :
    putAll ((key, value) :: start) pairs
      = (key, (pairs.lookup key).getD value) :: putAll start (erase key pairs) := by
  induction pairs generalizing value start with
  | nil => rfl
  | cons pair rest ih =>
    obtain ⟨name, new⟩ := pair
    rw [keys_cons, List.nodup_cons] at h
    by_cases hname : key = name
    · subst hname
      have hput : putAll ((key, value) :: start) ((key, new) :: rest)
          = putAll ((key, new) :: start) rest := by simp [putAll, put]
      rw [hput, ih h.2, lookup_eq_none_of_not_mem h.1]
      simp [erase]
    · have hput : putAll ((key, value) :: start) ((name, new) :: rest)
          = putAll ((key, value) :: put name new start) rest := by simp [putAll, put, hname]
      have hlookup : ((name, new) :: rest).lookup key = rest.lookup key := by
        rw [List.lookup_cons, beq_false_of_ne hname]
      rw [hput, ih h.2, hlookup]
      simp [erase, putAll, Ne.symm hname]

lemma erase_of_not_mem {key : String} (h : key ∉ keys pairs) : erase key pairs = pairs :=
  List.filter_eq_self.2 fun pair hpair => by
    simpa using fun heq : pair.1 = key => h (heq ▸ List.mem_map_of_mem hpair)

/-! ## Keys that are stored -/

lemma mem_keys_put {key name : String} {value : β} :
    name ∈ keys (put key value pairs) ↔ name = key ∨ name ∈ keys pairs := by
  rw [keys_put]
  split
  case isTrue hmem => exact (or_iff_right_of_imp fun heq => heq ▸ hmem).symm
  case isFalse => simp [or_comm]

lemma mem_keys_putAll {start : List (String × β)} {name : String} :
    name ∈ keys (putAll start pairs) ↔ name ∈ keys start ∨ name ∈ keys pairs := by
  induction pairs generalizing start with
  | nil => simp [putAll]
  | cons pair rest ih =>
    have hstep : putAll start (pair :: rest) = putAll (put pair.1 pair.2 start) rest := rfl
    rw [hstep, ih, mem_keys_put, keys_cons, List.mem_cons, or_left_comm, or_assoc]

/-! ## Pairs found by a test -/

/-- A test that only the given key passes finds what looking the key up finds. -/
lemma find?_eq_lookup (test : String → Bool) {key : String}
    (h : ∀ pair ∈ pairs, test pair.1 = (key == pair.1)) :
    (pairs.find? fun pair => test pair.1).map Prod.snd = pairs.lookup key := by
  induction pairs with
  | nil => rfl
  | cons pair rest ih =>
    rw [List.find?_cons, List.lookup_cons, h pair List.mem_cons_self]
    cases key == pair.1 with
    | true => rfl
    | false => exact ih fun other hother => h other (List.mem_cons_of_mem pair hother)

end Pairs

namespace OrderedMap

/-! ## Pairs stored one after the other -/

lemma toList_foldl_insert (m : OrderedMap β) (pairs : List (String × β)) :
    (pairs.foldl (fun m pair => m.insert pair.1 pair.2) m).toList
      = Pairs.putAll m.toList pairs := by
  induction pairs generalizing m with
  | nil => rfl
  | cons pair rest ih => exact ih (m.insert pair.1 pair.2)

/-- Storing the pairs of a map one after the other gives the map. -/
lemma ofList_toList (m : OrderedMap β) : ofList m.toList = m := by
  obtain ⟨pairs, hnodup⟩ := m
  have hnew : (Pairs.keys ([] ++ pairs)).Nodup := hnodup
  simp only [ofList, OrderedMap.mk.injEq]
  exact Pairs.putAll_eq_append hnew

/-- Storing the value that is there changes nothing. -/
lemma insert_of_get? {m : OrderedMap β} {key : String} {value : β} (h : m.get? key = some value) :
    m.insert key value = m := by
  obtain ⟨pairs, hnodup⟩ := m
  simp only [insert, OrderedMap.mk.injEq]
  exact Pairs.put_of_lookup h

lemma mem_keys_insert {m : OrderedMap β} {key name : String} {value : β} :
    name ∈ (m.insert key value).keys ↔ name = key ∨ name ∈ m.keys :=
  Pairs.mem_keys_put

lemma mem_keys_erase {m : OrderedMap β} {key name : String} :
    name ∈ (m.erase key).keys ↔ name ∈ m.keys ∧ name ≠ key := by
  simp [keys_erase]

end OrderedMap
end EntryClaims
