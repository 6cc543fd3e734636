/-
# Maps that remember insertion order

A directory entry, a claim object and a mapping are all finite maps whose keys keep the
order in which they were first stored.  Storing under a key that is already there replaces
the value and leaves the key where it is; removing a key leaves the order of the rest.

The first section treats plain lists of pairs, which is how JSON objects hold their fields;
the second wraps such a list with the fact that no key occurs twice.
-/

namespace EntryClaims

universe u v

/-! ## Lists of pairs -/

namespace Pairs

variable {β : Type u} {γ : Type v}

/-- The keys in order. -/
def keys (pairs : List (String × β)) : List String := pairs.map Prod.fst

/-- Store `value` under `key`: in place when the key is there, else at the end. -/
def put (key : String) (value : β) : List (String × β) → List (String × β)
  | [] => [(key, value)]
  | (k, v) :: rest => if k = key then (k, value) :: rest else (k, v) :: put key value rest

/-- Remove `key` and its value. -/
def erase (key : String) (pairs : List (String × β)) : List (String × β) :=
  pairs.filter fun pair => pair.1 != key

/-- Store the pairs one after the other into `start`. -/
def putAll (start pairs : List (String × β)) : List (String × β) :=
  pairs.foldl (fun stored (key, value) => put key value stored) start

@[simp] theorem keys_nil : keys ([] : List (String × β)) = [] := rfl

@[simp] theorem keys_cons (pair : String × β) (rest : List (String × β)) :
    keys (pair :: rest) = pair.1 :: keys rest := rfl

theorem keys_put (key : String) (value : β) (pairs : List (String × β)) :
    keys (put key value pairs)
      = if key ∈ keys pairs then keys pairs else keys pairs ++ [key] := by
  induction pairs with
  | nil => simp [put]
  | cons pair rest ih =>
    obtain ⟨k, v⟩ := pair
    by_cases h : k = key
    · simp [put, h]
    · have h' : ¬ key = k := fun e => h e.symm
      by_cases hm : key ∈ keys rest <;> simp [put, h, h', hm, ih]

theorem nodup_keys_put {pairs : List (String × β)} (h : (keys pairs).Nodup)
    (key : String) (value : β) : (keys (put key value pairs)).Nodup := by
  rw [keys_put]
  split
  · exact h
  · next hm =>
    rw [List.nodup_append]
    refine ⟨h, by simp, ?_⟩
    intro a ha b hb
    simp only [List.mem_singleton] at hb
    subst hb
    intro e
    exact hm (e ▸ ha)

theorem nodup_keys_putAll {start : List (String × β)} (h : (keys start).Nodup)
    (pairs : List (String × β)) : (keys (putAll start pairs)).Nodup := by
  induction pairs generalizing start with
  | nil => exact h
  | cons pair rest ih => exact ih (nodup_keys_put h pair.1 pair.2)

theorem keys_erase (key : String) (pairs : List (String × β)) :
    keys (erase key pairs) = (keys pairs).filter (· != key) := by
  simp [keys, erase, List.filter_map, Function.comp_def]

theorem nodup_keys_erase {pairs : List (String × β)} (h : (keys pairs).Nodup)
    (key : String) : (keys (erase key pairs)).Nodup := by
  rw [keys_erase]
  exact h.filter _

theorem lookup_put_self (key : String) (value : β) (pairs : List (String × β)) :
    (put key value pairs).lookup key = some value := by
  induction pairs with
  | nil => simp [put]
  | cons pair rest ih =>
    obtain ⟨k, v⟩ := pair
    by_cases h : k = key
    · simp [put, h]
    · have h' : (key == k) = false := by simpa using Ne.symm h
      simp [put, h, List.lookup_cons, h', ih]

theorem lookup_put_of_ne {key other : String} (h : other ≠ key) (value : β)
    (pairs : List (String × β)) : (put key value pairs).lookup other = pairs.lookup other := by
  induction pairs with
  | nil =>
    have h' : (other == key) = false := by simp [h]
    simp [put, List.lookup_cons, h']
  | cons pair rest ih =>
    obtain ⟨k, v⟩ := pair
    by_cases hk : k = key
    · have h' : (other == key) = false := by simp [h]
      simp [put, hk, List.lookup_cons, h']
    · by_cases ho : other = k
      · simp [put, hk, ho]
      · have h' : (other == k) = false := by simp [ho]
        simp [put, hk, List.lookup_cons, h', ih]

/-- Of two values stored under a key the later one stays. -/
theorem put_put (key : String) (value other : β) (pairs : List (String × β)) :
    put key value (put key other pairs) = put key value pairs := by
  induction pairs with
  | nil => simp [put]
  | cons pair rest ih =>
    obtain ⟨k, v⟩ := pair
    by_cases h : k = key
    · simp [put, h]
    · simp [put, h, ih]

/-- Storing the value that is there changes nothing. -/
theorem put_of_lookup {key : String} {value : β} {pairs : List (String × β)}
    (h : pairs.lookup key = some value) : put key value pairs = pairs := by
  induction pairs with
  | nil => simp at h
  | cons pair rest ih =>
    obtain ⟨k, v⟩ := pair
    by_cases hk : k = key
    · subst hk
      rw [List.lookup_cons, beq_self_eq_true, Option.some.injEq] at h
      simp [put, h]
    · have h' : (key == k) = false := by simpa using Ne.symm hk
      rw [List.lookup_cons, h'] at h
      simp [put, hk, ih h]

theorem lookup_erase_self (key : String) (pairs : List (String × β)) :
    (erase key pairs).lookup key = none := by
  rw [List.lookup_eq_none_iff]
  intro pair hpair
  have hne : pair.1 ≠ key := by simpa [erase] using (List.mem_filter.1 hpair).2
  simpa using Ne.symm hne

theorem lookup_erase_of_ne {key other : String} (h : other ≠ key) (pairs : List (String × β)) :
    (erase key pairs).lookup other = pairs.lookup other := by
  induction pairs with
  | nil => rfl
  | cons pair rest ih =>
    obtain ⟨k, v⟩ := pair
    by_cases hk : k = key
    · have h' : (other == k) = false := by simpa [hk] using h
      have skip : erase key ((k, v) :: rest) = erase key rest := by simp [erase, hk]
      rw [skip, ih, List.lookup_cons, h']
    · have keep : erase key ((k, v) :: rest) = (k, v) :: erase key rest := by simp [erase, hk]
      rw [keep, List.lookup_cons, List.lookup_cons, ih]

theorem mem_keys_iff_lookup {key : String} {pairs : List (String × β)} :
    key ∈ keys pairs ↔ (pairs.lookup key).isSome := by
  induction pairs with
  | nil => simp
  | cons pair rest ih =>
    obtain ⟨k, v⟩ := pair
    by_cases hk : key = k
    · simp [hk]
    · have h' : (key == k) = false := by simpa using hk
      simp [hk, List.lookup_cons, h', ih]

/-- Where no key occurs twice, looking a key up finds the only pair with that key. -/
theorem lookup_eq_some_iff {key : String} {value : β} {pairs : List (String × β)}
    (h : (keys pairs).Nodup) : pairs.lookup key = some value ↔ (key, value) ∈ pairs := by
  induction pairs with
  | nil => simp
  | cons pair rest ih =>
    obtain ⟨k, v⟩ := pair
    rw [keys_cons, List.nodup_cons] at h
    by_cases hk : key = k
    · subst hk
      have hnot : (key, value) ∉ rest := fun hm => h.1 (List.mem_map.2 ⟨_, hm, rfl⟩)
      simp [hnot, eq_comm]
    · have h' : (key == k) = false := by simpa using hk
      simp [List.lookup_cons, h', hk, ih h.2]

theorem put_of_not_mem {key : String} {pairs : List (String × β)} (h : key ∉ keys pairs)
    (value : β) : put key value pairs = pairs ++ [(key, value)] := by
  induction pairs with
  | nil => rfl
  | cons pair rest ih =>
    obtain ⟨k, v⟩ := pair
    rw [keys_cons, List.mem_cons, not_or] at h
    simp [put, Ne.symm h.1, ih h.2]

/-- Storing pairs with new keys puts them behind what is there. -/
theorem putAll_eq_append {start pairs : List (String × β)} (h : (keys (start ++ pairs)).Nodup) :
    putAll start pairs = start ++ pairs := by
  induction pairs generalizing start with
  | nil => simp [putAll]
  | cons pair rest ih =>
    obtain ⟨k, v⟩ := pair
    have hk : k ∉ keys start := by
      simp only [keys, List.map_append, List.nodup_append] at h
      exact fun hm => h.2.2 k hm k (by simp) rfl
    have step : putAll start ((k, v) :: rest) = putAll (put k v start) rest := rfl
    rw [step, put_of_not_mem hk, ih (by simpa using h)]
    simp

end Pairs

/-! ## Maps -/

/-- A finite map from strings that remembers the order in which its keys were stored. -/
structure OrderedMap (β : Type u) where
  /-- The keys with their values, in order. -/
  toList : List (String × β) := []
  /-- No key occurs twice. -/
  nodup_keys : (Pairs.keys toList).Nodup := by simp
deriving DecidableEq

namespace OrderedMap

variable {β : Type u} {γ : Type v}

/-- The map without any key. -/
def empty : OrderedMap β := {}

instance : Inhabited (OrderedMap β) := ⟨empty⟩

/-- The keys in order. -/
def keys (m : OrderedMap β) : List String := Pairs.keys m.toList

/-- The value stored under `key`. -/
def get? (m : OrderedMap β) (key : String) : Option β := m.toList.lookup key

/-- Whether `key` is stored, with whatever value. -/
def contains (m : OrderedMap β) (key : String) : Bool := (m.get? key).isSome

/-- The number of keys. -/
def size (m : OrderedMap β) : Nat := m.toList.length

/-- Whether no key is stored. -/
def isEmpty (m : OrderedMap β) : Bool := m.toList.isEmpty

/-- Store `value` under `key`; a key that is there keeps its place. -/
def insert (m : OrderedMap β) (key : String) (value : β) : OrderedMap β :=
  ⟨Pairs.put key value m.toList, Pairs.nodup_keys_put m.nodup_keys key value⟩

/-- Remove `key`; the others keep their order. -/
def erase (m : OrderedMap β) (key : String) : OrderedMap β :=
  ⟨Pairs.erase key m.toList, Pairs.nodup_keys_erase m.nodup_keys key⟩

/-- The map holding the pairs, stored one after the other. -/
def ofList (pairs : List (String × β)) : OrderedMap β :=
  ⟨Pairs.putAll [] pairs, Pairs.nodup_keys_putAll (by simp) pairs⟩

/-- Whether two maps hold the same pairs, in whatever order. -/
def sameAs [DecidableEq β] (m m' : OrderedMap β) : Bool :=
  m.size == m'.size && m.toList.all fun (key, value) => m'.get? key == some value

@[simp] theorem get?_insert_self (m : OrderedMap β) (key : String) (value : β) :
    (m.insert key value).get? key = some value :=
  Pairs.lookup_put_self key value m.toList

theorem get?_insert_of_ne {key other : String} (h : other ≠ key) (m : OrderedMap β)
    (value : β) : (m.insert key value).get? other = m.get? other :=
  Pairs.lookup_put_of_ne h value m.toList

@[simp] theorem get?_empty (key : String) : (empty : OrderedMap β).get? key = none := rfl

@[simp] theorem get?_erase_self (m : OrderedMap β) (key : String) :
    (m.erase key).get? key = none :=
  Pairs.lookup_erase_self key m.toList

theorem get?_erase_of_ne {key other : String} (h : other ≠ key) (m : OrderedMap β) :
    (m.erase key).get? other = m.get? other :=
  Pairs.lookup_erase_of_ne h m.toList

theorem get?_eq_some_iff {m : OrderedMap β} {key : String} {value : β} :
    m.get? key = some value ↔ (key, value) ∈ m.toList :=
  Pairs.lookup_eq_some_iff m.nodup_keys

theorem mem_keys_iff {m : OrderedMap β} {key : String} : key ∈ m.keys ↔ (m.get? key).isSome :=
  Pairs.mem_keys_iff_lookup

theorem mem_keys_of_mem {m : OrderedMap β} {pair : String × β} (h : pair ∈ m.toList) :
    pair.1 ∈ m.keys :=
  List.mem_map_of_mem h

theorem keys_insert (m : OrderedMap β) (key : String) (value : β) :
    (m.insert key value).keys = if key ∈ m.keys then m.keys else m.keys ++ [key] :=
  Pairs.keys_put key value m.toList

theorem keys_erase (m : OrderedMap β) (key : String) :
    (m.erase key).keys = m.keys.filter (· != key) :=
  Pairs.keys_erase key m.toList

end OrderedMap
end EntryClaims
