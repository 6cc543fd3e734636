/-
# Where a synonym family is stored

The name under which an entry stores the value for a key is one of the names for that key: the
key itself or a member of its family.  It depends only on which of these names the entry has,
and in a table whose families start with their roots it is the key as soon as the entry has
the key.
-/
import EntryClaims.Entry.Synonyms
import EntryClaims.Proofs.Entry.Texts
import Mathlib.Data.List.Find

namespace EntryClaims

namespace SynonymTable

variable {table : SynonymTable} {key : String} {entry other : Record}

/-- The names that a value for `key` may be stored under: the key and its family. -/
def namesFor (table : SynonymTable) (key : String) : List String :=
  key :: (table.get? key).getD []

/-- Every family starts with its root. -/
def Rooted (table : SynonymTable) : Prop :=
  ∀ pair ∈ table.toList, pair.2.head? = some pair.1

instance (table : SynonymTable) : Decidable (Rooted table) :=
  inferInstanceAs (Decidable (∀ pair ∈ table.toList, pair.2.head? = some pair.1))

lemma Rooted.head?_eq (h : Rooted table) {root : String} {family : List String}
    (hget : table.get? root = some family) : family.head? = some root :=
  h (root, family) (OrderedMap.get?_eq_some_iff.1 hget)

/-- The names for two different keys never overlap. -/
def Apart (table : SynonymTable) (keys : List String) : Prop :=
  ∀ key ∈ keys, ∀ other ∈ keys, key ≠ other →
    ∀ name ∈ namesFor table key, name ∉ namesFor table other

instance (table : SynonymTable) (keys : List String) : Decidable (Apart table keys) :=
  inferInstanceAs (Decidable (∀ key ∈ keys, ∀ other ∈ keys, key ≠ other →
    ∀ name ∈ namesFor table key, name ∉ namesFor table other))

lemma key_mem_namesFor (table : SynonymTable) (key : String) : key ∈ namesFor table key :=
  List.mem_cons_self

lemma resolve_mem_namesFor (table : SynonymTable) (key : String) (entry : Record) :
    resolve table key entry ∈ namesFor table key := by
  rw [resolve]
  cases hfind : ((table.get? key).getD []).find? entry.contains with
  | none => exact key_mem_namesFor table key
  | some name => exact List.mem_cons_of_mem _ (List.mem_of_find?_eq_some hfind)

/-- Entries that have the same names for a key store its value under the same name. -/
lemma resolve_congr
    (h : ∀ name ∈ namesFor table key, entry.contains name = other.contains name) :
    resolve table key entry = resolve table key other := by
  rw [resolve, resolve, List.find?_congr fun name hname => h name (List.mem_cons_of_mem _ hname)]

lemma resolve_congr_get? (h : ∀ name ∈ namesFor table key, entry.get? name = other.get? name) :
    resolve table key entry = resolve table key other :=
  resolve_congr fun name hmem => by rw [OrderedMap.contains, OrderedMap.contains, h name hmem]

/-- An entry that has the root stores the value under the root. -/
lemma Rooted.resolve_of_contains (h : Rooted table) (hkey : entry.contains key = true) :
    resolve table key entry = key := by
  rw [resolve]
  cases hget : table.get? key with
  | none => rfl
  | some family =>
    cases family with
    | nil => simp
    | cons root rest =>
      have hroot : root = key := by simpa using h.head?_eq hget
      simp [hroot, hkey]

/-- An entry that lacks the name which the value is looked up under would store it under the
key. -/
lemma resolve_eq_of_not_contains (h : entry.contains (resolve table key entry) = false) :
    resolve table key entry = key := by
  rw [resolve] at h ⊢
  cases hfind : ((table.get? key).getD []).find? entry.contains with
  | none => rfl
  | some name =>
    have hname := List.find?_some hfind
    rw [hfind, Option.getD_some, hname] at h
    exact absurd h (by simp)

end SynonymTable
end EntryClaims
