/-
# Values without repetition

The values of a multi-valued attribute form a set, written in the order in which its members
came.  A value that is already there is not added again.
-/

namespace EntryClaims
namespace ValueSet

/-- Put a value at the end, unless it is there. -/
def add (values : List String) (value : String) : List String :=
  if value ∈ values then values else values ++ [value]

/-- Put the values of `extra` at the end one after the other, those that are there left out. -/
def addAll (values extra : List String) : List String := extra.foldl add values

/-- The values of `left` that are not in `right`, each once, in the order of `left`. -/
def difference (left right : List String) : List String :=
  addAll [] (left.filter (· ∉ right))

theorem mem_add {values : List String} {value other : String} :
    other ∈ add values value ↔ other ∈ values ∨ other = value := by
  unfold add
  split
  · next h =>
    constructor
    · exact Or.inl
    · rintro (h' | rfl)
      · exact h'
      · exact h
  · simp

theorem mem_addAll {values extra : List String} {other : String} :
    other ∈ addAll values extra ↔ other ∈ values ∨ other ∈ extra := by
  induction extra generalizing values with
  | nil => simp [addAll]
  | cons value rest ih =>
    have step : addAll values (value :: rest) = addAll (add values value) rest := rfl
    rw [step, ih, mem_add, List.mem_cons, or_assoc]

theorem nodup_add {values : List String} (h : values.Nodup) (value : String) :
    (add values value).Nodup := by
  unfold add
  split
  · exact h
  · next hm =>
    rw [List.nodup_append]
    refine ⟨h, by simp, ?_⟩
    intro a ha b hb
    simp only [List.mem_singleton] at hb
    subst hb
    intro e
    exact hm (e ▸ ha)

theorem nodup_addAll {values : List String} (h : values.Nodup) (extra : List String) :
    (addAll values extra).Nodup := by
  induction extra generalizing values with
  | nil => exact h
  | cons value rest ih => exact ih (nodup_add h value)

@[simp] theorem mem_difference {left right : List String} {value : String} :
    value ∈ difference left right ↔ value ∈ left ∧ value ∉ right := by
  simp [difference, mem_addAll]

theorem nodup_difference (left right : List String) : (difference left right).Nodup :=
  nodup_addAll List.nodup_nil _

end ValueSet
end EntryClaims
