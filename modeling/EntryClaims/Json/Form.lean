/-
# JSON forms of structures

A structure is written as an object with one field per component.  It may also be given as
the array of its components in declaration order, the optional ones at the end left off.
In both forms the same rules hold for one component: it is required, or has a default, or
may be left out or null.  Unknown fields of an object are ignored; a known field may not be
repeated, and an array may not be longer than the list of components.
-/
import EntryClaims.Json.Value

namespace EntryClaims
namespace Json

/-- The components given for a structure, one slot for each of its names. -/
abbrev Slots := List (Option Json)

/-- Whether a known name occurs twice among the keys. -/
def repeatsKnown (names keys : List String) : Bool :=
  names.any fun name => decide (2 ≤ keys.count name)

/-- The components of a structure with the given names, in order. -/
def slots? (names : List String) : Json → Option Slots
  | .object fields =>
    if repeatsKnown names (Pairs.keys fields) then none
    else some (names.map fun name => fields.lookup name)
  | .array items =>
    if names.length < items.length then none
    else some (items.map some ++ List.replicate (names.length - items.length) none)
  | _ => none

variable {α : Type}

/-- A component that has to be given. -/
def required? (read? : Json → Option α) : Option Json → Option α
  | none => none
  | some value => read? value

/-- A component that takes a default when it is not given. -/
def defaulted? (default : α) (read? : Json → Option α) : Option Json → Option α
  | none => some default
  | some value => read? value

/-- A component that may be left out or null. -/
def nullable? (read? : Json → Option α) : Option Json → Option (Option α)
  | none | some .null => some none
  | some value => (read? value).map some

/-- The name of a variant without data: a string, or an object whose only field has that name
and the value null. -/
def variant? : Json → Option String
  | .string name => some name
  | .object [(name, .null)] => some name
  | _ => none

/-- An object of strings. -/
def stringFields? (value : Json) : Option (List (String × String)) := do
  let fields ← value.object?
  fields.mapM fun (key, value) => do
    let text ← value.string?
    some (key, text)

/-! ## Writing objects -/

/-- The field of a set component; an unset one is not written. -/
def field? (name : String) (write : α → Json) : Option α → Fields
  | none => []
  | some x => [(name, write x)]

/-- The field of a flag; it is written only when it is set. -/
def flag (name : String) (value : Bool) : Fields := if value then [(name, .bool true)] else []

end Json
end EntryClaims
