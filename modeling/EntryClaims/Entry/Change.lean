/-
# Changes of one attribute

A change adds values to an attribute, replaces all of its values, or deletes some of them.
-/
import EntryClaims.Json.Form

namespace EntryClaims

/-- What a change does with its values. -/
inductive ChangeKind where
  /-- The values are added. -/
  | add
  /-- The values take the place of all others. -/
  | replace
  /-- The values are deleted. -/
  | delete
deriving DecidableEq, Repr, Inhabited

namespace ChangeKind

/-- The name of the kind. -/
def name : ChangeKind → String
  | .add => "add"
  | .replace => "replace"
  | .delete => "delete"

/-- The kind of a given name. -/
def ofName? : String → Option ChangeKind
  | "add" => some .add
  | "replace" => some .replace
  | "delete" => some .delete
  | _ => none

/-- Read the JSON form: the name. -/
def ofJson? (value : Json) : Option ChangeKind := (Json.variant? value).bind ofName?

end ChangeKind

/-- A change of one attribute. -/
structure Change where
  /-- The attribute. -/
  target : String
  /-- What is done. -/
  kind : ChangeKind
  /-- The values that are added, put or deleted. -/
  texts : List String
deriving DecidableEq, Repr, Inhabited

namespace Change

/-- Read the JSON form. -/
def ofJson? (value : Json) : Option Change := do
  match ← Json.slots? ["attribute", "operation", "values"] value with
  | [target, kind, texts] =>
    let target ← Json.required? Json.string? target
    let kind ← Json.required? ChangeKind.ofJson? kind
    let texts ← Json.required? Json.strings? texts
    some { target, kind, texts }
  | _ => none

/-- The JSON form. -/
def toJson (change : Change) : Json :=
  .object [("attribute", .string change.target), ("operation", .string change.kind.name),
    ("values", Json.ofStrings change.texts)]

end Change
end EntryClaims
