/-
# Distinguished names

The name of an entry lists its path in the directory tree, the entry itself first, with commas
between the parts.  A comma inside a part is escaped by a backslash.  Names are compared
without regard to the case of ASCII letters.
-/
import EntryClaims.Json.Form
import EntryClaims.Text.Lowercase

namespace EntryClaims

/-- How far a search reaches below its base. -/
inductive Scope where
  /-- Only the base entry. -/
  | base
  /-- The children of the base entry. -/
  | oneLevel
  /-- The base entry and everything below it. -/
  | subtree
deriving DecidableEq, Repr, Inhabited

namespace Scope

/-- The name of a scope. -/
def name : Scope → String
  | .base => "base"
  | .oneLevel => "one"
  | .subtree => "sub"

/-- The scope of a given name. -/
def ofName? : String → Option Scope
  | "base" => some .base
  | "one" => some .oneLevel
  | "sub" => some .subtree
  | _ => none

/-- Read the JSON form: the name. -/
def ofJson? (value : Json) : Option Scope := (Json.variant? value).bind ofName?

/-- The JSON form. -/
def toJson (scope : Scope) : Json := .string scope.name

end Scope

namespace DN

/-! ## Writing names -/

/-- Whether a character always needs a backslash in front of it. -/
def isSpecial (c : Char) : Bool := [',', '+', '"', '\\', '<', '>', ';', '='].contains c

/-- A character of a value; blanks at the border and a number sign at the front are written in
hexadecimal digits, and so is the null character. -/
def escapeChar (isFirst isLast : Bool) (c : Char) : List Char :=
  if isSpecial c then ['\\', c]
  else if c = '\x00' then "\\00".toList
  else if c = ' ' ∧ (isFirst ∨ isLast) then "\\20".toList
  else if c = '#' ∧ isFirst then "\\23".toList
  else [c]

/-- The characters of a value; `isFirst` tells whether they begin it. -/
def escapeFrom : (isFirst : Bool) → List Char → List Char
  | _, [] => []
  | isFirst, c :: cs => escapeChar isFirst cs.isEmpty c ++ escapeFrom false cs

/-- A value as it stands in a name. -/
def escape (value : String) : String := String.ofList (escapeFrom true value.toList)

/-! ## Comparing names -/

/-- Whether two names are equal. -/
def same (left right : String) : Bool := Text.sameIgnoringCase left right

/-- The text after the first comma that has no backslash before it; `escaped` tells whether
the character before the text is a backslash. -/
def afterComma? : (escaped : Bool) → List Char → Option (List Char)
  | _, [] => none
  | escaped, c :: cs => if c = ',' ∧ !escaped then some cs else afterComma? (c = '\\') cs

/-- The name of the parent entry. -/
def parent? (dn : String) : Option String :=
  (afterComma? false dn.toList).map String.ofList

/-- Whether a name ends in the base name as a part of its own, both in lower case. -/
def isBelow (dn base : String) : Bool :=
  (',' :: (Text.lowercase base).toList).isSuffixOf (Text.lowercase dn).toList

/-- Whether a name lies in the scope of a search. -/
def inScope (dn base : String) : Scope → Bool
  | .base => same dn base
  | .oneLevel => (parent? dn).any fun parent => same parent base
  | .subtree => same dn base || isBelow dn base

end DN
end EntryClaims
