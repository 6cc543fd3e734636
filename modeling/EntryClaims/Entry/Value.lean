/-
# Attribute values

An attribute of a directory entry holds one string or a list of strings.  The two shapes are
kept apart, because claims show them differently: one string becomes a JSON string, a list
becomes an array.
-/
import EntryClaims.Json.Printer

namespace EntryClaims

/-- The value of a directory attribute. -/
inductive AttributeValue where
  /-- One string. -/
  | single (text : String)
  /-- Several strings, in the directory's order. -/
  | multi (texts : List String)
deriving DecidableEq, Repr, Inhabited

namespace AttributeValue

/-- Whether the value carries data: the empty string and the empty list do not. -/
def hasData : AttributeValue → Bool
  | .single text => !text.isEmpty
  | .multi texts => !texts.isEmpty

/-- The string of a single value. -/
def single? : AttributeValue → Option String
  | .single text => some text
  | .multi _ => none

/-- Whether the value is a list. -/
def isMulti : AttributeValue → Bool
  | .single _ => false
  | .multi _ => true

/-- All strings of the value. -/
def texts : AttributeValue → List String
  | .single text => [text]
  | .multi texts => texts

/-- The claim that shows the value. -/
def toClaim : AttributeValue → Json
  | .single text => .string text
  | .multi texts => Json.ofStrings texts

/-- The text of a claim that is neither null nor an array.  Numbers and truth values are
written out, objects as JSON text. -/
def claimText (claim : Json) : String :=
  match claim with
  | .string text => text
  | other => other.render

mutual

/-- The texts that a claim contributes to a list: an array contributes those of its items, at
any depth, null contributes none, and every other claim its own text. -/
def leaves : Json → List String
  | .null => []
  | .array items => leavesOfAll items
  | claim => [claimText claim]

/-- The texts that the claims contribute one after the other. -/
def leavesOfAll : List Json → List String
  | [] => []
  | claim :: rest => leaves claim ++ leavesOfAll rest

end

/-- The value that stores a claim.  An array becomes the list of the texts in it; null and an
array without any text have no value. -/
def ofClaim? : Json → Option AttributeValue
  | .null => none
  | .array items =>
    match leavesOfAll items with
    | [] => none
    | texts => some (.multi texts)
  | claim => some (.single (claimText claim))

/-- Read the JSON form: a string or an array of strings. -/
def ofJson? : Json → Option AttributeValue
  | .string text => some (.single text)
  | value => value.strings?.map .multi

@[simp] theorem texts_single (text : String) : (single text).texts = [text] := rfl

@[simp] theorem texts_multi (texts : List String) : (multi texts).texts = texts := rfl

end AttributeValue
end EntryClaims
