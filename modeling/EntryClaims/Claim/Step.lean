/-
# Steps: what the options of a rule do to a value

Each option of a rule has a step from the directory's value to the claim's and, where it can
be undone, a step back.  Values are JSON values: a string for a single-valued attribute, an
array for a multi-valued one, and whatever the earlier steps made of them.  Most steps treat
one string; on an array they treat each string in it, and leave everything else alone.
-/
import EntryClaims.Entry.Value
import EntryClaims.Json.Parser
import EntryClaims.Text.Lowercase
import EntryClaims.Text.Pieces

namespace EntryClaims
namespace Step

/-- Apply `f` to a string. -/
def onString (f : String → Json) : Json → Json
  | .string s => f s
  | value => value

/-- Apply `f` to a string, or to every string in an array. -/
def onStrings (f : String → Json) : Json → Json
  | .array items => .array (items.map (onString f))
  | value => onString f value

/-- The text of a value: a string as it is, anything else as JSON text. -/
def text : Json → String
  | .string s => s
  | value => value.render

/-! ## Replacing values -/

/-- Put a value for each string the table lists. -/
def replace (table : OrderedMap String) : Json → Json :=
  onStrings fun s => .string ((table.get? s).getD s)

/-- The first key that the table maps to `s`. -/
def keyOf? (table : OrderedMap String) (s : String) : Option String :=
  (table.toList.find? fun (_, value) => value == s).map Prod.fst

/-- Put the key for each string the table maps to. -/
def unreplace (table : OrderedMap String) : Json → Json :=
  onStrings fun s => .string ((keyOf? table s).getD s)

/-! ## Splitting and joining -/

/-- Split a string at the delimiter.  In an array every string becomes an array. -/
def split (separator : String) : Json → Json :=
  onStrings fun s => Json.ofStrings (Text.split separator s)

mutual

/-- Join an array with the delimiter.  A non-empty array of arrays is joined item by item; in
any other array the items are joined to one string, nulls left out. -/
def join? (separator : String) : Json → Option Json
  | .string s => some (.string s)
  | .array items =>
    if !items.isEmpty && items.all Json.isArray then
      some (.array (joinEach separator items))
    else some (.string (separator.intercalate (joinTexts separator items)))
  | _ => none

/-- The items joined one by one; those that cannot be joined are left out. -/
def joinEach (separator : String) : List Json → List Json
  | [] => []
  | item :: rest => (join? separator item).toList ++ joinEach separator rest

/-- The texts of the items, nulls left out and arrays joined. -/
def joinTexts (separator : String) : List Json → List String
  | [] => []
  | .null :: rest => joinTexts separator rest
  | .array nested :: rest =>
    ((join? separator (.array nested)).map text).getD "" :: joinTexts separator rest
  | item :: rest => text item :: joinTexts separator rest

end

/-! ## Assigning parts to names -/

/-- The part that goes to the name at `position` of `count` names.  Parts and names are
matched from the end; with more parts than names the first name takes all leading ones. -/
def partAt? (items : List Json) (count position : Nat) : Option Json :=
  if position = 0 ∧ count < items.length then
    some (.array (items.take (items.length - count + 1)))
  else if items.length + position < count then none
  else items[items.length + position - count]?

/-- The names with their parts; a name whose part is missing or null is left out. -/
def assigned (items : List Json) (names : List String) : Json.Fields :=
  Pairs.putAll [] <| names.zipIdx.filterMap fun (name, position) =>
    ((partAt? items names.length position).bind Json.present?).map fun part => (name, part)

/-- Assign the items of an array to the names, which gives an object. -/
def assign (names : List String) : Json → Json
  | .array items => if names.isEmpty then .array items else .object (assigned items names)
  | value => value

/-- The values under the names in their order; an array under a name gives its items. -/
def positional (names : List String) (fields : Json.Fields) : List Json :=
  names.flatMap fun name =>
    match fields.lookup name with
    | none | some .null => []
    | some (.array items) => items
    | some value => [value]

/-- Undo `assign` on an object, or on every object in an array. -/
def unassign (names : List String) : Json → Json
  | .object fields => .array (positional names fields)
  | .array items =>
    .array <| items.map fun item =>
      match item with
      | .object fields => .array (positional names fields)
      | other => other
  | value => value

/-! ## JSON text -/

/-- Read a string as JSON text; other values are kept. -/
def parseString? : Json → Option Json
  | .string s => Json.parse? s
  | value => some value

/-- Read a string, or every string in an array, as JSON text.  One malformed string spoils the
whole value. -/
def parse? : Json → Option Json
  | .string s => Json.parse? s
  | .array items => (items.mapM parseString?).map .array
  | _ => none

/-- Write a value, or every item of an array, as JSON text. -/
def serialize? : Json → Option Json
  | .null => none
  | .array items => some (.array (items.map fun item => .string item.render))
  | value => some (.string value.render)

/-! ## Labels -/

/-- The content of an entry that carries the label.  A string reads `content label`, an object
holds the content under the label, and an array holds the content and the label. -/
def labelled? (label : String) : Json → Option Json
  | .string s => do
    let (content, tag) ← Text.cutOnce ' ' s.toList
    if tag = label.toList then some (.string (String.ofList content)) else none
  | .object fields => (fields.lookup label).bind Json.present?
  | .array (content :: .string tag :: _) => if tag = label then some content else none
  | _ => none

/-- One content as it is, several as an array. -/
def gather? : List Json → Option Json
  | [] => none
  | [content] => some content
  | contents => some (.array contents)

/-- Keep only what carries the label. -/
def selectLabel? (label : String) : Json → Option Json
  | .array items => gather? (items.filterMap (labelled? label))
  | value => labelled? label value

/-- A value with the label behind it. -/
def withLabel (label : String) (value : Json) : Json := .string (text value ++ " " ++ label)

/-- Put the label behind every value, nulls left out. -/
def attachLabel? (label : String) : Json → Option Json
  | .null => none
  | .array items => gather? ((items.filter (!·.isNull)).map (withLabel label))
  | value => some (withLabel label value)

/-! ## Case and suffix -/

/-- Put every string into lower case. -/
def lowercase : Json → Json := onStrings fun s => .string (Text.lowercase s)

/-- Put the suffix behind every string. -/
def appendSuffix (suffix : String) : Json → Json := onStrings fun s => .string (s ++ suffix)

/-- Remove the suffix from every string, wherever it occurs in it. -/
def stripSuffix (suffix : String) : Json → Json :=
  onStrings fun s => .string (String.ofList (Text.remove suffix.toList s.toList))

/-- A one-item array, unless the value is an array already. -/
def toArray (value : Json) : Json := if value.isArray then value else .array [value]

end Step
end EntryClaims
