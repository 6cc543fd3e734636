/-
# JSON forms of rules and mappings

A mapping is written as an object from claim paths to rules.  A rule is given as a bare
attribute name, as one structure, or as an array of either.  The array is tried first, since a
structure may also be given as the array of its components: a list of names always declares
several rules, never one.
-/
import EntryClaims.Claim.Mapping
import EntryClaims.Json.Form

namespace EntryClaims

namespace Source

/-- Read the JSON form: a name or an array of names. -/
def ofJson? : Json → Option Source
  | .string name => some (.one name)
  | value => value.strings?.map .synonyms

/-- The JSON form. -/
def toJson : Source → Json
  | .one name => .string name
  | .synonyms names => Json.ofStrings names

end Source

namespace Rule

/-- The components of a rule in declaration order. -/
def componentNames : List String :=
  ["attribute", "suffix", "lowercase", "replace", "separator", "assign", "label", "json", "array"]

/-- Read a table of replacements. -/
def tableOfJson? (value : Json) : Option (OrderedMap String) :=
  (Json.stringFields? value).map OrderedMap.ofList

/-- The JSON form of a table of replacements. -/
def tableToJson (table : OrderedMap String) : Json :=
  .object (table.toList.map fun (key, value) => (key, .string value))

/-- Read the JSON form of a structure. -/
def ofJson? (value : Json) : Option Rule := do
  match ← Json.slots? componentNames value with
  | [source, suffix, lowercase, replace, separator, assign, label, json, array] =>
    let source ← Json.required? Source.ofJson? source
    let suffix ← Json.nullable? Json.string? suffix
    let lowercase ← Json.defaulted? false Json.bool? lowercase
    let replace ← Json.nullable? tableOfJson? replace
    let separator ← Json.nullable? Json.string? separator
    let assign ← Json.nullable? Json.strings? assign
    let label ← Json.nullable? Json.string? label
    let json ← Json.defaulted? false Json.bool? json
    let array ← Json.defaulted? false Json.bool? array
    some { source, suffix, lowercase, replace, separator, assign, label, json, array }
  | _ => none

/-- The JSON form; unset components are left out. -/
def toJson (rule : Rule) : Json :=
  .object <|
    [("attribute", rule.source.toJson)]
      ++ Json.field? "suffix" .string rule.suffix
      ++ Json.flag "lowercase" rule.lowercase
      ++ Json.field? "replace" tableToJson rule.replace
      ++ Json.field? "separator" .string rule.separator
      ++ Json.field? "assign" Json.ofStrings rule.assign
      ++ Json.field? "label" .string rule.label
      ++ Json.flag "json" rule.json
      ++ Json.flag "array" rule.array

/-- Read a rule given by a bare attribute name or as a structure. -/
def ofNameOrJson? : Json → Option Rule
  | .string name => some (plain (.one name))
  | value => ofJson? value

/-- Read the rules of one claim: an array of rules, or else one rule. -/
def listOfJson? (value : Json) : Option (List Rule) :=
  (value.array?.bind fun items => items.mapM ofNameOrJson?).or
    ((ofNameOrJson? value).map fun rule => [rule])

end Rule

namespace Mapping

/-- Read the JSON form.  A repeated claim keeps its first place and takes its last rules. -/
def ofJson? (value : Json) : Option Mapping := do
  let fields ← value.object?
  let pairs ← fields.mapM fun (claim, value) => do
    let rules ← Rule.listOfJson? value
    some (claim, rules)
  some (OrderedMap.ofList pairs)

/-- The JSON form; every claim has an array of structures. -/
def toJson (mapping : Mapping) : Json :=
  .object (mapping.toList.map fun (claim, rules) => (claim, .array (rules.map Rule.toJson)))

/-- Read JSON text.  Repeated keys are seen here: a structure may not repeat a component. -/
def parse (text : String) : Except Error Mapping :=
  match (Json.parseFields? text).bind ofJson? with
  | some mapping => .ok mapping
  | none => .error (.malformed "no mapping")

end Mapping
end EntryClaims
