/-
# Rules: how one claim is derived from an attribute

A rule names the attribute a claim is read from and what is done to its value on the way.
The attribute is one name or a family of synonyms, of which the first is the root: values
are written to the root, and read from the first synonym that carries data.
-/
import EntryClaims.Entry.Record

namespace EntryClaims

/-- The attribute a rule reads from. -/
inductive Source where
  /-- One attribute. -/
  | one (name : String)
  /-- Synonyms of one logical attribute; the first is the root. -/
  | synonyms (names : List String)
deriving DecidableEq, Repr, Inhabited

namespace Source

/-- All names of the attribute, the root first. -/
def names : Source → List String
  | .one name => [name]
  | .synonyms names => names

/-- The name that values are written to. -/
def root? (source : Source) : Option String := source.names.head?

/-- The first name that carries data in the record. -/
def firstWithData? (source : Source) (record : Record) : Option String :=
  source.names.find? (Record.hasData record)

@[simp] theorem names_one (name : String) : (one name).names = [name] := rfl

@[simp] theorem names_synonyms (names : List String) : (synonyms names).names = names := rfl

theorem hasData_of_firstWithData? {source : Source} {record : Record} {name : String}
    (h : source.firstWithData? record = some name) : Record.hasData record name = true :=
  List.find?_some h

theorem mem_names_of_firstWithData? {source : Source} {record : Record} {name : String}
    (h : source.firstWithData? record = some name) : name ∈ source.names :=
  List.mem_of_find?_eq_some h

end Source

/-- How one claim is derived from an attribute. -/
structure Rule where
  /-- The attribute. -/
  source : Source
  /-- A text put behind the value. -/
  suffix : Option String := none
  /-- Whether the value is put into lower case. -/
  lowercase : Bool := false
  /-- Values that are replaced by others. -/
  replace : Option (OrderedMap String) := none
  /-- The delimiter at which the value is split into an array. -/
  separator : Option String := none
  /-- The names under which the split parts become sub-claims. -/
  assign : Option (List String) := none
  /-- The label of the entries to keep, where entries read `content label`. -/
  label : Option String := none
  /-- Whether the value is JSON text. -/
  json : Bool := false
  /-- Whether the claim is always an array. -/
  array : Bool := false
deriving DecidableEq, Inhabited

namespace Rule

/-- A rule without options. -/
def plain (source : Source) : Rule := { source }

/-- A text option counts only when it is not empty. -/
def nonEmpty? (option : Option String) : Option String := option.filter (!·.isEmpty)

end Rule
end EntryClaims
