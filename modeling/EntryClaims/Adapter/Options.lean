/-
# Options of an adapter

Where entries live, how they are identified, and how new ones are created.
-/
import EntryClaims.Directory.Error
import EntryClaims.Directory.Name
import EntryClaims.Filter.Tree

namespace EntryClaims

/-- How new entries are placed and typed. -/
structure Placement where
  /-- The attribute that forms the relative name; it is set to the entry's id. -/
  rdnAttribute : String
  /-- The container between the relative name and the base. -/
  container : Option String := none
  /-- The object classes of new entries. -/
  objectClasses : List String
deriving DecidableEq, Repr, Inhabited

namespace Placement

/-- The name of a new entry. -/
def entryName (placement : Placement) (id base : String) : String :=
  let rdn := placement.rdnAttribute ++ "=" ++ DN.escape id
  match placement.container.filter (!·.isEmpty) with
  | some container => rdn ++ "," ++ container ++ "," ++ base
  | none => rdn ++ "," ++ base

/-- The first thing that is wrong. -/
def problem? (placement : Placement) : Option Error :=
  if placement.rdnAttribute.isEmpty then some (.missingOption "upsert.rdn_attribute")
  else if placement.objectClasses.isEmpty then some (.missingOption "upsert.object_classes")
  else none

/-- Read the JSON form. -/
def ofJson? (value : Json) : Option Placement := do
  match ← Json.slots? ["rdn_attribute", "container", "object_classes"] value with
  | [rdnAttribute, container, objectClasses] =>
    let rdnAttribute ← Json.required? Json.string? rdnAttribute
    let container ← Json.nullable? Json.string? container
    let objectClasses ← Json.required? Json.strings? objectClasses
    some { rdnAttribute, container, objectClasses }
  | _ => none

/-- The JSON form. -/
def toJson (placement : Placement) : Json :=
  .object <|
    [("rdn_attribute", .string placement.rdnAttribute)]
      ++ Json.field? "container" .string placement.container
      ++ [("object_classes", Json.ofStrings placement.objectClasses)]

end Placement

/-- Where entries live and how they are found. -/
structure Options where
  /-- The name that lookups start from. -/
  baseDn : String
  /-- The object class that lookups ask for. -/
  objectClass : String := "*"
  /-- How far lookups by id reach. -/
  scope : Scope := .subtree
  /-- The attribute that holds an entry's id. -/
  idAttribute : String
  /-- The attribute that holds an entry's login name; without it entries cannot bind. -/
  bindAttribute : Option String := none
  /-- A filter that all lookups carry in addition. -/
  filter : Option Filter := none
  /-- How new entries are created; without it there are none. -/
  upsert : Option Placement := none
  /-- Claims that always are arrays. -/
  forcedArrays : List String := []
deriving Repr, Inhabited

namespace Options

/-- The first thing that is wrong. -/
def problem? (options : Options) : Option Error :=
  if options.baseDn.isEmpty then some (.missingOption "base_dn")
  else if options.idAttribute.isEmpty then some (.missingOption "id_attribute")
  else if options.objectClass.isEmpty then
    some (.invalidConfiguration "object_class must not be empty")
  else options.upsert.bind Placement.problem?

/-- Check that everything needed is set. -/
def validate (options : Options) : Except Error Unit :=
  match options.problem? with
  | none => .ok ()
  | some problem => .error problem

/-- The components in declaration order. -/
def componentNames : List String :=
  ["base_dn", "object_class", "scope", "id_attribute", "bind_attribute", "filter", "upsert",
    "force_array_claims"]

/-- Read the JSON form. -/
def ofJson? (value : Json) : Option Options := do
  match ← Json.slots? componentNames value with
  | [baseDn, objectClass, scope, idAttribute, bindAttribute, filter, upsert, forcedArrays] =>
    let baseDn ← Json.required? Json.string? baseDn
    let objectClass ← Json.defaulted? "*" Json.string? objectClass
    let scope ← Json.defaulted? .subtree Scope.ofJson? scope
    let idAttribute ← Json.required? Json.string? idAttribute
    let bindAttribute ← Json.nullable? Json.string? bindAttribute
    let filter ← Json.nullable? Filter.ofJson? filter
    let upsert ← Json.nullable? Placement.ofJson? upsert
    let forcedArrays ← Json.defaulted? [] Json.strings? forcedArrays
    some {
      baseDn, objectClass, scope, idAttribute, bindAttribute, filter, upsert, forcedArrays }
  | _ => none

/-- The JSON form; unset options are left out. -/
def toJson (options : Options) : Json :=
  .object <|
    [("base_dn", .string options.baseDn), ("object_class", .string options.objectClass),
      ("scope", options.scope.toJson), ("id_attribute", .string options.idAttribute)]
      ++ Json.field? "bind_attribute" .string options.bindAttribute
      ++ Json.field? "filter" Filter.toJson options.filter
      ++ Json.field? "upsert" Placement.toJson options.upsert
      ++ (if options.forcedArrays.isEmpty then []
          else [("force_array_claims", Json.ofStrings options.forcedArrays)])

end Options
end EntryClaims
