/-
# Synonym families

Several attribute names may stand for one logical attribute.  The first of them is the root,
under which values are written; an existing entry may hold the value under any synonym, and
the table of families tells under which one.
-/
import EntryClaims.Entry.Record

namespace EntryClaims

/-- Families of synonyms under their roots. -/
abbrev SynonymTable := OrderedMap (List String)

namespace SynonymTable

/-- Add a family under its first name.  A family of fewer than two names says nothing, and a
later family with the same root replaces an earlier one. -/
def register (table : SynonymTable) : List String → SynonymTable
  | root :: second :: rest => table.insert root (root :: second :: rest)
  | _ => table

/-- The name under which an entry stores the value for `key`: the first synonym the entry has,
or else `key` itself. -/
def resolve (table : SynonymTable) (key : String) (entry : Record) : String :=
  (((table.get? key).getD []).find? entry.contains).getD key

/-- Read the JSON form: an object of arrays of names. -/
def ofJson? (value : Json) : Option SynonymTable := do
  let fields ← value.object?
  let pairs ← fields.mapM fun (root, value) => do
    let family ← value.strings?
    some (root, family)
  some (OrderedMap.ofList pairs)

/-- The JSON form. -/
def toJson (table : SynonymTable) : Json :=
  .object (table.toList.map fun (root, family) => (root, Json.ofStrings family))

end SynonymTable

end EntryClaims
