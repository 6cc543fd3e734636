/-
# Making a change

What a change does to the attributes of an entry: added values go behind those that are there,
a replacement takes their place, and a deletion removes the listed values, or all of them when
none is listed.  An attribute without values is gone, and one with a single value holds it as
a single string.
-/
import EntryClaims.Entry.Change
import EntryClaims.Entry.Record
import EntryClaims.Entry.ValueSet

namespace EntryClaims
namespace Change

/-- The values after the change, given those before. -/
def after (change : Change) (current : List String) : List String :=
  match change.kind with
  | .add => ValueSet.addAll current change.texts
  | .replace => change.texts
  | .delete => if change.texts.isEmpty then [] else current.filter (· ∉ change.texts)

end Change

namespace Record

/-- The values of an attribute; none when it is not there. -/
def textsOf (record : Record) (name : String) : List String :=
  ((record.get? name).map AttributeValue.texts).getD []

/-- The record with the values of one attribute stored. -/
def store (record : Record) (name : String) : List String → Record
  | [] => record.erase name
  | [text] => record.insert name (.single text)
  | texts => record.insert name (.multi texts)

/-- The record after a change. -/
def apply (record : Record) (change : Change) : Record :=
  store record change.target (change.after (textsOf record change.target))

end Record
end EntryClaims
