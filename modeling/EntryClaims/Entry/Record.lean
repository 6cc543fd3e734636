/-
# Attribute records

A record is a flat set of directory attributes in insertion order.  A record that came from
a search carries the name of its entry under `dn`.
-/
import EntryClaims.Entry.Value

namespace EntryClaims

/-- A set of directory attributes, in insertion order. -/
abbrev Record := OrderedMap AttributeValue

/-- The key that holds an entry's distinguished name. -/
def dnAttribute : String := "dn"

/-- The attribute that holds an entry's object classes. -/
def objectClassAttribute : String := "objectClass"

namespace Record

/-- The string of a single-valued attribute. -/
def single? (record : Record) (name : String) : Option String :=
  (record.get? name).bind AttributeValue.single?

/-- Whether the attribute is there and carries data. -/
def hasData (record : Record) (name : String) : Bool :=
  (record.get? name).any AttributeValue.hasData

/-- The name of the entry the record came from. -/
def dn? (record : Record) : Option String := single? record dnAttribute

/-- Read the JSON form: an object of attribute values. -/
def ofJson? (value : Json) : Option Record := do
  let fields ← value.object?
  let pairs ← fields.mapM fun (name, value) => do
    let value ← AttributeValue.ofJson? value
    some (name, value)
  some (OrderedMap.ofList pairs)

/-- The JSON form. -/
def toJson (record : Record) : Json :=
  .object (record.toList.map fun (name, value) => (name, value.toClaim))

end Record
end EntryClaims
