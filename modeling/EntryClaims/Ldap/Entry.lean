/-
# Entries as an LDAP server sends and takes them

A server sends the attributes of an entry in any order, each with a set of values in any
order.  The record of such an entry has the name first and the attributes after it, sorted by
name; an attribute without values is left out and one with a single value holds one string.
In the other direction a record becomes a list of attributes with value sets, in which the
name and attributes without data do not appear.
-/
import EntryClaims.Entry.Record
import EntryClaims.Entry.ValueSet

namespace EntryClaims
namespace Ldap

/-- Put strings into ascending order; the order of their bytes is the order of their code
points. -/
def sorted (texts : List String) : List String := texts.mergeSort fun a b => decide (a ≤ b)

/-- The members of a value set, each once and in ascending order. -/
def valueSet (texts : List String) : List String := sorted (ValueSet.addAll [] texts)

theorem perm_valueSet (texts : List String) : (valueSet texts).Perm (ValueSet.addAll [] texts) :=
  List.mergeSort_perm _ _

theorem mem_valueSet {texts : List String} {text : String} :
    text ∈ valueSet texts ↔ text ∈ texts := by
  rw [(perm_valueSet texts).mem_iff, ValueSet.mem_addAll]
  simp

theorem nodup_valueSet (texts : List String) : (valueSet texts).Nodup :=
  (perm_valueSet texts).nodup_iff.2 (ValueSet.nodup_addAll List.nodup_nil texts)

/-! ## Entries received -/

/-- An entry as it is received: its name and those of its attributes whose values are texts. -/
structure FoundEntry where
  /-- The entry's name. -/
  dn : String
  /-- The attributes with their values; no attribute occurs twice. -/
  attributes : OrderedMap (List String)
deriving DecidableEq

/-- The value that holds the given strings; none when there is none. -/
def valueOf? : List String → Option AttributeValue
  | [] => none
  | [text] => some (.single text)
  | texts => some (.multi texts)

/-- The record with one more attribute. -/
def storeFound (record : Record) (found : String × List String) : Record :=
  match valueOf? found.2 with
  | none => record
  | some value => record.insert found.1 value

/-- The record of a received entry. -/
def FoundEntry.toRecord (entry : FoundEntry) : Record :=
  (entry.attributes.toList.mergeSort fun a b => decide (a.1 ≤ b.1)).foldl storeFound
    (OrderedMap.empty.insert dnAttribute (.single entry.dn))

/-! ## Entries sent -/

/-- The attributes of a record as they are sent. -/
def attributesOf (record : Record) : List (String × List String) :=
  (record.toList.filter fun (name, value) => name != dnAttribute && value.hasData).map
    fun (name, value) => (name, valueSet value.texts)

end Ldap
end EntryClaims
