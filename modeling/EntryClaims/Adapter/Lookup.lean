/-
# Adapters and how they look entries up

An adapter shows the entries of a directory as claims.  It holds its options, a mapping, the
credentials known so far and, once bound, a session.  Binding and deriving give a new adapter
and leave the old one as it is.
-/
import EntryClaims.Adapter.Options
import EntryClaims.Claim.Mapping
import EntryClaims.Directory.Dialogue

namespace EntryClaims

/-- An adapter with sessions of type `σ`. -/
structure Adapter (σ : Type) where
  /-- Where entries live and how they are found. -/
  options : Options
  /-- How entries are shown as claims; without any claim they are shown attribute by
  attribute. -/
  mapping : Mapping := OrderedMap.empty
  /-- The credentials known so far. -/
  credentials : Credentials := {}
  /-- The session, once there is one. -/
  session : Option σ := none

namespace Adapter

variable {σ : Type}

/-- An adapter without session and with an empty mapping. -/
def create (options : Options) : Except Error (Adapter σ) :=
  options.validate.map fun _ => { options }

/-- The adapter with another mapping. -/
def withMapping (adapter : Adapter σ) (mapping : Mapping) : Except Error (Adapter σ) :=
  (Mapping.validate mapping).map fun _ => { adapter with mapping }

/-- The adapter with another base. -/
def withBase (adapter : Adapter σ) (baseDn : String) : Except Error (Adapter σ) :=
  let options := { adapter.options with baseDn }
  options.validate.map fun _ => { adapter with options }

/-- The adapter with another base or another mapping, where one is given. -/
def derive (adapter : Adapter σ) (baseDn : Option String) (mapping : Option Mapping) :
    Except Error (Adapter σ) := do
  let derived ←
    match baseDn with
    | none => .ok adapter
    | some baseDn => adapter.withBase baseDn
  match mapping with
  | none => .ok derived
  | some mapping => derived.withMapping mapping

/-- Whether the adapter holds a session. -/
def isBound (adapter : Adapter σ) : Bool := adapter.session.isSome

/-- The synonym families of the mapping. -/
def synonyms (adapter : Adapter σ) : SynonymTable := Mapping.synonyms adapter.mapping

/-- The session. -/
def requireSession (adapter : Adapter σ) : Except Error σ :=
  match adapter.session with
  | none => .error .notConnected
  | some session => .ok session

/-! ## Searching -/

/-- The filter that every entry matches. -/
def matchAll : String := "(objectClass=*)"

/-- The text of a filter; one that says nothing asks for every entry. -/
def filterText (filter : Filter) : String :=
  let text := filter.render
  if text.isEmpty then matchAll else text

/-- The entries in scope that match a filter. -/
def search (adapter : Adapter σ) (filter : Filter) (base : String) (scope : Scope) :
    Task σ (List Record) := do
  let session ← (adapter.requireSession : Except Error σ)
  Task.perform session (.search base (filterText filter) scope)

/-- The filter of a lookup: the object class, the attribute to look for with its value, and
the extra filter of the options. -/
def lookupFilter (options : Options) (key : Option (String × String)) : Filter :=
  Filter.all <|
    [.literal (objectClassAttribute ++ "=" ++ options.objectClass)]
      ++ (key.map fun (name, value) => Filter.equality name value).toList
      ++ (options.filter.filter (!·.isEmpty)).toList

/-- The only one of the entries. -/
def single? : List Record → Option Record
  | [entry] => some entry
  | _ => none

/-- The entry with the given id, or without id the base entry; none unless exactly one entry
matches. -/
def rawFind (adapter : Adapter σ) (id : Option String) (scope : Option Scope) :
    Task σ (Option Record) := do
  let options := adapter.options
  let (filter, scope) :=
    match id with
    | some id => (lookupFilter options (some (options.idAttribute, id)), scope.getD options.scope)
    | none => (lookupFilter options none, .base)
  let entries ← adapter.search filter options.baseDn scope
  return single? entries

/-- The claims that an entry shows. -/
def claimsOf (adapter : Adapter σ) (entry : Record) : Document :=
  if adapter.mapping.isEmpty then Document.ofRecord entry
  else Mapping.claimsOf adapter.mapping entry adapter.options.forcedArrays

/-- The record that stores the claims. -/
def recordOf (adapter : Adapter σ) (payload : Document) : Record :=
  if adapter.mapping.isEmpty then payload.toRecord
  else Mapping.recordOf adapter.mapping payload

/-- The claims of the entry with the given id. -/
def find (adapter : Adapter σ) (id : String) : Task σ (Option Document) := do
  let entry ← adapter.rawFind (some id) none
  return entry.map adapter.claimsOf

end Adapter
end EntryClaims
