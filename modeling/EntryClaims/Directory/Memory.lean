/-
# A directory in memory

The entries are a list of records, each with its name under `dn`.  A session needs no state of
its own.  Some attributes can be set to refuse every change, which stands for the constraints
of a real directory.
-/
import EntryClaims.Directory.Dialogue
import EntryClaims.Entry.Apply
import EntryClaims.Filter.Matching

namespace EntryClaims

/-- The content of a directory in memory. -/
structure Memory where
  /-- The entries in the order in which they were stored. -/
  entries : List Record := []
  /-- The passwords, under the names in lower case. -/
  passwords : OrderedMap String := OrderedMap.empty
  /-- The attributes that refuse every change. -/
  refused : List String := []
deriving DecidableEq

namespace Memory

/-- The name of an entry; an entry without one has the empty name. -/
def nameOf (entry : Record) : String := (Record.dn? entry).getD ""

/-- Whether the entry has the given name. -/
def isNamed (dn : String) (entry : Record) : Bool := DN.same (nameOf entry) dn

/-- The first entry with the given name. -/
def entry? (memory : Memory) (dn : String) : Option Record := memory.entries.find? (isNamed dn)

/-- Store an entry behind the others. -/
def insert (memory : Memory) (entry : Record) : Memory :=
  { memory with entries := memory.entries ++ [entry] }

/-- Set the password for a name. -/
def setPassword (memory : Memory) (dn password : String) : Memory :=
  { memory with passwords := memory.passwords.insert (Text.lowercase dn) password }

/-- Let an attribute refuse every change. -/
def refuse (memory : Memory) (name : String) : Memory :=
  { memory with refused := memory.refused ++ [name] }

/-! ## Operations -/

/-- The entries in scope that match a filter. -/
def search (memory : Memory) (base filter : String) (scope : Scope) : List Record :=
  memory.entries.filter fun entry =>
    DN.inScope (nameOf entry) base scope && Filter.accepts filter entry

/-- A new entry: its name, and then the attributes other than the name. -/
def newEntry (dn : String) (attributes : Record) : Record :=
  (attributes.toList.filter (·.1 != dnAttribute)).foldl
    (fun entry pair => entry.insert pair.1 pair.2)
    (OrderedMap.empty.insert dnAttribute (.single dn))

/-- Create an entry, unless there is one of that name. -/
def add (memory : Memory) (dn : String) (attributes : Record) : Except Error Memory :=
  match memory.entry? dn with
  | some _ => .error (.entryExists dn)
  | none => .ok (memory.insert (newEntry dn attributes))

/-- Change the first entry with the given name. -/
def changeFirst (dn : String) (change : Change) : List Record → Option (List Record)
  | [] => none
  | entry :: rest =>
    if isNamed dn entry then some (Record.apply entry change :: rest)
    else (changeFirst dn change rest).map (entry :: ·)

/-- Change an entry. -/
def modify (memory : Memory) (dn : String) (change : Change) : Except Error Memory :=
  if memory.refused.contains change.target then .error (.operationFailed "constraint violation")
  else
    match changeFirst dn change memory.entries with
    | none => .error (.entryNotFound dn)
    | some entries => .ok { memory with entries }

/-- Delete every entry with the given name. -/
def delete (memory : Memory) (dn : String) : Except Error Memory :=
  if memory.entries.any (isNamed dn) then
    .ok { memory with entries := memory.entries.filter (!isNamed dn ·) }
  else .error (.entryNotFound dn)

/-- The address that cannot be reached. -/
def unreachableUrl : String := "ldap://unreachable.test"

/-- Check credentials. -/
def authenticate (memory : Memory) (request : BindRequest) : Except Error Unit :=
  if request.url = unreachableUrl then .error (.connectionFailed "connection refused")
  else if memory.passwords.get? (Text.lowercase request.dn) = some request.password then .ok ()
  else .error (.operationFailed "invalid credentials (49)")

/-- The outcome of an operation that changes the directory: a failed one leaves it as it was. -/
def settle (memory : Memory) : Except Error Memory → Except Error Unit × Memory
  | .ok changed => (.ok (), changed)
  | .error e => (.error e, memory)

/-- Perform an operation. -/
def perform (operation : Operation) (memory : Memory) :
    Except Error operation.Result × Memory :=
  match operation with
  | .search base filter scope => (.ok (memory.search base filter scope), memory)
  | .add dn attributes => memory.settle (memory.add dn attributes)
  | .modify dn change => memory.settle (memory.modify dn change)
  | .delete dn => memory.settle (memory.delete dn)

/-- The directory in memory as a partner of dialogues. -/
def directory : Directory Unit Memory where
  authenticate request memory := (memory.authenticate request, memory)
  perform _ operation memory := memory.perform operation

end Memory
end EntryClaims
