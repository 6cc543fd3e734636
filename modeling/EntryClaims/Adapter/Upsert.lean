/-
# Creating, updating and deleting entries

A payload of claims creates the entry for an id or brings the entry that is there to the
desired state.  Changes are sent one at a time: a rejected one is noted in the report and the
others are still tried.  Names, object classes and the naming attribute are never changed.
-/
import EntryClaims.Adapter.Lookup
import EntryClaims.Entry.Difference

namespace EntryClaims

/-- What bringing an entry to its desired state did. -/
structure Report where
  /-- The entry's name. -/
  dn : String
  /-- The changes that the directory made. -/
  applied : List Change := []
  /-- Why the directory refused the others. -/
  failed : List Error := []
deriving DecidableEq, Repr

namespace Report

/-- Whether every change was made. -/
def isComplete (report : Report) : Bool := report.failed.isEmpty

/-- Whether there was nothing to change. -/
def isUnchanged (report : Report) : Bool := report.applied.isEmpty && report.failed.isEmpty

/-- The report with one more change in front, given the directory's answer to it. -/
def note (report : Report) (change : Change) : Except Error Unit → Report
  | .ok _ => { report with applied := change :: report.applied }
  | .error e =>
    { report with failed := .changeFailed change.target change.kind e.message :: report.failed }

end Report

/-- What became of a payload. -/
inductive Upserted where
  /-- A new entry with the given name. -/
  | created (dn : String)
  /-- An entry that was there. -/
  | updated (report : Report)
deriving DecidableEq, Repr

namespace Adapter

variable {σ : Type}

/-- The attributes of a new entry. -/
def newAttributes (placement : Placement) (id : String) (attributes : Record) : Record :=
  ((attributes.erase dnAttribute).insert placement.rdnAttribute (.single id)).insert
    objectClassAttribute (.multi placement.objectClasses)

/-- Create the entry for an id; the result is its name. -/
def insertEntry (adapter : Adapter σ) (id : String) (attributes : Record) : Task σ String := do
  let session ← (adapter.requireSession : Except Error σ)
  match adapter.options.upsert with
  | none => throw (.missingOption "upsert")
  | some placement =>
    let dn := placement.entryName id adapter.options.baseDn
    Task.perform session (.add dn (newAttributes placement id attributes))
    return dn

/-- The attributes that are never changed. -/
def protectedKeys (options : Options) : List String :=
  [dnAttribute, objectClassAttribute]
    ++ (options.upsert.map fun placement => placement.rdnAttribute).toList

/-- Send the changes one at a time, and report what became of each. -/
def applyEach (session : σ) (dn : String) : List Change → Dialogue σ Report
  | [] => .done { dn }
  | change :: rest =>
    .perform session (.modify dn change) fun answer =>
      (applyEach session dn rest).bind fun report => .done (report.note change answer)

/-- Bring an entry to the desired state. -/
def updateEntry (adapter : Adapter σ) (existing desired : Record) : Task σ Report := do
  let session ← (adapter.requireSession : Except Error σ)
  match Record.dn? existing with
  | none => throw (.operationFailed "existing entry has no distinguished name")
  | some dn =>
    let changes :=
      Record.changes existing desired adapter.synonyms (protectedKeys adapter.options)
    ExceptT.lift (applyEach session dn changes)

/-- Create or update the entry for an id from claims.  A payload that maps to no attribute is
refused before the directory is asked anything. -/
def upsert (adapter : Adapter σ) (id : String) (payload : Document) : Task σ Upserted := do
  let desired := adapter.recordOf payload
  if desired.isEmpty && !payload.isEmpty then
    throw (.lostPayload id)
  else
    match ← adapter.rawFind (some id) none with
    | none => return .created (← adapter.insertEntry id desired)
    | some entry => return .updated (← adapter.updateEntry entry desired)

/-- Delete the entry for an id; `false` when there is no single one. -/
def destroy (adapter : Adapter σ) (id : String) : Task σ Bool := do
  match ← adapter.rawFind (some id) none with
  | none => return false
  | some entry =>
    match Record.dn? entry with
    | none => return false
    | some dn =>
      let session ← (adapter.requireSession : Except Error σ)
      Task.perform session (.delete dn)
      return true

/-- Consume the entry for an id.  A directory does not know of consumed entries, so this
deletes it. -/
def consume (adapter : Adapter σ) (id : String) : Task σ Bool := adapter.destroy id

end Adapter
end EntryClaims
