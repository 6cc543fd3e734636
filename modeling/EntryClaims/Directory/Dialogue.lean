/-
# Dialogues with a directory

What an adapter does is a dialogue: it asks the directory for one thing after another, each
question depending on the answers so far, and ends in a result.  A dialogue says nothing about
the directory that answers; it can be run against any, and runs against the same one can be
interleaved question by question.
-/
import EntryClaims.Directory.Credentials
import EntryClaims.Directory.Name
import EntryClaims.Entry.Record

namespace EntryClaims

/-! ## Operations of a session -/

/-- What a session can be asked to do. -/
inductive Operation where
  /-- Find the entries in scope that match a filter. -/
  | search (base filter : String) (scope : Scope)
  /-- Create an entry. -/
  | add (dn : String) (attributes : Record)
  /-- Change one attribute of an entry. -/
  | modify (dn : String) (change : Change)
  /-- Delete an entry. -/
  | delete (dn : String)
deriving DecidableEq

/-- What a successful operation answers: a search the entries found, the others nothing. -/
def Operation.Result : Operation → Type
  | .search .. => List Record
  | .add .. => Unit
  | .modify .. => Unit
  | .delete .. => Unit

/-! ## Dialogues -/

variable {σ α β γ : Type}

/-- A dialogue that ends in an `α`.  The sessions it opens and uses are of type `σ`. -/
inductive Dialogue (σ α : Type) where
  /-- The dialogue is over. -/
  | done (result : α)
  /-- Open a session. -/
  | authenticate (request : BindRequest) (next : Except Error σ → Dialogue σ α)
  /-- Ask a session for an operation. -/
  | perform (session : σ) (operation : Operation)
      (next : Except Error operation.Result → Dialogue σ α)

namespace Dialogue

/-- Continue a dialogue with another one that depends on its result. -/
def bind : Dialogue σ α → (α → Dialogue σ β) → Dialogue σ β
  | .done result, f => f result
  | .authenticate request next, f => .authenticate request fun answer => (next answer).bind f
  | .perform session operation next, f =>
    .perform session operation fun answer => (next answer).bind f

instance : Monad (Dialogue σ) where
  pure := .done
  bind := bind

theorem bind_done (x : Dialogue σ α) : x.bind .done = x := by
  induction x with
  | done result => rfl
  | authenticate request next ih => simp [bind, ih]
  | perform session operation next ih => simp [bind, ih]

theorem bind_assoc (x : Dialogue σ α) (f : α → Dialogue σ β) (g : β → Dialogue σ γ) :
    (x.bind f).bind g = x.bind fun result => (f result).bind g := by
  induction x with
  | done result => rfl
  | authenticate request next ih => simp [bind, ih]
  | perform session operation next ih => simp [bind, ih]

instance : LawfulMonad (Dialogue σ) :=
  LawfulMonad.mk' (Dialogue σ) bind_done (fun _ _ => rfl) bind_assoc

end Dialogue

/-- A dialogue that ends in an `α` or in an error. -/
abbrev Task (σ α : Type) := ExceptT Error (Dialogue σ) α

namespace Task

/-- Open a session. -/
def authenticate (request : BindRequest) : Task σ σ :=
  ExceptT.mk (.authenticate request .done)

/-- Ask a session for an operation. -/
def perform (session : σ) (operation : Operation) : Task σ operation.Result :=
  ExceptT.mk (.perform session operation .done)

end Task

/-! ## Running a dialogue -/

/-- A directory that answers, with a state of type `S`. -/
structure Directory (σ S : Type) where
  /-- Open a session. -/
  authenticate : BindRequest → S → Except Error σ × S
  /-- Perform an operation. -/
  perform : σ → (operation : Operation) → S → Except Error operation.Result × S

/-- What a directory was asked, and whether it agreed. -/
inductive Event where
  /-- A session was asked for. -/
  | authenticate (request : BindRequest) (accepted : Bool)
  /-- An operation was asked for. -/
  | perform (operation : Operation) (accepted : Bool)
deriving DecidableEq

/-- Whether an answer is no error. -/
def accepted : Except Error α → Bool
  | .ok _ => true
  | .error _ => false

namespace Dialogue

variable {S : Type}

/-- The result of a dialogue with a directory, and the directory's state afterwards. -/
def run (directory : Directory σ S) : Dialogue σ α → S → α × S
  | .done result, state => (result, state)
  | .authenticate request next, state =>
    let (answer, state) := directory.authenticate request state
    run directory (next answer) state
  | .perform session operation next, state =>
    let (answer, state) := directory.perform session operation state
    run directory (next answer) state

/-- What a directory is asked during a dialogue, in order. -/
def events (directory : Directory σ S) : Dialogue σ α → S → List Event
  | .done _, _ => []
  | .authenticate request next, state =>
    let (answer, state) := directory.authenticate request state
    .authenticate request (accepted answer) :: events directory (next answer) state
  | .perform session operation next, state =>
    let (answer, state) := directory.perform session operation state
    .perform operation (accepted answer) :: events directory (next answer) state

@[simp] theorem run_done (directory : Directory σ S) (result : α) (state : S) :
    run directory (.done result) state = (result, state) := rfl

theorem run_bind (directory : Directory σ S) (x : Dialogue σ α) (f : α → Dialogue σ β)
    (state : S) :
    run directory (x.bind f) state
      = run directory (f (run directory x state).1) (run directory x state).2 := by
  induction x generalizing state with
  | done result => rfl
  | authenticate request next ih => exact ih _ _
  | perform session operation next ih => exact ih _ _

theorem events_bind (directory : Directory σ S) (x : Dialogue σ α) (f : α → Dialogue σ β)
    (state : S) :
    events directory (x.bind f) state
      = events directory x state
        ++ events directory (f (run directory x state).1) (run directory x state).2 := by
  induction x generalizing state with
  | done result => rfl
  | authenticate request next ih => exact congrArg (List.cons _) (ih _ _)
  | perform session operation next ih => exact congrArg (List.cons _) (ih _ _)

end Dialogue
end EntryClaims
