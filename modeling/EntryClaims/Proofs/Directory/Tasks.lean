/-
# Running tasks

A task with a directory ends in a result or an error.  What it does is read off step by step:
each step is run where the step before has left the directory, and an error ends the task.
-/
import EntryClaims.Directory.Dialogue
import Mathlib.Tactic.Lemma

namespace EntryClaims

/-! ## Results that may be errors -/

namespace Error

variable {α β : Type} {result : Except Error α} {value : β}

lemma bind_eq_ok_iff {next : α → Except Error β} :
    (result >>= next) = .ok value ↔ ∃ first, result = .ok first ∧ next first = .ok value := by
  cases result with
  | error error => exact iff_of_false (fun h => nomatch h) (fun ⟨_, h, _⟩ => nomatch h)
  | ok first => exact ⟨fun h => ⟨first, rfl, h⟩, fun ⟨_, h, hnext⟩ => by cases h; exact hnext⟩

lemma map_eq_ok_iff {f : α → β} :
    result.map f = .ok value ↔ ∃ first, result = .ok first ∧ f first = value := by
  cases result with
  | error error => exact iff_of_false (fun h => nomatch h) (fun ⟨_, h, _⟩ => nomatch h)
  | ok first => simp [Except.map]

end Error

/-! ## Tasks -/

namespace Task

variable {σ α β S : Type} (directory : Directory σ S)

/-- How a task with a directory ends, and the directory's state afterwards. -/
def outcome (task : Task σ α) (state : S) : Except Error α × S :=
  Dialogue.run directory (ExceptT.run task) state

/-- What a directory is asked during a task, in order. -/
def asked (task : Task σ α) (state : S) : List Event :=
  Dialogue.events directory (ExceptT.run task) state

@[simp] lemma outcome_pure (result : α) (state : S) :
    outcome directory (pure result : Task σ α) state = (.ok result, state) := rfl

@[simp] lemma asked_pure (result : α) (state : S) :
    asked directory (pure result : Task σ α) state = [] := rfl

@[simp] lemma outcome_throw (error : Error) (state : S) :
    outcome directory (throw error : Task σ α) state = (.error error, state) := rfl

@[simp] lemma asked_throw (error : Error) (state : S) :
    asked directory (throw error : Task σ α) state = [] := rfl

@[simp] lemma outcome_lift (result : Except Error α) (state : S) :
    outcome directory (liftM result : Task σ α) state = (result, state) := by
  cases result <;> rfl

@[simp] lemma asked_lift (result : Except Error α) (state : S) :
    asked directory (liftM result : Task σ α) state = [] := by
  cases result <;> rfl

@[simp] lemma outcome_perform (session : σ) (operation : Operation) (state : S) :
    outcome directory (perform session operation) state
      = directory.perform session operation state := rfl

@[simp] lemma asked_perform (session : σ) (operation : Operation) (state : S) :
    asked directory (perform session operation) state
      = [.perform operation (accepted (directory.perform session operation state).1)] := rfl

@[simp] lemma outcome_authenticate (request : BindRequest) (state : S) :
    outcome directory (authenticate request) state = directory.authenticate request state := rfl

@[simp] lemma asked_authenticate (request : BindRequest) (state : S) :
    asked directory (authenticate request) state
      = [.authenticate request (accepted (directory.authenticate request state).1)] := rfl

lemma outcome_adapt (f : Error → Error) (task : Task σ α) (state : S) :
    outcome directory (ExceptT.adapt f task) state
      = ((outcome directory task state).1.mapError f, (outcome directory task state).2) :=
  Dialogue.run_bind directory (ExceptT.run task) _ state

lemma asked_adapt (f : Error → Error) (task : Task σ α) (state : S) :
    asked directory (ExceptT.adapt f task) state = asked directory task state :=
  (Dialogue.events_bind directory (ExceptT.run task) _ state).trans (List.append_nil _)

/-! ### One step after the other -/

lemma outcome_bind (first : Task σ α) (next : α → Task σ β) (state : S) :
    outcome directory (first >>= next) state
      = match outcome directory first state with
        | (.ok result, after) => outcome directory (next result) after
        | (.error error, after) => (.error error, after) := by
  show Dialogue.run directory (Dialogue.bind (ExceptT.run first) (ExceptT.bindCont next)) state = _
  rw [Dialogue.run_bind]
  rcases hfirst : Dialogue.run directory (ExceptT.run first) state with ⟨result | result, after⟩
  · simp only [outcome, hfirst]
    rfl
  · simp only [outcome, hfirst]
    rfl

lemma asked_bind (first : Task σ α) (next : α → Task σ β) (state : S) :
    asked directory (first >>= next) state
      = asked directory first state ++
          match outcome directory first state with
          | (.ok result, after) => asked directory (next result) after
          | (.error _, _) => [] := by
  show Dialogue.events directory (Dialogue.bind (ExceptT.run first) (ExceptT.bindCont next)) state
    = _
  rw [Dialogue.events_bind]
  rcases hfirst : Dialogue.run directory (ExceptT.run first) state with ⟨result | result, after⟩
  · simp only [outcome, asked, hfirst]
    rfl
  · simp only [outcome, asked, hfirst]
    rfl

end Task

/-! ## What sessions are asked for -/

/-- The operation that a session was asked for. -/
def Event.operation? : Event → Option Operation
  | .authenticate _ _ => none
  | .perform operation _ => some operation

namespace Task

variable {σ α β S : Type} (directory : Directory σ S)

/-- The operations that a task asks sessions for, in order. -/
def operations (task : Task σ α) (state : S) : List Operation :=
  (asked directory task state).filterMap Event.operation?

@[simp] lemma operations_pure (result : α) (state : S) :
    operations directory (pure result : Task σ α) state = [] := rfl

@[simp] lemma operations_throw (error : Error) (state : S) :
    operations directory (throw error : Task σ α) state = [] := rfl

@[simp] lemma operations_perform (session : σ) (operation : Operation) (state : S) :
    operations directory (perform session operation) state = [operation] := rfl

lemma operations_bind (first : Task σ α) (next : α → Task σ β) (state : S) :
    operations directory (first >>= next) state
      = operations directory first state ++
          match outcome directory first state with
          | (.ok result, after) => operations directory (next result) after
          | (.error _, _) => [] := by
  rw [operations, asked_bind, List.filterMap_append]
  rcases outcome directory first state with ⟨result | result, after⟩ <;> rfl

/-- Turning the result into another one asks for nothing. -/
lemma operations_bind_pure (first : Task σ α) (f : α → β) (state : S) :
    operations directory (first >>= fun result => pure (f result)) state
      = operations directory first state := by
  rw [operations_bind]
  rcases outcome directory first state with ⟨result | result, after⟩ <;> simp

end Task
end EntryClaims
