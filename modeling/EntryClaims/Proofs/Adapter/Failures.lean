/-
# Tasks that fail

A task of an adapter that ends in an error has left the directory in memory as it was.  Nothing is
taken back for this.  Searches and authentications change nothing, and an operation that is
refused changes nothing; so a task may go on to other questions as long as it has only looked, and
may ask for one thing more, with which it ends.  Bringing an entry to a desired state asks for
several changes, but it never fails once the first of them is sent: refused changes are reported.
-/
import EntryClaims.Proofs.Adapter.Binding
import EntryClaims.Proofs.Adapter.Commands

namespace EntryClaims

open EntryClaims.Task (outcome asked)

namespace Task

variable {σ α β S : Type}

/-! ## Looking and failing -/

/-- Whatever its result, the task leaves the directory as it was. -/
def Looks (directory : Directory σ S) (task : Task σ α) : Prop :=
  ∀ state, (outcome directory task state).2 = state

/-- A task that ends in an error leaves the directory as it was, and the error has the
property. -/
def FailsSafely (directory : Directory σ S) (p : Error → Prop) (task : Task σ α) : Prop :=
  ∀ state error after, outcome directory task state = (.error error, after) →
    after = state ∧ p error

section Steps

variable {directory : Directory σ S} {p q : Error → Prop}

lemma looks_lift (result : Except Error α) : Looks directory (liftM result : Task σ α) :=
  fun state => by rw [outcome_lift]

lemma Looks.bind {first : Task σ α} {next : α → Task σ β} (hfirst : Looks directory first)
    (hnext : ∀ result, Looks directory (next result)) : Looks directory (first >>= next) := by
  intro state
  have hstate := hfirst state
  rw [outcome_bind]
  rcases hrun : outcome directory first state with ⟨error | result, after⟩
  · rw [hrun] at hstate
    exact hstate
  · rw [hrun] at hstate
    exact (hnext result after).trans hstate

lemma Looks.adapt {task : Task σ α} (h : Looks directory task) (f : Error → Error) :
    Looks directory (ExceptT.adapt f task) := fun state => by
  rw [outcome_adapt]
  exact h state

lemma failsSafely_pure (result : α) : FailsSafely directory p (pure result : Task σ α) :=
  fun _ _ _ h => nomatch h

lemma failsSafely_throw {error : Error} (h : p error) :
    FailsSafely directory p (throw error : Task σ α) := by
  intro state error' after hfails
  cases hfails
  exact ⟨rfl, h⟩

lemma failsSafely_lift {result : Except Error α} (h : ∀ error, result = .error error → p error) :
    FailsSafely directory p (liftM result : Task σ α) := by
  intro state error after hfails
  rw [outcome_lift, Prod.mk.injEq] at hfails
  exact ⟨hfails.2.symm, h error hfails.1⟩

/-- A dialogue that is no task of its own ends in no error. -/
lemma failsSafely_exceptLift (dialogue : Dialogue σ α) :
    FailsSafely directory p (ExceptT.lift dialogue : Task σ α) := by
  intro state error after hfails
  have hrun : outcome directory (ExceptT.lift dialogue : Task σ α) state
      = (.ok (dialogue.run directory state).1, (dialogue.run directory state).2) :=
    Dialogue.run_bind directory dialogue (fun result => .done (Except.ok result)) state
  cases hrun.symm.trans hfails

lemma FailsSafely.mono {task : Task σ α} (h : FailsSafely directory p task)
    (hpq : ∀ error, p error → q error) : FailsSafely directory q task :=
  fun state error after hfails =>
    ⟨(h state error after hfails).1, hpq error (h state error after hfails).2⟩

/-- A task that only looks may be followed by a task that fails safely. -/
lemma FailsSafely.bind {first : Task σ α} {next : α → Task σ β}
    (hfirst : FailsSafely directory p first) (hlooks : Looks directory first)
    (hnext : ∀ result, FailsSafely directory p (next result)) :
    FailsSafely directory p (first >>= next) := by
  intro state error after hfails
  have hstate := hlooks state
  rw [outcome_bind] at hfails
  rcases hrun : outcome directory first state with ⟨error' | result, between⟩
  · rw [hrun] at hfails
    cases hfails
    exact hfirst state error after hrun
  · rw [hrun] at hfails hstate
    obtain rfl : between = state := hstate
    exact hnext result between error after hfails

/-- What a task that fails safely results in may be turned into something else. -/
lemma FailsSafely.bind_pure {first : Task σ α} (h : FailsSafely directory p first) (f : α → β) :
    FailsSafely directory p (first >>= fun result => pure (f result)) := by
  intro state error after hfails
  rw [outcome_bind] at hfails
  rcases hrun : outcome directory first state with ⟨error' | result, between⟩
  · rw [hrun] at hfails
    cases hfails
    exact h state error after hrun
  · rw [hrun] at hfails
    cases hfails

end Steps

end Task

open EntryClaims.Task (Looks FailsSafely looks_lift failsSafely_pure failsSafely_throw
  failsSafely_lift failsSafely_exceptLift)

/-- Whether an error says something other than that a payload was lost. -/
def Error.KeepsPayload (error : Error) : Prop := ∀ id, error ≠ .lostPayload id

namespace Memory

/-! ## The directory in memory -/

/-- A refused operation leaves the directory as it was. -/
lemma perform_eq_error {operation : Operation} {memory after : Memory} {error : Error}
    (h : perform operation memory = (.error error, after)) :
    after = memory ∧ error.KeepsPayload := by
  cases operation with
  | search base filter scope => cases h
  | add dn attributes =>
    rw [perform, add] at h
    cases hentry : memory.entry? dn with
    | none =>
      rw [hentry] at h
      cases h
    | some entry =>
      rw [hentry] at h
      cases h
      exact ⟨rfl, fun id => by simp⟩
  | modify dn change =>
    rw [perform, modify] at h
    split at h
    · cases h
      exact ⟨rfl, fun id => by simp⟩
    · cases hentries : changeFirst dn change memory.entries with
      | none =>
        rw [hentries] at h
        cases h
        exact ⟨rfl, fun id => by simp⟩
      | some entries =>
        rw [hentries] at h
        cases h
  | delete dn =>
    rw [perform, delete] at h
    split at h
    · cases h
    · cases h
      exact ⟨rfl, fun id => by simp⟩

lemma failsSafely_perform (session : Unit) (operation : Operation) :
    FailsSafely directory Error.KeepsPayload (Task.perform session operation) :=
  fun _ _ _ hfails => perform_eq_error hfails

lemma looks_authenticate (request : BindRequest) :
    Looks directory (Task.authenticate request) := fun _ => rfl

/-- A task that ends in an error has left the directory in memory as it was. -/
def Spares {α : Type} (task : Task Unit α) : Prop :=
  ∀ memory error after, outcome directory task memory = (.error error, after) → after = memory

lemma spares_of_failsSafely {α : Type} {p : Error → Prop} {task : Task Unit α}
    (h : FailsSafely directory p task) : Spares task :=
  fun memory error after hfails => (h memory error after hfails).1

end Memory

namespace Adapter

variable {adapter : Adapter Unit} {id : String}

/-! ## The tasks of an adapter -/

lemma requireSession_eq_error {error : Error} (h : adapter.requireSession = .error error) :
    error.KeepsPayload := by
  rw [requireSession] at h
  cases hsession : adapter.session with
  | none =>
    rw [hsession] at h
    cases h
    exact fun id => by simp
  | some session =>
    rw [hsession] at h
    cases h

/-- A session is needed, and what comes next fails safely. -/
lemma failsSafely_session {α : Type} {next : Unit → Task Unit α}
    (h : ∀ session, FailsSafely Memory.directory Error.KeepsPayload (next session)) :
    FailsSafely Memory.directory Error.KeepsPayload
      ((adapter.requireSession : Except Error Unit) >>= next : Task Unit α) :=
  (failsSafely_lift fun _ => requireSession_eq_error).bind (looks_lift _) h

lemma looks_search (filter : Filter) (base : String) (scope : Scope) :
    Looks Memory.directory (adapter.search filter base scope) :=
  (looks_lift _).bind fun _ _ => rfl

lemma failsSafely_search (filter : Filter) (base : String) (scope : Scope) :
    FailsSafely Memory.directory Error.KeepsPayload (adapter.search filter base scope) :=
  failsSafely_session fun session => Memory.failsSafely_perform session _

lemma failsSafely_rawFind (id : Option String) (scope : Option Scope) :
    FailsSafely Memory.directory Error.KeepsPayload (adapter.rawFind id scope) := by
  cases id with
  | none => exact (failsSafely_search _ _ _).bind_pure single?
  | some id => exact (failsSafely_search _ _ _).bind_pure single?

lemma failsSafely_find (id : String) :
    FailsSafely Memory.directory Error.KeepsPayload (adapter.find id) :=
  (failsSafely_rawFind (some id) none).bind_pure fun entry => entry.map adapter.claimsOf

lemma failsSafely_bind (overrides : Option Credentials) :
    FailsSafely Memory.directory (fun _ => True) (adapter.bind overrides) := by
  refine (failsSafely_lift fun _ _ => trivial).bind (looks_lift _) fun request => ?_
  refine FailsSafely.bind_pure (fun memory error after hfails => ⟨?_, trivial⟩) _
  have hstate := (Memory.looks_authenticate request).adapt rejection memory
  rw [hfails] at hstate
  exact hstate

lemma failsSafely_findAndBind (id password : String) :
    FailsSafely Memory.directory (fun _ => True) (adapter.findAndBind id password) := by
  rw [findAndBind]
  cases adapter.options.bindAttribute with
  | none => exact failsSafely_throw trivial
  | some bindAttribute =>
    refine ((failsSafely_search _ _ _).mono fun _ _ => trivial).bind (looks_search _ _ _)
      fun entries => ?_
    refine (failsSafely_lift fun _ _ => trivial).bind (looks_lift _) fun dn => ?_
    refine (failsSafely_lift fun _ _ => trivial).bind (looks_lift _) fun derived => ?_
    exact failsSafely_bind _

lemma failsSafely_insertEntry (id : String) (attributes : Record) :
    FailsSafely Memory.directory Error.KeepsPayload (adapter.insertEntry id attributes) := by
  refine failsSafely_session fun session => ?_
  cases adapter.options.upsert with
  | none => exact failsSafely_throw fun id => by simp
  | some placement => exact (Memory.failsSafely_perform session _).bind_pure fun _ => _

/-- Refused changes are reported, so that nothing fails once changes are sent. -/
lemma failsSafely_updateEntry (existing desired : Record) :
    FailsSafely Memory.directory Error.KeepsPayload (adapter.updateEntry existing desired) := by
  refine failsSafely_session fun session => ?_
  cases Record.dn? existing with
  | none => exact failsSafely_throw fun id => by simp
  | some dn => exact failsSafely_exceptLift _

lemma failsSafely_store (id : String) (desired : Record) (found : Option Record) :
    FailsSafely Memory.directory Error.KeepsPayload (adapter.store id desired found) := by
  cases found with
  | none => exact (failsSafely_insertEntry id desired).bind_pure Upserted.created
  | some entry => exact (failsSafely_updateEntry entry desired).bind_pure Upserted.updated

/-- A payload that is not refused is looked up and stored. -/
lemma failsSafely_upsert (id : String) {payload : Document} (h : ¬ adapter.Loses payload) :
    FailsSafely Memory.directory Error.KeepsPayload (adapter.upsert id payload) := by
  rw [upsert_of_not_loses adapter h]
  exact (failsSafely_search _ _ _).bind (looks_search _ _ _) fun _ => failsSafely_store _ _ _

lemma failsSafely_remove (found : Option Record) :
    FailsSafely Memory.directory Error.KeepsPayload (adapter.remove found) := by
  cases found with
  | none => exact failsSafely_pure _
  | some entry =>
    rw [remove]
    cases Record.dn? entry with
    | none => exact failsSafely_pure _
    | some dn =>
      exact failsSafely_session fun session =>
        (Memory.failsSafely_perform session _).bind_pure fun _ => true

lemma failsSafely_destroy (id : String) :
    FailsSafely Memory.directory Error.KeepsPayload (adapter.destroy id) := by
  rw [destroy_eq]
  exact (failsSafely_search _ _ _).bind (looks_search _ _ _) fun _ => failsSafely_remove _

/-- **A task that fails has changed nothing.**  Whatever an adapter is told to do, bound or not,
and whatever the directory in memory holds and refuses: when the task ends in an error, the
directory is as it was before.  An upsert that reports a lost payload has not asked the directory
for anything; it is the one whose claims map to no attribute. -/
theorem failed_task_spares_memory (adapter : Adapter Unit) :
    (∀ overrides, Memory.Spares (adapter.bind overrides))
    ∧ (∀ id, Memory.Spares (adapter.find id))
    ∧ (∀ id scope, Memory.Spares (adapter.rawFind id scope))
    ∧ (∀ id password, Memory.Spares (adapter.findAndBind id password))
    ∧ (∀ id payload, Memory.Spares (adapter.upsert id payload))
    ∧ (∀ id attributes, Memory.Spares (adapter.insertEntry id attributes))
    ∧ (∀ existing desired, Memory.Spares (adapter.updateEntry existing desired))
    ∧ (∀ id, Memory.Spares (adapter.destroy id))
    ∧ (∀ id, Memory.Spares (adapter.consume id))
    ∧ ∀ id payload memory lost,
        (outcome Memory.directory (adapter.upsert id payload) memory).1
            = .error (.lostPayload lost) →
          lost = id ∧ adapter.Loses payload
            ∧ asked Memory.directory (adapter.upsert id payload) memory = [] := by
  refine ⟨fun overrides => Memory.spares_of_failsSafely (failsSafely_bind overrides),
    fun id => Memory.spares_of_failsSafely (failsSafely_find id),
    fun id scope => Memory.spares_of_failsSafely (failsSafely_rawFind id scope),
    fun id password => Memory.spares_of_failsSafely (failsSafely_findAndBind id password),
    fun id payload => ?_,
    fun id attributes => Memory.spares_of_failsSafely (failsSafely_insertEntry id attributes),
    fun existing desired => Memory.spares_of_failsSafely (failsSafely_updateEntry existing desired),
    fun id => Memory.spares_of_failsSafely (failsSafely_destroy id),
    fun id => Memory.spares_of_failsSafely (failsSafely_destroy id),
    fun id payload memory lost hlost => ?_⟩
  · by_cases hloses : adapter.Loses payload
    · rw [upsert_of_loses adapter hloses]
      exact Memory.spares_of_failsSafely (failsSafely_throw (p := fun _ => True) trivial)
    · exact Memory.spares_of_failsSafely (failsSafely_upsert id hloses)
  · by_cases hloses : adapter.Loses payload
    · rw [upsert_of_loses adapter hloses, Task.outcome_throw] at hlost
      cases hlost
      exact ⟨rfl, hloses, by rw [upsert_of_loses adapter hloses, Task.asked_throw]⟩
    · have hfails := failsSafely_upsert id hloses memory (.lostPayload lost) _
        (Prod.ext hlost rfl)
      exact absurd rfl (hfails.2 lost)

/-- The lookup finds nobody, and the addition then runs into an entry of the same name. -/
theorem failed_upsert_spares_robert :
    let robert : Record :=
      ⟨[("dn", .single "uid=bob,ou=people"), ("uid", .single "robert")], by decide⟩
    let memory : Memory := { entries := [robert] }
    let options : Options :=
      { baseDn := "ou=people", idAttribute := "uid",
        upsert := some { rdnAttribute := "uid", objectClasses := ["top", "person"] } }
    let adapter : Adapter Unit := { options, session := some () }
    let task := adapter.upsert "bob" ⟨[("cn", .string "Bob")]⟩
    (outcome Memory.directory task memory).1 = .error (.entryExists "uid=bob,ou=people")
      ∧ (outcome Memory.directory task memory).2 = memory := by
  intro robert memory options adapter task
  have hfails : (outcome Memory.directory task memory).1
      = .error (.entryExists "uid=bob,ou=people") := by decide
  exact ⟨hfails, (failed_task_spares_memory adapter).2.2.2.2.1 "bob" _ memory _ _
    (Prod.ext hfails rfl)⟩

end Adapter
end EntryClaims
