/-
# What an adapter asks a session for

A search asks for one thing.  Looking up an entry by its id is such a search, and its answer
counts only when it holds a single entry.  Creating an entry asks for one addition, and bringing
an entry to a desired state asks for one modification after the other, whatever the answers.
Without a session nothing is asked for.
-/
import EntryClaims.Adapter.Upsert
import EntryClaims.Proofs.Directory.Tasks

namespace EntryClaims
namespace Adapter

open EntryClaims.Task (outcome asked operations)

variable {σ S : Type} (directory : Directory σ S) (adapter : Adapter σ) (state : S)

/-! ## Searching -/

section Search

variable (filter : Filter) (base : String) (scope : Scope)

lemma outcome_search :
    outcome directory (adapter.search filter base scope) state
      = match adapter.session with
        | none => (.error .notConnected, state)
        | some session =>
          directory.perform session (.search base (filterText filter) scope) state := by
  unfold search requireSession
  cases adapter.session <;> rfl

lemma asked_search :
    asked directory (adapter.search filter base scope) state
      = match adapter.session with
        | none => []
        | some session =>
          [.perform (.search base (filterText filter) scope)
            (accepted
              (directory.perform session (.search base (filterText filter) scope) state).1)] := by
  unfold search requireSession
  cases adapter.session <;> rfl

lemma operations_search :
    operations directory (adapter.search filter base scope) state
      = match adapter.session with
        | none => []
        | some _ => [.search base (filterText filter) scope] := by
  rw [operations, asked_search]
  cases adapter.session <;> rfl

end Search

/-- The search for the entries that hold `text` in the attribute `name`. -/
def lookup (name text : String) (scope : Scope) : Task σ (List Record) :=
  adapter.search (lookupFilter adapter.options (some (name, text))) adapter.options.baseDn scope

lemma rawFind_some (id : String) (scope : Option Scope) :
    adapter.rawFind (some id) scope
      = (do
          let entries ← adapter.lookup adapter.options.idAttribute id
            (scope.getD adapter.options.scope)
          return single? entries) := rfl

lemma single?_eq_some_iff {entries : List Record} {entry : Record} :
    single? entries = some entry ↔ entries = [entry] := by
  rcases entries with _ | ⟨first, _ | ⟨second, rest⟩⟩ <;> simp [single?]

lemma single?_eq_none_iff {entries : List Record} :
    single? entries = none ↔ entries.length ≠ 1 := by
  rcases entries with _ | ⟨first, _ | ⟨second, rest⟩⟩ <;> simp [single?]

/-! ## Creating and updating -/

lemma operations_insertEntry (id : String) (attributes : Record) :
    operations directory (adapter.insertEntry id attributes) state
      = match adapter.session, adapter.options.upsert with
        | some _, some placement =>
          [.add (placement.entryName id adapter.options.baseDn)
            (newAttributes placement id attributes)]
        | _, _ => [] := by
  unfold insertEntry requireSession
  cases adapter.session with
  | none => rfl
  | some session =>
    cases adapter.options.upsert with
    | none => rfl
    | some placement =>
      exact Task.operations_bind_pure directory
        (Task.perform session (.add (placement.entryName id adapter.options.baseDn)
          (newAttributes placement id attributes)))
        (fun _ => placement.entryName id adapter.options.baseDn) state

/-- Whatever the directory answers, every change is sent once and in order. -/
lemma operations_applyEach (session : σ) (dn : String) (changes : List Change) :
    ((applyEach session dn changes).events directory state).filterMap Event.operation?
      = changes.map (.modify dn) := by
  induction changes generalizing state with
  | nil => rfl
  | cons change rest ih =>
    simp only [applyEach, Dialogue.events, Dialogue.events_bind,
      List.append_nil, Event.operation?, List.filterMap_cons, List.map_cons, ih]

lemma operations_updateEntry (existing desired : Record) :
    operations directory (adapter.updateEntry existing desired) state
      = match adapter.session, Record.dn? existing with
        | some _, some dn =>
          (Record.changes existing desired adapter.synonyms (protectedKeys adapter.options)).map
            (.modify dn)
        | _, _ => [] := by
  unfold updateEntry requireSession
  cases adapter.session with
  | none => rfl
  | some session =>
    cases Record.dn? existing with
    | none => rfl
    | some dn =>
      show (((applyEach session dn (Record.changes existing desired adapter.synonyms
        (protectedKeys adapter.options))).bind fun report => .done (Except.ok report)).events
          directory state).filterMap Event.operation? = _
      rw [Dialogue.events_bind, Dialogue.events, List.append_nil, operations_applyEach]

end Adapter
end EntryClaims
