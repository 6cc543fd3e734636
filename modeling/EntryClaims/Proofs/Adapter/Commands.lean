/-
# What adapters do to a directory together

Any number of adapters look entries up, bind, store payloads and delete entries in one directory,
and their questions come in any order.  Each of them acts on what its search returned, which may
be out of date when it acts.  Still the entries keep names of their own: what is added gets a
name that the directory finds free at that moment, no change is ever sent for the name itself,
and a deletion goes to a name.  The moves of each command, wherever they stand among those of the
others, do no more than it is there for: a payload adds at most one entry or changes only the one
that its search returned, and a deletion removes at most that one.
-/
import EntryClaims.Adapter.Binding
import EntryClaims.Proofs.Adapter.Creation
import EntryClaims.Proofs.Claim.Alignment
import EntryClaims.Proofs.Directory.Naming
import EntryClaims.Proofs.Entry.Convergence

namespace EntryClaims

open Dialogue (Move Plays movesOf)
open Dialogue.Pool (Runs)

/-- What an adapter can be told to do. -/
inductive Command where
  /-- Show the entry for an id. -/
  | find (id : String)
  /-- Bind as the entry with a login name. -/
  | findAndBind (id password : String)
  /-- Store a payload for an id. -/
  | upsert (id : String) (payload : Document)
  /-- Delete the entry for an id. -/
  | destroy (id : String)
  /-- Consume the entry for an id. -/
  | consume (id : String)

namespace Command

variable {σ : Type}

/-- The task of a command; what it ends in is passed over. -/
def task (adapter : Adapter σ) : Command → Task σ Unit
  | find id => do let _ ← adapter.find id; return ()
  | findAndBind id password => do let _ ← adapter.findAndBind id password; return ()
  | upsert id payload => do let _ ← adapter.upsert id payload; return ()
  | destroy id => do let _ ← adapter.destroy id; return ()
  | consume id => do let _ ← adapter.consume id; return ()

end Command

/-! ## What commands may ask for -/

/-- Whether an operation is a search. -/
def Operation.IsSearch (operation : Operation) : Prop :=
  ∃ base filter scope, operation = .search base filter scope

lemma Operation.IsSearch.keepsNames {operation : Operation} (h : operation.IsSearch) :
    operation.KeepsNames := by
  obtain ⟨base, filter, scope, rfl⟩ := h
  trivial

namespace Adapter

variable {σ : Type} {adapter : Adapter σ} {p : Operation → Prop} {id : String}

lemma asks_search (h : ∀ operation : Operation, operation.IsSearch → p operation) (filter : Filter)
    (base : String) (scope : Scope) : (adapter.search filter base scope).Asks p :=
  (Task.asks_lift _).bind fun _ => Task.asks_perform (h _ ⟨_, _, _, rfl⟩)

lemma asks_lookupId (h : ∀ operation : Operation, operation.IsSearch → p operation) (id : String) :
    (adapter.lookupId id).Asks p :=
  asks_search h _ _ _

lemma asks_find (h : ∀ operation : Operation, operation.IsSearch → p operation) (id : String) :
    (adapter.find id).Asks p := by
  rw [find, rawFind_some]
  exact ((asks_lookupId h id).bind fun _ => Task.asks_pure _).bind fun _ =>
    Task.asks_pure _

/-- Binding asks no session for anything. -/
lemma asks_bind (overrides : Option Credentials) : (adapter.bind overrides).Asks p :=
  (Task.asks_lift _).bind fun _ => ((Task.asks_authenticate _).adapt rejection).bind fun _ =>
    Task.asks_pure _

lemma asks_findAndBind (h : ∀ operation : Operation, operation.IsSearch → p operation)
    (id password : String) : (adapter.findAndBind id password).Asks p := by
  rw [findAndBind]
  cases adapter.options.bindAttribute with
  | none => exact Task.asks_throw _
  | some bindAttribute =>
    exact (asks_search h _ _ _).bind fun _ => (Task.asks_lift _).bind fun _ =>
      (Task.asks_lift _).bind fun _ => asks_bind _

lemma asks_applyEach {session : σ} {dn : String} {changes : List Change}
    (h : ∀ change ∈ changes, p (.modify dn change)) : (applyEach session dn changes).Asks p := by
  induction changes with
  | nil => trivial
  | cons change rest ih =>
    refine ⟨h change List.mem_cons_self, fun _ => ?_⟩
    exact (ih fun other hother => h other (List.mem_cons_of_mem _ hother)).bind fun _ => trivial

lemma asks_updateEntry {existing desired : Record}
    (h : ∀ dn ∈ Record.dn? existing, ∀ change ∈ Record.changes existing desired adapter.synonyms
      (protectedKeys adapter.options), p (.modify dn change)) :
    (adapter.updateEntry existing desired).Asks p := by
  refine (Task.asks_lift _).bind fun session => ?_
  cases hdn : Record.dn? existing with
  | none => exact Task.asks_throw _
  | some dn => exact (asks_applyEach (h dn hdn)).bind fun _ => trivial

lemma asks_insertEntry (h : ∀ dn attributes, p (.add dn attributes)) (attributes : Record) :
    (adapter.insertEntry id attributes).Asks p := by
  refine (Task.asks_lift _).bind fun session => ?_
  cases adapter.options.upsert with
  | none => exact Task.asks_throw _
  | some placement => exact (Task.asks_perform (h _ _)).bind fun _ => Task.asks_pure _

/-- Delete the entry that was found. -/
def remove (adapter : Adapter σ) : Option Record → Task σ Bool
  | none => return false
  | some entry =>
    match Record.dn? entry with
    | none => return false
    | some dn => do
      let session ← (adapter.requireSession : Except Error σ)
      Task.perform session (.delete dn)
      return true

lemma destroy_eq (id : String) :
    adapter.destroy id
      = (adapter.lookupId id >>= fun entries => adapter.remove (single? entries)) := by
  rw [destroy, rawFind_some, bind_assoc]
  simp only [pure_bind]
  rfl

lemma asks_remove (h : ∀ dn, p (.delete dn)) (found : Option Record) :
    (adapter.remove found).Asks p := by
  cases found with
  | none => exact Task.asks_pure _
  | some entry =>
    rw [remove]
    cases Record.dn? entry with
    | none => exact Task.asks_pure _
    | some dn =>
      exact (Task.asks_lift _).bind fun _ => (Task.asks_perform (h dn)).bind fun _ =>
        Task.asks_pure _

/-- No change is sent for the name of an entry, unless a family of synonyms leads there. -/
lemma target_ne_dn {existing desired : Record} {change : Change}
    (hfree : ∀ family ∈ adapter.mapping.families, dnAttribute ∉ family)
    (h : change ∈ Record.changes existing desired adapter.synonyms
      (protectedKeys adapter.options)) : change.target ≠ dnAttribute := by
  refine Record.target_ne_of_protected (by simp [protectedKeys]) (fun family hfamily => ?_) h
  have hget := OrderedMap.get?_eq_some_iff.2 hfamily
  exact hfree family.2 (Mapping.get?_synonyms hget).1

lemma asks_store (hfree : ∀ family ∈ adapter.mapping.families, dnAttribute ∉ family)
    (id : String) (desired : Record) (found : Option Record) :
    (adapter.store id desired found).Asks Operation.KeepsNames := by
  cases found with
  | none => exact (asks_insertEntry (fun _ _ => trivial) desired).bind fun _ => Task.asks_pure _
  | some entry =>
    refine (asks_updateEntry fun dn _ change hchange => ?_).bind fun _ => Task.asks_pure _
    exact target_ne_dn hfree hchange

lemma asks_upsert (hfree : ∀ family ∈ adapter.mapping.families, dnAttribute ∉ family)
    (id : String) (payload : Document) :
    (adapter.upsert id payload).Asks Operation.KeepsNames := by
  by_cases hloses : adapter.Loses payload
  · rw [upsert_of_loses adapter hloses]
    exact Task.asks_throw _
  · rw [upsert_of_not_loses adapter hloses]
    exact (asks_lookupId (fun _ h => h.keepsNames) id).bind fun _ => asks_store hfree _ _ _

lemma asks_destroy (id : String) : (adapter.destroy id).Asks Operation.KeepsNames := by
  rw [destroy_eq]
  exact (asks_lookupId (fun _ h => h.keepsNames) id).bind fun _ =>
    asks_remove (fun _ => trivial) _

end Adapter

/-- No command asks for a change of a name. -/
lemma Command.asks_task {σ : Type} {adapter : Adapter σ}
    (hfree : ∀ family ∈ adapter.mapping.families, dnAttribute ∉ family) (command : Command) :
    (command.task adapter).Asks Operation.KeepsNames := by
  have hkeeps : ∀ operation : Operation, operation.IsSearch → operation.KeepsNames :=
    fun _ h => h.keepsNames
  cases command with
  | find id => exact (Adapter.asks_find hkeeps id).bind fun _ => Task.asks_pure _
  | findAndBind id password =>
    exact (Adapter.asks_findAndBind hkeeps id password).bind fun _ => Task.asks_pure _
  | upsert id payload => exact (Adapter.asks_upsert hfree id payload).bind fun _ => Task.asks_pure _
  | destroy id => exact (Adapter.asks_destroy id).bind fun _ => Task.asks_pure _
  | consume id => exact (Adapter.asks_destroy id).bind fun _ => Task.asks_pure _

/-! ## What the moves of a command do -/

/-- The first move is a search, and it returned a single entry, which has the given name. -/
def Found (dn : String) (moves : List (Move Memory)) : Prop :=
  ∃ base filter scope memory rest entry,
    moves = ⟨some (.search base filter scope), memory, memory⟩ :: rest
      ∧ memory.search base filter scope = [entry] ∧ Record.dn? entry = some dn

/-- No move does anything to the directory, except that the last one may have the property. -/
def AtMostOnce (p : Move Memory → Prop) (moves : List (Move Memory)) : Prop :=
  ∃ quiet last, moves = quiet ++ last ∧ (∀ move ∈ quiet, move.after = move.before)
    ∧ last.length ≤ 1 ∧ ∀ move ∈ last, move.after = move.before ∨ p move

/-- What the moves of a command may do to the directory.  A lookup does nothing; a payload adds
at most one entry, or changes only the one at the name that its search returned; a deletion
removes at most one entry, and only the one at the name that its search returned. -/
def Command.Effect : Command → List (Move Memory) → Prop
  | find _, moves => ∀ move ∈ moves, move.after = move.before
  | findAndBind _ _, moves => ∀ move ∈ moves, move.after = move.before
  | upsert _ _, moves =>
    AtMostOnce (fun move => ∃ dn, Memory.GrowsBy dn move.before move.after) moves
      ∨ ∃ dn, Found dn moves
          ∧ ∀ move ∈ moves, move.after = move.before ∨ Memory.ChangesAt dn move.before move.after
  | destroy _, moves =>
    AtMostOnce (fun move => ∃ dn, Found dn moves ∧ Memory.ShrinksAt dn move.before move.after) moves
  | consume _, moves =>
    AtMostOnce (fun move => ∃ dn, Found dn moves ∧ Memory.ShrinksAt dn move.before move.after) moves

lemma atMostOnce_of_quiet {p : Move Memory → Prop} {moves : List (Move Memory)}
    (h : ∀ move ∈ moves, move.after = move.before) : AtMostOnce p moves :=
  ⟨moves, [], (List.append_nil moves).symm, h, by simp, by simp⟩

section Plays

variable {α : Type} {adapter : Adapter Unit} {id : String} {moves : List (Move Memory)}

/-- Moves that only search do nothing to the directory. -/
lemma quiet_of_isSearch {x z : Dialogue Unit α} (h : Plays Memory.directory x moves z)
    (hasks : x.Asks Operation.IsSearch) : ∀ move ∈ moves, move.after = move.before := by
  intro move hmove
  cases hoperation : move.operation? with
  | none => exact Memory.after_of_none (h.legal move hmove) hoperation
  | some operation =>
    obtain ⟨base, filter, scope, rfl⟩ := h.asks hasks move hmove operation hoperation
    exact Memory.after_of_some (h.legal move hmove) hoperation

/-- A lookup searches, and what comes next acts on the entries that the search returned. -/
lemma plays_lookupId {next : List Record → Task Unit α} {z : Dialogue Unit (Except Error α)}
    (h : Plays Memory.directory (ExceptT.run (adapter.lookupId id >>= next)) moves z) :
    moves = [] ∨ ∃ base filter scope memory rest,
      moves = ⟨some (.search base filter scope), memory, memory⟩ :: rest
        ∧ Plays Memory.directory (ExceptT.run (next (memory.search base filter scope))) rest z := by
  rw [Adapter.lookupId, Adapter.lookup, Adapter.search, Adapter.requireSession] at h
  cases hsession : adapter.session with
  | none =>
    rw [hsession] at h
    exact Or.inl (Plays.nil_of_done h)
  | some session =>
    rw [hsession] at h
    refine (Plays.of_perform h).imp_right ?_
    rintro ⟨memory, rest, rfl, hrest⟩
    exact ⟨_, _, _, memory, rest, rfl, hrest⟩

/-- A task that asks for one operation has at most one move. -/
lemma plays_perform {session : Unit} {operation : Operation}
    {z : Dialogue Unit (Except Error operation.Result)}
    (h : Plays Memory.directory (ExceptT.run (Task.perform session operation)) moves z) :
    moves.length ≤ 1 ∧ ∀ move ∈ moves, move.operation? = some operation
      ∧ move.after = (Memory.perform operation move.before).2 := by
  rcases Plays.of_perform h with rfl | ⟨memory, rest, rfl, hrest⟩
  · simp
  · rw [hrest.nil_of_done]
    exact ⟨le_rfl, by simp [Memory.directory]⟩

lemma plays_insertEntry {attributes : Record} {z : Dialogue Unit (Except Error String)}
    (h : Plays Memory.directory (ExceptT.run (adapter.insertEntry id attributes)) moves z) :
    moves.length ≤ 1 ∧ ∀ move ∈ moves, move.after = move.before
      ∨ ∃ dn, Memory.GrowsBy dn move.before move.after := by
  rw [Adapter.insertEntry] at h
  rcases Task.plays_of_bind_lift h with rfl | ⟨session, -, hsession⟩
  · simp
  cases hplacement : adapter.options.upsert with
  | none =>
    rw [hplacement] at hsession
    simp [Plays.nil_of_done hsession]
  | some placement =>
    rw [hplacement] at hsession
    obtain ⟨y, hy⟩ := Task.plays_of_bind_pure (Task.perform session _) hsession
    obtain ⟨hlength, hmoves⟩ := plays_perform hy
    refine ⟨hlength, fun move hmove => ?_⟩
    rw [(hmoves move hmove).2]
    exact (Memory.perform_add move.before _ _).imp_right fun hgrows => ⟨_, hgrows⟩

/-- Bringing an entry to a desired state changes at most the entry of its name. -/
lemma plays_updateEntry {existing desired : Record} {z : Dialogue Unit (Except Error Report)}
    (hfree : ∀ family ∈ adapter.mapping.families, dnAttribute ∉ family)
    (h : Plays Memory.directory (ExceptT.run (adapter.updateEntry existing desired)) moves z) :
    ∀ move ∈ moves, move.after = move.before
      ∨ ∃ dn ∈ Record.dn? existing, Memory.ChangesAt dn move.before move.after := by
  intro move hmove
  have hasks : (adapter.updateEntry existing desired).Asks fun operation =>
      ∃ dn ∈ Record.dn? existing, ∃ change, operation = .modify dn change
        ∧ change.target ≠ dnAttribute :=
    Adapter.asks_updateEntry fun dn hdn change hchange =>
      ⟨dn, hdn, change, rfl, Adapter.target_ne_dn hfree hchange⟩
  cases hoperation : move.operation? with
  | none => exact Or.inl (Memory.after_of_none (h.legal move hmove) hoperation)
  | some operation =>
    obtain ⟨dn, hdn, change, rfl, htarget⟩ := h.asks hasks move hmove operation hoperation
    rw [Memory.after_of_some (h.legal move hmove) hoperation]
    exact (Memory.perform_modify htarget).imp_right fun hchanges => ⟨dn, hdn, hchanges⟩

/-- Deleting the entry that was found deletes at most the entry of its name. -/
lemma plays_remove {found : Option Record} {z : Dialogue Unit (Except Error Bool)}
    (h : Plays Memory.directory (ExceptT.run (adapter.remove found)) moves z)
    (hdistinct : ∀ move ∈ moves, move.before.Distinct) :
    moves.length ≤ 1 ∧ ∀ move ∈ moves, move.after = move.before
      ∨ ∃ entry ∈ found, ∃ dn ∈ Record.dn? entry, Memory.ShrinksAt dn move.before move.after := by
  cases found with
  | none => simp [Plays.nil_of_done h]
  | some entry =>
    rw [Adapter.remove] at h
    cases hdn : Record.dn? entry with
    | none =>
      rw [hdn] at h
      simp [Plays.nil_of_done h]
    | some dn =>
      rw [hdn] at h
      rcases Task.plays_of_bind_lift h with rfl | ⟨session, -, hsession⟩
      · simp
      obtain ⟨y, hy⟩ := Task.plays_of_bind_pure (Task.perform session (.delete dn)) hsession
      obtain ⟨hlength, hmoves⟩ := plays_perform hy
      refine ⟨hlength, fun move hmove => ?_⟩
      rw [(hmoves move hmove).2]
      exact (Memory.perform_delete (hdistinct move hmove)).imp_right fun hshrinks =>
        ⟨entry, rfl, dn, hdn, hshrinks⟩

/-- Where a search has returned a single entry, its name was found. -/
lemma found_of_single? {base filter : String} {scope : Scope} {memory : Memory}
    {rest : List (Move Memory)} {entry : Record} {dn : String}
    (hfound : Adapter.single? (memory.search base filter scope) = some entry)
    (hdn : Record.dn? entry = some dn) :
    Found dn (⟨some (.search base filter scope), memory, memory⟩ :: rest) :=
  ⟨base, filter, scope, memory, rest, entry, rfl, Adapter.single?_eq_some_iff.1 hfound, hdn⟩

lemma effect_upsert {payload : Document} {z : Dialogue Unit (Except Error Upserted)}
    (hfree : ∀ family ∈ adapter.mapping.families, dnAttribute ∉ family)
    (h : Plays Memory.directory (ExceptT.run (adapter.upsert id payload)) moves z) :
    (Command.upsert id payload).Effect moves := by
  by_cases hloses : adapter.Loses payload
  · rw [Adapter.upsert_of_loses adapter hloses] at h
    rw [Plays.nil_of_done h]
    exact Or.inl (atMostOnce_of_quiet (by simp))
  rw [Adapter.upsert_of_not_loses adapter hloses] at h
  rcases plays_lookupId h with rfl | ⟨base, filter, scope, memory, rest, rfl, hrest⟩
  · exact Or.inl (atMostOnce_of_quiet (by simp))
  cases hfound : Adapter.single? (memory.search base filter scope) with
  | none =>
    -- the search returned none or several, and a new entry is asked for
    rw [hfound] at hrest
    obtain ⟨y, hy⟩ := Task.plays_of_bind_pure _ hrest
    obtain ⟨hlength, hmoves⟩ := plays_insertEntry hy
    exact Or.inl ⟨[_], rest, rfl, by simp, hlength, hmoves⟩
  | some entry =>
    rw [hfound] at hrest
    obtain ⟨y, hy⟩ := Task.plays_of_bind_pure _ hrest
    have hmoves := plays_updateEntry hfree hy
    cases hdn : Record.dn? entry with
    | none =>
      -- without its name the entry cannot be changed
      refine Or.inl (atMostOnce_of_quiet (List.forall_mem_cons.2 ⟨rfl, fun move hmove => ?_⟩))
      simpa [hdn] using hmoves move hmove
    | some dn =>
      refine Or.inr ⟨dn, found_of_single? hfound hdn, List.forall_mem_cons.2 ⟨Or.inl rfl, ?_⟩⟩
      intro move hmove
      simpa [hdn] using hmoves move hmove

lemma effect_destroy {z : Dialogue Unit (Except Error Bool)}
    (h : Plays Memory.directory (ExceptT.run (adapter.destroy id)) moves z)
    (hdistinct : ∀ move ∈ moves, move.before.Distinct) :
    (Command.destroy id).Effect moves := by
  rw [Adapter.destroy_eq] at h
  rcases plays_lookupId h with rfl | ⟨base, filter, scope, memory, rest, rfl, hrest⟩
  · exact atMostOnce_of_quiet (by simp)
  obtain ⟨hlength, hmoves⟩ := plays_remove hrest fun move hmove =>
    hdistinct move (List.mem_cons_of_mem _ hmove)
  refine ⟨[_], rest, rfl, by simp, hlength, fun move hmove => (hmoves move hmove).imp_right ?_⟩
  rintro ⟨entry, hfound, dn, hdn, hshrinks⟩
  exact ⟨dn, found_of_single? hfound hdn, hshrinks⟩

/-- The moves of a command do no more than it is there for. -/
lemma Command.effect_of_plays {z : Dialogue Unit (Except Error Unit)}
    (hfree : ∀ family ∈ adapter.mapping.families, dnAttribute ∉ family) {command : Command}
    (h : Plays Memory.directory (ExceptT.run (command.task adapter)) moves z)
    (hdistinct : ∀ move ∈ moves, move.before.Distinct) : command.Effect moves := by
  cases command with
  | find id =>
    obtain ⟨y, hy⟩ := Task.plays_of_bind_pure _ h
    exact quiet_of_isSearch hy (Adapter.asks_find (fun _ h => h) id)
  | findAndBind id password =>
    obtain ⟨y, hy⟩ := Task.plays_of_bind_pure _ h
    exact quiet_of_isSearch hy (Adapter.asks_findAndBind (fun _ h => h) id password)
  | upsert id payload =>
    obtain ⟨y, hy⟩ := Task.plays_of_bind_pure _ h
    exact effect_upsert hfree hy
  | destroy id =>
    obtain ⟨y, hy⟩ := Task.plays_of_bind_pure _ h
    exact effect_destroy hy hdistinct
  | consume id =>
    obtain ⟨y, hy⟩ := Task.plays_of_bind_pure _ h
    exact effect_destroy hy hdistinct

end Plays

/-! ## Commands side by side -/

namespace Memory

/-- The pool of commands that adapters are told, none of them begun. -/
def pool (memory : Memory) (commands : List (Adapter Unit × Command)) :
    Dialogue.Pool Unit (Except Error Unit) Memory :=
  ⟨commands.map fun told => ExceptT.run (told.2.task told.1), memory⟩

/-- **Entries keep names of their own.**  Let any number of adapters, whose families of synonyms
do not hold `dn`, be told any commands over a directory in which every entry has a name of its
own, and let their questions come in any order.  Then this is so at every time; each question
adds, changes or deletes at most one entry, and no entry ever gets another name; and each command
does no more than it is there for. -/
theorem names_stay_distinct {memory : Memory} {commands : List (Adapter Unit × Command)}
    {history : List (Nat × Move Memory)} {last : Dialogue.Pool Unit (Except Error Unit) Memory}
    (hfree : ∀ told ∈ commands, ∀ family ∈ told.1.mapping.families, dnAttribute ∉ family)
    (hdistinct : memory.Distinct) (hruns : Runs directory (memory.pool commands) history last) :
    last.state.Distinct
      ∧ (∀ turn ∈ history, turn.2.before.Distinct ∧ Turn turn.2.before turn.2.after)
      ∧ ∀ place adapter (command : Command), commands[place]? = some (adapter, command) →
          command.Effect (movesOf place history) := by
  have hasks : ∀ x ∈ (memory.pool commands).dialogues, x.Asks Operation.KeepsNames := by
    intro x hx
    obtain ⟨told, htold, rfl⟩ := List.mem_map.1 hx
    exact told.2.asks_task (hfree told htold)
  have hanswer : ∀ move : Move Memory, move.Legal directory →
      (∀ operation ∈ move.operation?, operation.KeepsNames) → move.before.Distinct →
        move.after.Distinct :=
    fun move hlegal hkeeps hbefore => (turn_of_legal hlegal hkeeps hbefore).distinct hbefore
  obtain ⟨hlast, hhistory⟩ := hruns.invariant hanswer hasks hdistinct
  refine ⟨hlast, ?_, ?_⟩
  · intro turn hturn
    obtain ⟨hlegal, hkeeps, hbefore⟩ := hhistory turn hturn
    exact ⟨hbefore, turn_of_legal hlegal hkeeps hbefore⟩
  · intro place adapter command htold
    have hx : (memory.pool commands).dialogues[place]?
        = some (ExceptT.run (command.task adapter)) := by
      rw [pool, List.getElem?_map, htold, Option.map_some]
    obtain ⟨z, hz⟩ := hruns.plays hx
    refine Command.effect_of_plays (hfree _ (List.mem_of_getElem? htold)) hz fun move hmove => ?_
    obtain ⟨turn, hturn, rfl⟩ := List.mem_map.1 hmove
    exact (hhistory turn (List.mem_filter.1 hturn).1).2.2

/-- Two payloads are stored for an id that is unknown when both look it up. -/
theorem names_stay_distinct_of_race :
    let bob : Record := ⟨[("dn", .single "uid=bob,ou=people"), ("uid", .single "bob")], by decide⟩
    let memory : Memory := { entries := [bob] }
    let options : Options :=
      { baseDn := "ou=people", idAttribute := "uid",
        upsert := some { rdnAttribute := "uid", objectClasses := ["top", "person"] } }
    let adapter : Adapter Unit := { options, session := some () }
    let commands : List (Adapter Unit × Command) :=
      [(adapter, .upsert "rob" ⟨[("cn", .string "Rob")]⟩),
        (adapter, .upsert "rob" ⟨[("cn", .string "Robert")]⟩)]
    ∃ first second rest last,
      Runs directory (memory.pool commands) ((0, first) :: (1, second) :: rest) last
        ∧ (∀ x ∈ last.dialogues, ∃ result, x = .done result)
        ∧ last.state.Distinct := by
  intro bob memory options adapter commands
  have hfree : ∀ told ∈ commands, ∀ family ∈ told.1.mapping.families, dnAttribute ∉ family := by
    decide
  have hdistinct : memory.Distinct := by decide
  obtain ⟨rest, last, hrest, hover⟩ := Dialogue.Pool.exists_runs_over directory ⟨[_, _], memory⟩
  have hruns : Runs directory (memory.pool commands) (_ :: _ :: rest) last :=
    show Runs directory ⟨[] ++ _ :: [_], memory⟩ _ _ from .head rfl <|
      show Runs directory ⟨[_] ++ _ :: [], memory⟩ _ _ from .head rfl hrest
  refine ⟨_, _, rest, last, hruns, hover, ?_⟩
  exact (names_stay_distinct hfree hdistinct hruns).1

end Memory
end EntryClaims
