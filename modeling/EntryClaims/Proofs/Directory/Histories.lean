/-
# Histories of dialogues side by side

A run of several dialogues with one directory is written down as its history: for each question
the dialogue that asked it, the operation, and the directory before and afterwards.  The part of
the history that belongs to one dialogue is a play of this dialogue alone, in which the directory
may have changed in any way between two questions.  So what a dialogue can do is read off its own
plays, and what holds of the directory throughout is shown question by question.
-/
import EntryClaims.Directory.Interleaving
import EntryClaims.Proofs.Directory.Tasks

namespace EntryClaims
namespace Dialogue

variable {σ α β S : Type}

/-! ## What a dialogue may ask for -/

/-- Every operation that the dialogue may ask for has the property, whatever the answers. -/
def Asks (p : Operation → Prop) : Dialogue σ α → Prop
  | .done _ => True
  | .authenticate _ next => ∀ answer, (next answer).Asks p
  | .perform _ operation next => p operation ∧ ∀ answer, (next answer).Asks p

section Asks

variable {p : Operation → Prop}

lemma Asks.bind {x : Dialogue σ α} {f : α → Dialogue σ β} (hx : x.Asks p)
    (hf : ∀ result, (f result).Asks p) : (x.bind f).Asks p := by
  induction x with
  | done result => exact hf result
  | authenticate request next ih => exact fun answer => ih answer (hx answer)
  | perform session operation next ih => exact ⟨hx.1, fun answer => ih answer (hx.2 answer)⟩

end Asks

/-! ## Plays of one dialogue -/

/-- A question that was asked. -/
structure Move (S : Type) where
  /-- The operation; none when a session was opened. -/
  operation? : Option Operation
  /-- The directory before. -/
  before : S
  /-- The directory afterwards. -/
  after : S

/-- The operation that a dialogue asks for next; none when it opens a session or is over. -/
def operation? : Dialogue σ α → Option Operation
  | .perform _ operation _ => some operation
  | _ => none

/-- Whether a directory answers a question in this way. -/
def Move.Legal (directory : Directory σ S) (move : Move S) : Prop :=
  match move.operation? with
  | none => ∃ request, move.after = (directory.authenticate request move.before).2
  | some operation => ∃ session, move.after = (directory.perform session operation move.before).2

/-- A dialogue goes on by some moves, each in whatever state the directory is in then. -/
inductive Plays (directory : Directory σ S) :
    Dialogue σ α → List (Move S) → Dialogue σ α → Prop where
  /-- Nothing is asked. -/
  | refl (x : Dialogue σ α) : Plays directory x [] x
  /-- The next question is asked, and then others. -/
  | head {x y z : Dialogue σ α} {before after : S} {moves : List (Move S)}
      (h : x.step? directory before = some (y, after)) (rest : Plays directory y moves z) :
      Plays directory x (⟨x.operation?, before, after⟩ :: moves) z

section Steps

variable {directory : Directory σ S} {x y : Dialogue σ α} {before after : S}
  {p : Operation → Prop}

lemma legal_of_step? (h : x.step? directory before = some (y, after)) :
    Move.Legal directory ⟨x.operation?, before, after⟩ := by
  cases x with
  | done result => cases h
  | authenticate request next =>
    cases h
    exact ⟨request, rfl⟩
  | perform session operation next =>
    cases h
    exact ⟨session, rfl⟩

lemma Asks.step? (hx : x.Asks p) (h : x.step? directory before = some (y, after)) :
    (∀ operation ∈ x.operation?, p operation) ∧ y.Asks p := by
  cases x with
  | done result => cases h
  | authenticate request next =>
    cases h
    exact ⟨by simp [operation?], hx _⟩
  | perform session operation next =>
    cases h
    refine ⟨?_, hx.2 _⟩
    rintro _ ⟨⟩
    exact hx.1

end Steps

section Plays

variable {directory : Directory σ S} {x z : Dialogue σ α} {moves : List (Move S)}

lemma Plays.legal (h : Plays directory x moves z) : ∀ move ∈ moves, move.Legal directory := by
  induction h with
  | refl x => simp
  | head h _ ih => exact List.forall_mem_cons.2 ⟨legal_of_step? h, ih⟩

lemma Plays.asks {p : Operation → Prop} (h : Plays directory x moves z) (hx : x.Asks p) :
    ∀ move ∈ moves, ∀ operation ∈ move.operation?, p operation := by
  induction h with
  | refl x => simp
  | head h _ ih =>
    obtain ⟨hfirst, hrest⟩ := hx.step? h
    exact List.forall_mem_cons.2 ⟨hfirst, ih hrest⟩

/-- A dialogue that is over asks nothing. -/
lemma Plays.nil_of_done {result : α} (h : Plays directory (.done result) moves z) : moves = [] := by
  cases h with
  | refl => rfl
  | head h => cases h

/-- A dialogue for an operation asks for it, and goes on as the answer tells. -/
lemma Plays.of_perform {session : σ} {operation : Operation}
    {next : Except Error operation.Result → Dialogue σ α}
    (h : Plays directory (.perform session operation next) moves z) :
    moves = [] ∨ ∃ before rest,
      moves = ⟨some operation, before, (directory.perform session operation before).2⟩ :: rest
        ∧ Plays directory (next (directory.perform session operation before).1) rest z := by
  cases h with
  | refl => exact Or.inl rfl
  | @head _ y _ before after rest h hrest =>
    cases h
    exact Or.inr ⟨before, rest, rfl, hrest⟩

/-- Of a sequence, the first part is played, and then perhaps the second. -/
lemma Plays.of_bind {x : Dialogue σ β} {f : β → Dialogue σ α}
    (h : Plays directory (x.bind f) moves z) :
    (∃ y, Plays directory x moves y)
      ∨ ∃ first second result, moves = first ++ second ∧ Plays directory x first (.done result)
          ∧ Plays directory (f result) second z := by
  -- along the questions of the first part; where they end, the second part begins
  induction x generalizing moves with
  | done result => exact Or.inr ⟨[], moves, result, rfl, .refl _, h⟩
  | authenticate request next ih =>
    cases h with
    | refl => exact Or.inl ⟨_, .refl _⟩
    | @head _ _ _ before _ _ hstep hrest =>
      cases hstep
      rcases ih _ hrest with ⟨y, hy⟩ | ⟨first, second, result, rfl, hfirst, hsecond⟩
      · exact Or.inl ⟨y, .head rfl hy⟩
      · exact Or.inr ⟨_ :: first, second, result, rfl, .head rfl hfirst, hsecond⟩
  | perform session operation next ih =>
    cases h with
    | refl => exact Or.inl ⟨_, .refl _⟩
    | @head _ _ _ before _ _ hstep hrest =>
      cases hstep
      rcases ih _ hrest with ⟨y, hy⟩ | ⟨first, second, result, rfl, hfirst, hsecond⟩
      · exact Or.inl ⟨y, .head rfl hy⟩
      · exact Or.inr ⟨_ :: first, second, result, rfl, .head rfl hfirst, hsecond⟩

end Plays

/-! ## Histories of a pool -/

/-- The dialogues of a pool ask questions in some order; each question is noted with the place of
the dialogue that asked it. -/
inductive Pool.Runs (directory : Directory σ S) :
    Pool σ α S → List (Nat × Move S) → Pool σ α S → Prop where
  /-- No question is asked. -/
  | refl (pool : Pool σ α S) : Pool.Runs directory pool [] pool
  /-- A question is asked, and then others. -/
  | head {before behind : List (Dialogue σ α)} {x y : Dialogue σ α} {state after : S}
      {history : List (Nat × Move S)} {last : Pool σ α S}
      (h : x.step? directory state = some (y, after))
      (rest : Pool.Runs directory ⟨before ++ y :: behind, after⟩ history last) :
      Pool.Runs directory ⟨before ++ x :: behind, state⟩
        ((before.length, ⟨x.operation?, state, after⟩) :: history) last

/-- The moves of the dialogue at a place. -/
def movesOf (place : Nat) (history : List (Nat × Move S)) : List (Move S) :=
  (history.filter (·.1 = place)).map Prod.snd

namespace Pool

variable {directory : Directory σ S} {pool last : Pool σ α S} {history : List (Nat × Move S)}

lemma Runs.trans {middle : Pool σ α S} {more : List (Nat × Move S)}
    (h : Runs directory pool history middle) (hmore : Runs directory middle more last) :
    Runs directory pool (history ++ more) last := by
  induction h with
  | refl pool => exact hmore
  | head h _ ih => exact .head h (ih hmore)

/-- Replacing one item of a list leaves the others where they are. -/
lemma getElem?_append_cons_of_ne {before behind : List α} {x y : α} {place : Nat}
    (h : place ≠ before.length) :
    (before ++ x :: behind)[place]? = (before ++ y :: behind)[place]? := by
  rcases Nat.lt_or_gt_of_ne h with hlt | hgt
  · rw [List.getElem?_append_left hlt, List.getElem?_append_left hlt]
  · obtain ⟨n, rfl⟩ := Nat.exists_eq_add_of_lt hgt
    have hplace : before.length + n + 1 - before.length = n + 1 := by omega
    rw [List.getElem?_append_right (by omega), List.getElem?_append_right (by omega), hplace,
      List.getElem?_cons_succ, List.getElem?_cons_succ]

/-- The moves of one dialogue are a play of it. -/
lemma Runs.plays (h : Runs directory pool history last) {place : Nat} {x : Dialogue σ α}
    (hx : pool.dialogues[place]? = some x) :
    ∃ y, Plays directory x (movesOf place history) y := by
  induction h generalizing x with
  | refl pool => exact ⟨x, .refl x⟩
  | @head before behind asker next state after history last h _ ih =>
    by_cases hplace : before.length = place
    · -- it is this dialogue's turn
      subst hplace
      have hasker : asker = x := by simpa using hx
      subst hasker
      obtain ⟨y, hy⟩ := ih (x := next) (by simp)
      refine ⟨y, ?_⟩
      rw [movesOf, List.filter_cons_of_pos (by simp), List.map_cons]
      exact .head h hy
    · have hkept : (before ++ next :: behind)[place]? = some x := by
        rw [← hx, getElem?_append_cons_of_ne (Ne.symm hplace)]
      obtain ⟨y, hy⟩ := ih hkept
      refine ⟨y, ?_⟩
      rw [movesOf, List.filter_cons_of_neg (by simpa using hplace)]
      exact hy

/-- What holds of the directory at the start and is kept by every answer to a question that may
be asked holds throughout. -/
lemma Runs.invariant {P : S → Prop} {p : Operation → Prop}
    (hanswer : ∀ move : Move S, move.Legal directory →
      (∀ operation ∈ move.operation?, p operation) → P move.before → P move.after)
    (h : Runs directory pool history last) (hasks : ∀ x ∈ pool.dialogues, x.Asks p)
    (hstart : P pool.state) :
    P last.state ∧ ∀ turn ∈ history, turn.2.Legal directory
      ∧ (∀ operation ∈ turn.2.operation?, p operation) ∧ P turn.2.before := by
  induction h with
  | refl pool => exact ⟨hstart, by simp⟩
  | @head before behind x y state after history last h _ ih =>
    obtain ⟨hoperation, hy⟩ := (hasks x (by simp)).step? h
    have hlegal := legal_of_step? h
    have hnext : ∀ other ∈ before ++ y :: behind, other.Asks p := by
      intro other hother
      rcases List.mem_append.1 hother with hmem | hmem
      · exact hasks other (List.mem_append_left _ hmem)
      · rcases List.mem_cons.1 hmem with rfl | hmem
        · exact hy
        · exact hasks other (by simp [hmem])
    obtain ⟨hlast, hhistory⟩ := ih hnext (hanswer _ hlegal hoperation hstart)
    exact ⟨hlast, List.forall_mem_cons.2 ⟨⟨hlegal, hoperation, hstart⟩, hhistory⟩⟩

/-! ### Running to the end -/

/-- A dialogue can be carried to its end while the others rest. -/
lemma exists_runs_done (directory : Directory σ S) (x : Dialogue σ α)
    (before behind : List (Dialogue σ α)) (state : S) :
    ∃ history result after, Runs directory ⟨before ++ x :: behind, state⟩ history
      ⟨before ++ .done result :: behind, after⟩ := by
  induction x generalizing state with
  | done result => exact ⟨[], result, state, .refl _⟩
  | authenticate request next ih =>
    obtain ⟨history, result, after, hrun⟩ := ih _ (directory.authenticate request state).2
    exact ⟨_, result, after, .head rfl hrun⟩
  | perform session operation next ih =>
    obtain ⟨history, result, after, hrun⟩ := ih _ (directory.perform session operation state).2
    exact ⟨_, result, after, .head rfl hrun⟩

/-- All dialogues of a pool can be carried to their ends. -/
lemma exists_runs_over (directory : Directory σ S) (pool : Pool σ α S) :
    ∃ history last, Runs directory pool history last
      ∧ ∀ x ∈ last.dialogues, ∃ result, x = .done result := by
  obtain ⟨dialogues, state⟩ := pool
  -- those in front are over, and the induction is on those behind them
  suffices h : ∀ before : List (Dialogue σ α), (∀ x ∈ before, ∃ result, x = .done result) →
      ∃ history last, Runs directory ⟨before ++ dialogues, state⟩ history last
        ∧ ∀ x ∈ last.dialogues, ∃ result, x = .done result from h [] (by simp)
  induction dialogues generalizing state with
  | nil =>
    intro before hbefore
    exact ⟨[], _, .refl _, by simpa using hbefore⟩
  | cons x behind ih =>
    intro before hbefore
    obtain ⟨history, result, after, hfirst⟩ :=
      exists_runs_done directory x before behind state
    have hmore : ∀ y ∈ before ++ [Dialogue.done result], ∃ result, y = .done result := by
      intro y hy
      rcases List.mem_append.1 hy with hy | hy
      · exact hbefore y hy
      · exact ⟨result, List.mem_singleton.1 hy⟩
    obtain ⟨more, last, hrest, hover⟩ := ih after _ hmore
    rw [List.append_assoc, List.singleton_append] at hrest
    exact ⟨history ++ more, last, hfirst.trans hrest, hover⟩

end Pool
end Dialogue

/-! ## Tasks -/

namespace Task

variable {σ α β S : Type} {p : Operation → Prop}

/-- Every operation that the task may ask for has the property, whatever the answers. -/
def Asks (p : Operation → Prop) (task : Task σ α) : Prop := Dialogue.Asks p (ExceptT.run task)

lemma asks_pure (result : α) : Asks p (pure result : Task σ α) := trivial

lemma asks_throw (error : Error) : Asks p (throw error : Task σ α) := trivial

lemma asks_lift (result : Except Error α) : Asks p (liftM result : Task σ α) := by
  cases result <;> trivial

lemma asks_perform {session : σ} {operation : Operation} (h : p operation) :
    Asks p (perform session operation) :=
  ⟨h, fun _ => trivial⟩

lemma asks_authenticate (request : BindRequest) : Asks p (authenticate request : Task σ σ) :=
  fun _ => trivial

lemma Asks.adapt {task : Task σ α} (h : task.Asks p) (f : Error → Error) :
    Asks p (ExceptT.adapt f task) :=
  Dialogue.Asks.bind h fun _ => trivial

lemma Asks.bind {first : Task σ α} {next : α → Task σ β} (h : first.Asks p)
    (hnext : ∀ result, (next result).Asks p) : Asks p (first >>= next) := by
  refine Dialogue.Asks.bind (f := ExceptT.bindCont next) h fun result => ?_
  cases result with
  | ok result => exact hnext result
  | error error => trivial

/-- A result that needs no directory is there at once, or it ends the task. -/
lemma plays_of_bind_lift {directory : Directory σ S} {result : Except Error α}
    {next : α → Task σ β} {moves : List (Dialogue.Move S)} {z : Dialogue σ (Except Error β)}
    (h : Dialogue.Plays directory (ExceptT.run ((liftM result : Task σ α) >>= next)) moves z) :
    moves = [] ∨ ∃ value, result = .ok value
      ∧ Dialogue.Plays directory (ExceptT.run (next value)) moves z := by
  cases result with
  | error error => exact Or.inl (Dialogue.Plays.nil_of_done h)
  | ok value => exact Or.inr ⟨value, rfl, h⟩

/-- Turning the result into another one adds no move. -/
lemma plays_of_bind_pure {directory : Directory σ S} (first : Task σ α) {f : α → β}
    {moves : List (Dialogue.Move S)} {z : Dialogue σ (Except Error β)}
    (h : Dialogue.Plays directory (ExceptT.run (first >>= fun result => pure (f result))) moves z) :
    ∃ y, Dialogue.Plays directory (ExceptT.run first) moves y := by
  rcases Dialogue.Plays.of_bind h with hfirst | ⟨moves, more, result, rfl, hfirst, hmore⟩
  · exact hfirst
  · have hnil : more = [] := by cases result <;> exact hmore.nil_of_done
    exact ⟨_, by rwa [hnil, List.append_nil]⟩

end Task
end EntryClaims
