/-
# Updates side by side

Several adapters may bring one and the same entry to desired states at the same time.  Each looks
at the entry once, works out its changes, and sends them one after the other, while the others
have changed the entry before and go on changing it in between.  What an update asks for was
worked out from an entry that is out of date by then.

The updates do not get in each other's way when no two of their keys share a name.  What is
followed through a run is, for every update, the changes it has made so far: under its own names
the entry is what these changes alone make of the first one, whatever the others have done, and
what the update has still to send is the rest of the changes worked out from the first entry.
-/
import EntryClaims.Directory.Interleaving
import EntryClaims.Proofs.Adapter.Operations
import EntryClaims.Proofs.Claim.Alignment
import EntryClaims.Proofs.Entry.Convergence
import Mathlib.Data.Fintype.EquivFin
import Mathlib.Logic.Function.Basic
import Mathlib.Logic.Relation

namespace EntryClaims

open SynonymTable (resolve namesFor Apart)
open Record (Solid Settled applyAll managedKeys)
open Relation (ReflTransGen)

/-! ## One update -/

/-- The bringing of an entry to a desired state, by an adapter of its own. -/
structure Update where
  /-- The adapter. -/
  adapter : Adapter Unit
  /-- The desired state. -/
  desired : Record

namespace Update

/-- The keys that the update cares for. -/
def keys (update : Update) : List String :=
  managedKeys update.desired (Adapter.protectedKeys update.adapter.options)

/-- The names that the value for a key may have. -/
def names (update : Update) (key : String) : List String :=
  namesFor update.adapter.synonyms key

/-- Whether a name is one for a key of the update. -/
def Covers (update : Update) (name : String) : Prop :=
  ∃ key ∈ update.keys, name ∈ update.names key

/-- What the update asks for when it sees the given entry. -/
def changes (update : Update) (existing : Record) : List Change :=
  Record.changes existing update.desired update.adapter.synonyms
    (Adapter.protectedKeys update.adapter.options)

/-- The dialogue that the update begins when it sees the given entry. -/
def dialogue (update : Update) (existing : Record) : Dialogue Unit (Except Error Report) :=
  (update.adapter.updateEntry existing update.desired).run

variable {update : Update} {entry other : Record} {dn : String} {memory after : Memory}
  {change : Change} {made rest : List Change}

lemma covers_target (h : change ∈ update.changes entry) : update.Covers change.target := by
  obtain ⟨pair, hpair, hkey, hmem⟩ := Record.mem_changes.1 h
  exact ⟨pair.1, Record.mem_managedKeys_of_mem hpair hkey, Record.target_mem_namesFor hmem⟩

lemma changes_congr (h : ∀ name, update.Covers name → entry.get? name = other.get? name) :
    update.changes entry = update.changes other :=
  Record.changes_congr fun key hkey name hname => h name ⟨key, hkey, hname⟩

/-! ### What is left to do -/

/-- The dialogue of an update that has made some changes and has others to send. -/
def remaining (dn : String) (made rest : List Change) : Dialogue Unit (Except Error Report) :=
  (Adapter.applyEach () dn rest).bind fun report =>
    .done (.ok { report with applied := made ++ report.applied })

lemma remaining_nil :
    remaining dn made [] = .done (.ok { dn, applied := made, failed := [] }) := by
  simp [remaining, Adapter.applyEach, Dialogue.bind]

/-- At first everything is left to do. -/
lemma dialogue_eq (hbound : update.adapter.isBound = true) (hdn : Record.dn? entry = some dn) :
    update.dialogue entry = remaining dn [] (update.changes entry) := by
  obtain ⟨⟨⟩, hsession⟩ := Option.isSome_iff_exists.1 hbound
  rw [dialogue, Adapter.updateEntry, Adapter.requireSession, hsession]
  simp only [hdn]
  rfl

/-- A change that the directory makes passes from what is left to what is done. -/
lemma step?_remaining (h : memory.modify dn change = .ok after) :
    (remaining dn made (change :: rest)).step? Memory.directory memory
      = some (remaining dn (made ++ [change]) rest, after) := by
  have hperform : Memory.directory.perform () (.modify dn change) memory = (.ok (), after) := by
    show memory.settle (memory.modify dn change) = _
    rw [h]
    rfl
  simp only [remaining, Adapter.applyEach, Dialogue.bind, Dialogue.step?, hperform,
    Dialogue.bind_assoc, Report.note, List.append_assoc, List.singleton_append]

end Update

/-! ## Updates under way -/

/-- How far an update has come. -/
inductive Stage where
  /-- It has not looked at the entry. -/
  | waiting
  /-- It has looked at the entry and is in its dialogue with the directory. -/
  | talking (dialogue : Dialogue Unit (Except Error Report))

/-- Updates under way with one directory. -/
structure Scene (ι : Type) where
  /-- How far each of them has come. -/
  stage : ι → Stage
  /-- The directory. -/
  memory : Memory

namespace Scene

variable {ι : Type}

/-- No update has looked at the entry. -/
def start (memory : Memory) : Scene ι := ⟨fun _ => .waiting, memory⟩

/-- Whether an update is over. -/
def IsOver (scene : Scene ι) (i : ι) : Prop := ∃ result, scene.stage i = .talking (.done result)

variable [DecidableEq ι]

/-- The scene after an update has gone on. -/
def goOn (scene : Scene ι) (i : ι) (x : Dialogue Unit (Except Error Report)) (memory : Memory) :
    Scene ι :=
  ⟨Function.update scene.stage i (.talking x), memory⟩

section GoOn

variable {scene : Scene ι} {i j : ι} {x : Dialogue Unit (Except Error Report)} {memory : Memory}

@[simp] lemma goOn_stage_self : (scene.goOn i x memory).stage i = .talking x :=
  Function.update_self i _ scene.stage

lemma goOn_stage_of_ne (h : j ≠ i) : (scene.goOn i x memory).stage j = scene.stage j :=
  Function.update_of_ne h _ scene.stage

end GoOn

/-- One of the updates goes on: it looks at the entry of the given name, or it asks the directory
its next question. -/
inductive Step (updates : ι → Update) (dn : String) : Scene ι → Scene ι → Prop where
  /-- An update looks at the entry as it is now. -/
  | look {scene : Scene ι} {i : ι} {entry : Record} (hwaiting : scene.stage i = .waiting)
      (hentry : scene.memory.entry? dn = some entry) :
      Step updates dn scene (scene.goOn i ((updates i).dialogue entry) scene.memory)
  /-- An update asks its next question. -/
  | ask {scene : Scene ι} {i : ι} {x y : Dialogue Unit (Except Error Report)} {after : Memory}
      (htalking : scene.stage i = .talking x)
      (hstep : x.step? Memory.directory scene.memory = some (y, after)) :
      Step updates dn scene (scene.goOn i y after)

end Scene

/-- The updates can be made side by side: the directory refuses no attribute, the entry and what
is desired are data throughout, and no name belongs to two keys, be it of one update or of two.
The name of the entry belongs to none. -/
structure Independent {ι : Type} (updates : ι → Update) (memory : Memory) (dn : String)
    (entry : Record) : Prop where
  entry? : memory.entry? dn = some entry
  dn? : Record.dn? entry = some dn
  refused : memory.refused = []
  solid : Solid entry
  desired : ∀ i, Solid (updates i).desired
  bound : ∀ i, (updates i).adapter.isBound = true
  apart : ∀ i, ∀ key ∈ (updates i).keys, ∀ j, ∀ other ∈ (updates j).keys, (i, key) ≠ (j, other) →
    ∀ name ∈ (updates i).names key, name ∉ (updates j).names other
  dn_free : ∀ i, ∀ key ∈ (updates i).keys, dnAttribute ∉ (updates i).names key

namespace Independent

variable {ι : Type} {updates : ι → Update} {memory : Memory} {dn : String} {entry : Record}
  {i j : ι} {name : String}

lemma not_covers (h : Independent updates memory dn entry) (hne : i ≠ j)
    (hname : (updates i).Covers name) : ¬ (updates j).Covers name := by
  rintro ⟨other, hother, hmem⟩
  obtain ⟨key, hkey, hmine⟩ := hname
  exact h.apart i key hkey j other hother (fun e => hne (congrArg Prod.fst e)) name hmine hmem

lemma not_covers_dn (h : Independent updates memory dn entry) :
    ∀ i, ¬ (updates i).Covers dnAttribute := fun i ⟨key, hkey, hmem⟩ => h.dn_free i key hkey hmem

lemma apart_keys (h : Independent updates memory dn entry) (i : ι) :
    Apart (updates i).adapter.synonyms (updates i).keys := fun key hkey other hother hne =>
  h.apart i key hkey i other hother fun e => hne (congrArg Prod.snd e)

end Independent

/-! ## What holds at every time -/

namespace Scene

variable {ι : Type} {updates : ι → Update} {memory : Memory} {dn : String} {entry : Record}

/-- Each update has made some of its changes and has the others to send, and under its names the
entry is what these changes have made of it. -/
structure Invariant (updates : ι → Update) (memory : Memory) (dn : String) (entry : Record)
    (scene : Scene ι) (made : ι → List Change) (current : Record) : Prop where
  memory : scene.memory = memory.putFirst dn current
  stage : ∀ i, (scene.stage i = .waiting ∧ made i = [])
    ∨ ∃ rest, made i ++ rest = (updates i).changes entry
        ∧ scene.stage i = .talking (Update.remaining dn (made i) rest)
  own : ∀ i name, (updates i).Covers name → current.get? name = (applyAll entry (made i)).get? name
  others : ∀ name, (∀ i, ¬ (updates i).Covers name) → current.get? name = entry.get? name

namespace Invariant

variable {scene : Scene ι} {made : ι → List Change} {current : Record} {i : ι}
  {change : Change} {rest : List Change}

lemma start (h : Independent updates memory dn entry) :
    Invariant updates memory dn entry (start memory) (fun _ => []) entry where
  memory := (Memory.putFirst_self h.entry?).symm
  stage _ := Or.inl ⟨rfl, rfl⟩
  own _ _ _ := rfl
  others _ _ := rfl

lemma dn?_eq (h : Independent updates memory dn entry)
    (hscene : Invariant updates memory dn entry scene made current) :
    Record.dn? current = some dn := by
  rw [Record.dn?, Record.single?, hscene.others _ h.not_covers_dn]
  exact h.dn?

lemma entry?_eq (h : Independent updates memory dn entry)
    (hscene : Invariant updates memory dn entry scene made current) :
    scene.memory.entry? dn = some current := by
  rw [hscene.memory]
  exact Memory.entry?_putFirst h.entry? (Memory.isNamed_of_dn? (hscene.dn?_eq h))

/-- An update that is over has made all of its changes, and it says so. -/
lemma result_eq (hscene : Invariant updates memory dn entry scene made current)
    {result : Except Error Report} (hover : scene.stage i = .talking (.done result)) :
    made i = (updates i).changes entry
      ∧ result = .ok { dn, applied := (updates i).changes entry, failed := [] } := by
  rcases hscene.stage i with ⟨hwaiting, -⟩ | ⟨rest, hrest, hremaining⟩
  · rw [hwaiting] at hover
    cases hover
  · rw [hover, Stage.talking.injEq] at hremaining
    cases rest with
    | nil =>
      rw [List.append_nil] at hrest
      rw [Update.remaining_nil, Dialogue.done.injEq] at hremaining
      exact ⟨hrest, by rw [hremaining, hrest]⟩
    | cons change rest => cases hremaining

/-- What an update that is over has left under its names is what it would have left alone. -/
lemma get?_of_isOver (hscene : Invariant updates memory dn entry scene made current)
    (hover : scene.IsOver i) {name : String} (hname : (updates i).Covers name) :
    current.get? name = (applyAll entry ((updates i).changes entry)).get? name := by
  obtain ⟨result, hresult⟩ := hover
  rw [hscene.own i name hname, (hscene.result_eq hresult).1]

/-- An update that is over has put its wanted strings in place. -/
lemma settled (h : Independent updates memory dn entry)
    (hscene : Invariant updates memory dn entry scene made current) (hover : scene.IsOver i)
    {key : String} {wanted : AttributeValue} (hwanted : (updates i).desired.get? key = some wanted)
    (hkey : key ∉ Adapter.protectedKeys (updates i).adapter.options) :
    Settled current (updates i).adapter.synonyms key wanted := by
  have halone : Settled (applyAll entry ((updates i).changes entry)) (updates i).adapter.synonyms
      key wanted :=
    Record.settled_applyAll_changes h.solid (h.desired i)
      (Mapping.rooted_synonyms (updates i).adapter.mapping) (h.apart_keys i) hwanted hkey
  have hmanaged : key ∈ (updates i).keys :=
    Record.mem_managedKeys_of_mem (OrderedMap.get?_eq_some_iff.1 hwanted) hkey
  refine Record.settled_congr (fun name hname => ?_) halone
  exact (hscene.get?_of_isOver hover ⟨key, hmanaged, hname⟩).symm

/-- What is not the place of a key stays as it is. -/
lemma get?_of_ne_resolve (h : Independent updates memory dn entry)
    (hscene : Invariant updates memory dn entry scene made current) (hover : ∀ i, scene.IsOver i)
    {name : String} (hname : ∀ i, ∀ key ∈ (updates i).keys,
      name ≠ resolve (updates i).adapter.synonyms key current) :
    current.get? name = entry.get? name := by
  by_cases hcovers : ∃ i, (updates i).Covers name
  · obtain ⟨i, hi⟩ := hcovers
    rw [hscene.get?_of_isOver (hover i) hi]
    refine Record.get?_applyAll_changes_of_ne h.solid (h.desired i)
      (Mapping.rooted_synonyms (updates i).adapter.mapping) (h.apart_keys i) fun key hkey => ?_
    -- under the names of the key the entry is what the update alone makes of it
    have hplace : resolve (updates i).adapter.synonyms key current
        = resolve (updates i).adapter.synonyms key
            (applyAll entry ((updates i).changes entry)) :=
      SynonymTable.resolve_congr_get? fun other hother =>
        hscene.get?_of_isOver (hover i) ⟨key, hkey, hother⟩
    exact fun e => hname i key hkey (e.trans hplace.symm)
  · exact hscene.others name (not_exists.1 hcovers)

variable [DecidableEq ι]

/-- However late an update looks at the entry, it asks for what it would have asked for at the
start. -/
lemma look (h : Independent updates memory dn entry)
    (hscene : Invariant updates memory dn entry scene made current)
    (hwaiting : scene.stage i = .waiting) :
    made i = [] ∧ (updates i).dialogue current = Update.remaining dn [] ((updates i).changes entry)
      ∧ Invariant updates memory dn entry
          (scene.goOn i ((updates i).dialogue current) scene.memory) made current := by
  have hmade : made i = [] := by
    rcases hscene.stage i with ⟨-, hmade⟩ | ⟨rest, -, htalking⟩
    · exact hmade
    · rw [hwaiting] at htalking
      cases htalking
  -- under its names the entry is still the first one, and nothing else matters for its changes
  have hchanges : (updates i).changes current = (updates i).changes entry :=
    Update.changes_congr fun name hname => by
      rw [hscene.own i name hname, hmade, Record.applyAll_nil]
  have hdialogue : (updates i).dialogue current
      = Update.remaining dn [] ((updates i).changes entry) := by
    rw [Update.dialogue_eq (h.bound i) (hscene.dn?_eq h), hchanges]
  refine ⟨hmade, hdialogue, hscene.memory, fun j => ?_, hscene.own, hscene.others⟩
  by_cases hj : j = i
  · subst hj
    refine Or.inr ⟨(updates j).changes entry, by rw [hmade, List.nil_append], ?_⟩
    rw [goOn_stage_self, hdialogue, hmade]
  · rw [goOn_stage_of_ne hj]
    exact hscene.stage j

/-- The next change of an update is made, and the other updates do not notice. -/
lemma ask (h : Independent updates memory dn entry)
    (hscene : Invariant updates memory dn entry scene made current)
    (hrest : made i ++ change :: rest = (updates i).changes entry) :
    scene.memory.modify dn change = .ok (memory.putFirst dn (Record.apply current change))
      ∧ Invariant updates memory dn entry
          (scene.goOn i (Update.remaining dn (made i ++ [change]) rest)
            (memory.putFirst dn (Record.apply current change)))
          (Function.update made i (made i ++ [change])) (Record.apply current change) := by
  have hasked : change ∈ (updates i).changes entry := by
    rw [← hrest]
    simp
  have hmine : (updates i).Covers change.target := Update.covers_target hasked
  have hallowed : change.target ∉ scene.memory.refused := by
    rw [hscene.memory]
    show change.target ∉ memory.refused
    simp [h.refused]
  refine ⟨?_, rfl, fun j => ?_, fun j name hname => ?_, fun name hname => ?_⟩
  · rw [Memory.modify_eq (hscene.entry?_eq h) hallowed, hscene.memory,
      Memory.putFirst_putFirst h.entry? (Memory.isNamed_of_dn? (hscene.dn?_eq h))]
  · by_cases hj : j = i
    · subst hj
      refine Or.inr ⟨rest, ?_, ?_⟩
      · rw [Function.update_self, List.append_assoc, List.singleton_append, hrest]
      · rw [goOn_stage_self, Function.update_self]
    · rw [goOn_stage_of_ne hj, Function.update_of_ne hj]
      exact hscene.stage j
  · by_cases hj : j = i
    · subst hj
      rw [Function.update_self, Record.applyAll_append, Record.applyAll_cons, Record.applyAll_nil]
      exact Record.get?_apply_congr (hscene.own j name hname)
    · -- the change goes to a name of the one update, which is none of the other
      have hne : name ≠ change.target := fun e => h.not_covers hj hname (e ▸ hmine)
      rw [Function.update_of_ne hj, Record.get?_apply_of_ne hne]
      exact hscene.own j name hname
  · have hne : name ≠ change.target := fun e => hname i (e ▸ hmine)
    rw [Record.get?_apply_of_ne hne]
    exact hscene.others name hname

/-- Whatever an update does next, it keeps the invariant. -/
lemma step (h : Independent updates memory dn entry)
    (hscene : Invariant updates memory dn entry scene made current) {next : Scene ι}
    (hstep : Step updates dn scene next) :
    ∃ made current, Invariant updates memory dn entry next made current := by
  cases hstep with
  | look hwaiting hentry =>
    rw [hscene.entry?_eq h, Option.some.injEq] at hentry
    subst hentry
    exact ⟨made, current, (hscene.look h hwaiting).2.2⟩
  | @ask i x y after htalking hstep =>
    rcases hscene.stage i with ⟨hwaiting, -⟩ | ⟨rest, hrest, hremaining⟩
    · rw [hwaiting] at htalking
      cases htalking
    · rw [htalking, Stage.talking.injEq] at hremaining
      subst hremaining
      cases rest with
      | nil =>
        -- with nothing left to send there is no next question
        rw [Update.remaining_nil] at hstep
        cases hstep
      | cons change rest =>
        obtain ⟨hmodify, hnext⟩ := hscene.ask h hrest
        rw [Update.step?_remaining hmodify, Option.some.injEq, Prod.mk.injEq] at hstep
        obtain ⟨rfl, rfl⟩ := hstep
        exact ⟨_, _, hnext⟩

lemma run (h : Independent updates memory dn entry)
    (hscene : Invariant updates memory dn entry scene made current) {last : Scene ι}
    (hrun : ReflTransGen (Step updates dn) scene last) :
    ∃ made current, Invariant updates memory dn entry last made current := by
  induction hrun with
  | refl => exact ⟨made, current, hscene⟩
  | tail _ hstep ih =>
    obtain ⟨made, current, hlast⟩ := ih
    exact hlast.step h hstep

/-! ### How it goes on to the end -/

/-- An update that is in its dialogue can be carried to its end while the others wait. -/
lemma exists_over_of_talking (h : Independent updates memory dn entry)
    (hscene : Invariant updates memory dn entry scene made current)
    (hrest : made i ++ rest = (updates i).changes entry)
    (htalking : scene.stage i = .talking (Update.remaining dn (made i) rest)) :
    ∃ last, ReflTransGen (Step updates dn) scene last ∧ last.IsOver i
      ∧ ∀ j, j ≠ i → last.stage j = scene.stage j := by
  -- on the changes that are left; each one made leads to a scene with the invariant again
  induction rest generalizing scene made current with
  | nil =>
    rw [Update.remaining_nil] at htalking
    exact ⟨scene, .refl, ⟨_, htalking⟩, fun _ _ => rfl⟩
  | cons change rest ih =>
    obtain ⟨hmodify, hnext⟩ := hscene.ask h hrest
    have hstep : Step updates dn scene _ := .ask htalking (Update.step?_remaining hmodify)
    obtain ⟨last, hrun, hover, hothers⟩ := ih hnext
      (by rw [Function.update_self, List.append_assoc, List.singleton_append, hrest])
      (by rw [goOn_stage_self, Function.update_self])
    refine ⟨last, .head hstep hrun, hover, fun j hj => ?_⟩
    rw [hothers j hj, goOn_stage_of_ne hj]

lemma exists_over (h : Independent updates memory dn entry)
    (hscene : Invariant updates memory dn entry scene made current) (i : ι) :
    ∃ last, ReflTransGen (Step updates dn) scene last ∧ last.IsOver i
      ∧ ∀ j, j ≠ i → last.stage j = scene.stage j := by
  rcases hscene.stage i with ⟨hwaiting, -⟩ | ⟨rest, hrest, htalking⟩
  · obtain ⟨hmade, hdialogue, hnext⟩ := hscene.look h hwaiting
    have hstep : Step updates dn scene _ := .look hwaiting (hscene.entry?_eq h)
    obtain ⟨last, hrun, hover, hothers⟩ := hnext.exists_over_of_talking h
      (by rw [hmade, List.nil_append]) (by rw [goOn_stage_self, hdialogue, hmade])
    refine ⟨last, .head hstep hrun, hover, fun j hj => ?_⟩
    rw [hothers j hj, goOn_stage_of_ne hj]
  · exact hscene.exists_over_of_talking h hrest htalking

/-- All updates can be carried to their ends, one after the other. -/
lemma exists_all_over (h : Independent updates memory dn entry)
    (hscene : Invariant updates memory dn entry scene made current) (chosen : Finset ι) :
    ∃ last, ReflTransGen (Step updates dn) scene last ∧ ∀ i ∈ chosen, last.IsOver i := by
  induction chosen using Finset.induction with
  | empty => exact ⟨scene, .refl, by simp⟩
  | insert i others hi ih =>
    obtain ⟨middle, hrun, hothers⟩ := ih
    obtain ⟨made, current, hmiddle⟩ := hscene.run h hrun
    obtain ⟨last, hmore, hover, hkept⟩ := hmiddle.exists_over h i
    refine ⟨last, hrun.trans hmore, fun j hj => ?_⟩
    rcases Finset.mem_insert.1 hj with rfl | hj
    · exact hover
    · obtain ⟨result, hresult⟩ := hothers j hj
      exact ⟨result, by rw [hkept j fun e => hi (e ▸ hj), hresult]⟩

end Invariant

variable [DecidableEq ι] {scene : Scene ι}

/-- **Updates side by side lose nothing.**  Let any number of adapters bring one entry to desired
states whose names do not overlap, each looking at the entry when it comes to it, and let their
questions come in any order.  An update that is over reports all of its changes as made and none
as refused.  When all are over, every key of every update holds exactly the wanted strings under
the name where the entry then stores its value, all other attributes are as they were, and so are
all other entries.  And wherever the updates stand, they can be carried to their ends. -/
theorem updates_lose_nothing [Finite ι] (h : Independent updates memory dn entry)
    (hrun : ReflTransGen (Step updates dn) (start memory) scene) :
    (∀ i result, scene.stage i = .talking (.done result) →
        result = .ok { dn, applied := (updates i).changes entry, failed := [] })
      ∧ ((∀ i, scene.IsOver i) → ∃ final, scene.memory = memory.putFirst dn final
          ∧ (∀ i key wanted, (updates i).desired.get? key = some wanted →
              key ∉ Adapter.protectedKeys (updates i).adapter.options →
                Settled final (updates i).adapter.synonyms key wanted)
          ∧ ∀ name, (∀ i, ∀ key ∈ (updates i).keys,
              name ≠ resolve (updates i).adapter.synonyms key final) →
                final.get? name = entry.get? name)
      ∧ ∃ last, ReflTransGen (Step updates dn) scene last ∧ ∀ i, last.IsOver i := by
  obtain ⟨made, current, hscene⟩ := (Invariant.start h).run h hrun
  refine ⟨fun i result hresult => (hscene.result_eq hresult).2, fun hover => ?_, ?_⟩
  · refine ⟨current, hscene.memory, ?_, ?_⟩
    · intro i key wanted hwanted hkey
      exact hscene.settled h (hover i) hwanted hkey
    · intro name hname
      exact hscene.get?_of_ne_resolve h hover hname
  · have := Fintype.ofFinite ι
    obtain ⟨last, hlast, hover⟩ := hscene.exists_all_over h Finset.univ
    exact ⟨last, hlast, fun i => hover i (Finset.mem_univ i)⟩

/-- Two updates look at the entry before either has changed it.  The one adds a name where the
entry has it, the other puts a new address, and both take effect. -/
theorem updates_lose_nothing_of_both_looking_first :
    let options : Options := { baseDn := "ou=people", idAttribute := "uid" }
    let names : Mapping := ⟨[("name", [.plain (.synonyms ["cn", "commonName"])])], by decide⟩
    let naming : Update := ⟨{ options, mapping := names, session := some () },
      ⟨[("cn", .multi ["Bob", "Rob"])], by decide⟩⟩
    let mailing : Update := ⟨{ options, session := some () }, ⟨[("mail", .single "b")], by decide⟩⟩
    let updates : Bool → Update := fun first => if first then naming else mailing
    let dn := "uid=bob,ou=people"
    let entry : Record := ⟨[("dn", .single "uid=bob,ou=people"), ("commonName", .single "Bob"),
      ("mail", .single "a")], by decide⟩
    let memory : Memory := { entries := [entry] }
    let looked : Scene Bool := ((start memory).goOn true (naming.dialogue entry) memory).goOn false
      (mailing.dialogue entry) memory
    Independent updates memory dn entry
      ∧ ReflTransGen (Step updates dn) (start memory) looked
      ∧ ∃ scene, ReflTransGen (Step updates dn) looked scene
          ∧ (∀ i, scene.IsOver i)
          ∧ ∃ final, scene.memory = memory.putFirst dn final
              ∧ Settled final naming.adapter.synonyms "cn" (.multi ["Bob", "Rob"])
              ∧ Settled final mailing.adapter.synonyms "mail" (.single "b") := by
  intro options names naming mailing updates dn entry memory looked
  have hentry : memory.entry? dn = some entry := by decide
  have hindependent : Independent updates memory dn entry :=
    ⟨hentry, rfl, rfl, by decide, by decide, by decide, by decide, by decide⟩
  have hnaming : Step updates dn (start memory)
      ((start memory).goOn true (naming.dialogue entry) memory) := Step.look rfl hentry
  have hmailing : Step updates dn ((start memory).goOn true (naming.dialogue entry) memory)
      looked := Step.look rfl hentry
  have hlooked := (ReflTransGen.single hnaming).tail hmailing
  refine ⟨hindependent, hlooked, ?_⟩
  obtain ⟨-, -, last, hrest, hover⟩ := updates_lose_nothing hindependent hlooked
  obtain ⟨final, hmemory, hsettled, -⟩ :=
    (updates_lose_nothing hindependent (hlooked.trans hrest)).2.1 hover
  exact ⟨last, hrest, hover, final, hmemory, hsettled true "cn" _ rfl (by decide),
    hsettled false "mail" _ rfl (by decide)⟩

end Scene
end EntryClaims
