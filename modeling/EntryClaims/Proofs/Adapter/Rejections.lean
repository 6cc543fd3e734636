/-
# Rejected changes

An entry is brought to a desired state by one change after the other, and the changes are worked out
before the first of them is sent.  A directory that refuses some attributes refuses every change of
them, and what it refuses leaves it as it is.  So the run with refusals is the run of the changes
that are left when the refused ones are struck out: the report divides the changes into the two
lists, and the entry is what the changes that were made have made of it.  As a change touches only
its own attribute, the refused attributes stay as they are and all others come out as they do when
nothing is refused.
-/
import EntryClaims.Proofs.Adapter.Operations
import EntryClaims.Proofs.Directory.Naming
import EntryClaims.Proofs.Entry.Convergence

namespace EntryClaims

open EntryClaims.Task (outcome)
open Record (applyAll)

/-! ## One change -/

namespace Memory

/-- The reason that a directory in memory gives for refusing a change. -/
def refusal : Error := .operationFailed "constraint violation"

variable {memory : Memory} {dn : String} {entry : Record} {change : Change}

/-- A refused change leaves the directory as it is. -/
lemma perform_of_refused (h : change.target ∈ memory.refused) :
    directory.perform () (.modify dn change) memory = (.error refusal, memory) := by
  show memory.settle (memory.modify dn change) = _
  rw [modify, if_pos (by simpa using h)]
  rfl

/-- A change that is not refused is made where the entry stands. -/
lemma perform_of_allowed (hentry : memory.entry? dn = some entry)
    (h : change.target ∉ memory.refused) :
    directory.perform () (.modify dn change) memory
      = (.ok (), memory.putFirst dn (Record.apply entry change)) := by
  show memory.settle (memory.modify dn change) = _
  rw [modify_eq hentry h]
  rfl

end Memory

/-- What is reported of a change that a directory in memory refuses. -/
def Change.failure (change : Change) : Error :=
  .changeFailed change.target change.kind Memory.refusal.message

/-! ## One change after the other -/

namespace Adapter

/-- Of the changes that are sent, the directory makes those that it does not refuse, and the report
says of each what became of it. -/
lemma run_applyEach {memory : Memory} {dn : String} {entry : Record} {changes : List Change}
    (hentry : memory.entry? dn = some entry)
    (hkeeps : ∀ change ∈ changes, change.target ≠ dnAttribute) :
    (applyEach () dn changes).run Memory.directory memory
      = ({ dn, applied := changes.filter (·.target ∉ memory.refused),
           failed := (changes.filter (·.target ∈ memory.refused)).map Change.failure },
         memory.putFirst dn (applyAll entry (changes.filter (·.target ∉ memory.refused)))) := by
  -- the directory that the rest is sent to refuses the same attributes
  induction changes generalizing memory entry with
  | nil => simp [applyEach, Memory.putFirst_self hentry]
  | cons change rest ih =>
    rw [List.forall_mem_cons] at hkeeps
    obtain ⟨hfirst, hrest⟩ := hkeeps
    by_cases hrefused : change.target ∈ memory.refused
    · rw [List.filter_cons_of_neg (by simpa using hrefused),
        List.filter_cons_of_pos (by simpa using hrefused)]
      simp only [applyEach, Dialogue.run, Memory.perform_of_refused hrefused, Dialogue.run_bind,
        ih hentry hrest]
      rfl
    · have hnamed := Memory.isNamed_apply hentry hfirst
      have hthere := Memory.entry?_putFirst hentry hnamed
      rw [List.filter_cons_of_pos (by simpa using hrefused),
        List.filter_cons_of_neg (by simpa using hrefused)]
      simp only [applyEach, Dialogue.run, Memory.perform_of_allowed hentry hrefused,
        Dialogue.run_bind, ih hthere hrest, Memory.putFirst_putFirst hentry hnamed]
      rfl

/-- How bringing an entry of a directory in memory to a desired state ends. -/
lemma outcome_updateEntry {adapter : Adapter Unit} (hbound : adapter.isBound = true)
    (hfree : ∀ family ∈ adapter.synonyms.toList, dnAttribute ∉ family.2) {memory : Memory}
    {dn : String} {existing : Record} (hentry : memory.entry? dn = some existing)
    (hdn : Record.dn? existing = some dn) {desired : Record} {changes : List Change}
    (hchanges :
      Record.changes existing desired adapter.synonyms (protectedKeys adapter.options) = changes) :
    outcome Memory.directory (adapter.updateEntry existing desired) memory
      = (.ok { dn, applied := changes.filter (·.target ∉ memory.refused),
               failed := (changes.filter (·.target ∈ memory.refused)).map Change.failure },
         memory.putFirst dn (applyAll existing (changes.filter (·.target ∉ memory.refused)))) := by
  obtain ⟨⟨⟩, hsession⟩ := Option.isSome_iff_exists.1 hbound
  have hkeeps : ∀ change ∈ changes, change.target ≠ dnAttribute := fun change hchange =>
    Record.target_ne_of_protected (by simp [protectedKeys]) hfree (hchanges ▸ hchange)
  have hrun := run_applyEach hentry hkeeps
  rw [updateEntry, requireSession, hsession, Task.outcome_bind, Task.outcome_lift]
  simp only [hdn, hchanges]
  show ((applyEach () dn changes).bind fun report => .done (Except.ok report)).run
    Memory.directory memory = _
  rw [Dialogue.run_bind, hrun, Dialogue.run_done]

/-- **Rejected changes are isolated.**  Let the names in a directory in memory be distinct, let an
entry of it be brought to a desired state, and let changes of some attributes be refused.  The task
succeeds.  Its report lists the changes of the other attributes as made and the changes of these
attributes as failed, each list in the order of the changes.  The entry is then for the other
attributes what it is when nothing is refused, for the refused ones what it was, and all other
entries are as they were. -/
theorem rejections_isolated {adapter : Adapter Unit} (hbound : adapter.isBound = true)
    (hfree : ∀ family ∈ adapter.synonyms.toList, dnAttribute ∉ family.2) {memory : Memory}
    (hdistinct : memory.Distinct) {existing : Record} (hexisting : existing ∈ memory.entries)
    (desired : Record) (rejected : List String) :
    let changes := Record.changes existing desired adapter.synonyms (protectedKeys adapter.options)
    let refusing := { memory with refused := rejected }
    let willing := { memory with refused := [] }
    let run := outcome Memory.directory (adapter.updateEntry existing desired)
    ∃ dn report final reached, Record.dn? existing = some dn
      ∧ run refusing = (.ok report, refusing.putFirst dn final)
      ∧ report.applied = changes.filter (·.target ∉ rejected)
      ∧ report.failed = (changes.filter (·.target ∈ rejected)).map Change.failure
      ∧ run willing = (.ok { dn, applied := changes }, willing.putFirst dn reached)
      ∧ (∀ name, name ∉ rejected → final.get? name = reached.get? name)
      ∧ ∀ name ∈ rejected, final.get? name = existing.get? name := by
  intro changes refusing willing run
  obtain ⟨dn, hdn⟩ := Option.isSome_iff_exists.1 (hdistinct.named existing hexisting)
  have hentry := hdistinct.entry?_of_mem hexisting hdn
  have hchanges : Record.changes existing desired adapter.synonyms (protectedKeys adapter.options)
      = changes := rfl
  have hhere : refusing.entry? dn = some existing := hentry
  have hthere : willing.entry? dn = some existing := hentry
  have hrefusing := outcome_updateEntry hbound hfree hhere hdn hchanges
  have hwilling := outcome_updateEntry hbound hfree hthere hdn hchanges
  have hall : changes.filter (·.target ∉ willing.refused) = changes := by simp [willing]
  have hnone : changes.filter (·.target ∈ willing.refused) = [] := by simp [willing]
  refine ⟨dn, _, applyAll existing (changes.filter (·.target ∉ rejected)),
    applyAll existing changes, hdn, hrefusing, rfl, rfl, ?_, fun name hname => ?_,
    fun name hname => ?_⟩
  · rwa [hall, hnone] at hwilling
  · refine (Record.get?_applyAll_filter fun change _ htarget => ?_).symm
    simpa [htarget] using hname
  · refine Record.get?_applyAll_of_forall_ne fun change hchange htarget => ?_
    have hallowed : change.target ∉ rejected := by simpa using (List.mem_filter.1 hchange).2
    exact hallowed (htarget ▸ hname)

/-- The mail of one of two entries is refused, in both of its changes; the change of the name is
made. -/
theorem rejections_isolated_of_kept_mail :
    let bob : Record :=
      ⟨[("dn", .single "uid=bob,ou=people"), ("mail", .multi ["a@b.c", "d@e.f"]),
        ("cn", .single "Bob")], by decide⟩
    let alice : Record := ⟨[("dn", .single "uid=alice,ou=people")], by decide⟩
    let memory : Memory := { entries := [alice, bob] }
    let adapter : Adapter Unit :=
      { options := { baseDn := "ou=people", idAttribute := "uid" }
        mapping := ⟨[("email", [.plain (.synonyms ["mail", "rfc822Mailbox"])])], by decide⟩
        session := some () }
    let desired : Record :=
      ⟨[("mail", .multi ["a@b.c", "g@h.i"]), ("cn", .single "Robert")], by decide⟩
    let changes := Record.changes bob desired adapter.synonyms (protectedKeys adapter.options)
    let refusing := { memory with refused := ["mail"] }
    adapter.isBound = true
      ∧ (∀ family ∈ adapter.synonyms.toList, dnAttribute ∉ family.2)
      ∧ memory.Distinct ∧ bob ∈ memory.entries
      ∧ changes = [⟨"mail", .add, ["g@h.i"]⟩, ⟨"mail", .delete, ["d@e.f"]⟩,
          ⟨"cn", .replace, ["Robert"]⟩]
      ∧ ∃ dn report final,
          outcome Memory.directory (adapter.updateEntry bob desired) refusing
            = (.ok report, refusing.putFirst dn final)
          ∧ report.applied = [⟨"cn", .replace, ["Robert"]⟩]
          ∧ report.failed =
            [.changeFailed "mail" .add "operation failed: constraint violation",
              .changeFailed "mail" .delete "operation failed: constraint violation"]
          ∧ final.get? "mail" = bob.get? "mail" := by
  intro bob alice memory adapter desired changes refusing
  have hfree : ∀ family ∈ adapter.synonyms.toList, dnAttribute ∉ family.2 := by decide
  have hdistinct : memory.Distinct := by decide
  have hbob : bob ∈ memory.entries := by decide
  obtain ⟨dn, report, final, -, -, hrun, happlied, hfailed, -, -, hrefused⟩ :=
    rejections_isolated rfl hfree hdistinct hbob desired ["mail"]
  exact ⟨rfl, hfree, hdistinct, hbob, by decide, dn, report, final, hrun,
    happlied.trans (by decide), hfailed.trans (by decide), hrefused "mail" (by decide)⟩

end Adapter
end EntryClaims
