/-
# The names in a directory

Every entry of a directory has a name of its own.  No operation breaks this: an entry is added
only under a name that is free, a change of another attribute leaves the name as it is, and a
deletion takes one entry away.  Names are compared without regard to the case of letters, which
is an equivalence, so an operation that is sent to one spelling of a name reaches the entry of
that name in every spelling.
-/
import EntryClaims.Proofs.Directory.Histories
import EntryClaims.Proofs.Directory.Modify

namespace EntryClaims

/-! ## Equal names -/

namespace DN

variable {left middle right : String}

lemma same_iff : same left right = true
    ↔ left.toList.map Char.toLower = right.toList.map Char.toLower := by
  rw [same, Text.sameIgnoringCase, beq_iff_eq]

lemma same_comm : same left right = same right left := by
  rw [Bool.eq_iff_iff, same_iff, same_iff, eq_comm]

lemma same_trans (h : same left middle = true) (h' : same middle right = true) :
    same left right = true :=
  same_iff.2 ((same_iff.1 h).trans (same_iff.1 h'))

end DN

namespace Memory

/-! ## Names of their own -/

/-- Every entry has a name, and no two have the same one. -/
structure Distinct (memory : Memory) : Prop where
  named : ∀ entry ∈ memory.entries, (Record.dn? entry).isSome = true
  pairwise : memory.entries.Pairwise fun entry other =>
    DN.same (nameOf entry) (nameOf other) = false

instance (memory : Memory) : Decidable memory.Distinct :=
  decidable_of_iff ((∀ entry ∈ memory.entries, (Record.dn? entry).isSome = true)
      ∧ memory.entries.Pairwise fun entry other => DN.same (nameOf entry) (nameOf other) = false)
    ⟨fun h => ⟨h.1, h.2⟩, fun h => ⟨h.1, h.2⟩⟩

/-- One entry is put behind the others, under a name that none of them has. -/
def GrowsBy (dn : String) (memory after : Memory) : Prop :=
  ∃ entry, Record.dn? entry = some dn ∧ memory.entry? dn = none ∧ after = memory.insert entry

/-- The entry of the given name is changed, and it keeps its name. -/
def ChangesAt (dn : String) (memory after : Memory) : Prop :=
  ∃ before entry behind changed, memory.entries = before ++ entry :: behind
    ∧ isNamed dn entry = true ∧ Record.dn? changed = Record.dn? entry
    ∧ after = { memory with entries := before ++ changed :: behind }

/-- The entry of the given name is taken away. -/
def ShrinksAt (dn : String) (memory after : Memory) : Prop :=
  ∃ before entry behind, memory.entries = before ++ entry :: behind ∧ isNamed dn entry = true
    ∧ after = { memory with entries := before ++ behind }

/-- What one operation can do to a directory. -/
inductive Turn (memory after : Memory) : Prop where
  /-- Nothing. -/
  | keep (h : after = memory)
  /-- One entry is added. -/
  | grow (dn : String) (h : GrowsBy dn memory after)
  /-- One entry is changed. -/
  | change (dn : String) (h : ChangesAt dn memory after)
  /-- One entry is deleted. -/
  | shrink (dn : String) (h : ShrinksAt dn memory after)

section Distinct

variable {memory after : Memory} {dn : String}

lemma GrowsBy.distinct (h : GrowsBy dn memory after) (hdistinct : memory.Distinct) :
    after.Distinct := by
  obtain ⟨entry, hdn, hfree, rfl⟩ := h
  have hname : nameOf entry = dn := by rw [nameOf, hdn, Option.getD_some]
  constructor
  · intro other hother
    rcases List.mem_append.1 hother with hother | hother
    · exact hdistinct.named other hother
    · rw [List.mem_singleton.1 hother, hdn, Option.isSome_some]
  · refine List.pairwise_append.2 ⟨hdistinct.pairwise, List.pairwise_singleton _ _, ?_⟩
    intro other hother new hnew
    rw [List.mem_singleton.1 hnew, hname]
    simpa [isNamed] using List.find?_eq_none.1 hfree other hother

lemma ChangesAt.distinct (h : ChangesAt dn memory after) (hdistinct : memory.Distinct) :
    after.Distinct := by
  obtain ⟨before, entry, behind, changed, hentries, -, hdn, rfl⟩ := h
  have hname : nameOf changed = nameOf entry := by rw [nameOf, nameOf, hdn]
  have hnamed := hdistinct.named
  have hpairwise := hdistinct.pairwise
  rw [hentries] at hnamed hpairwise
  constructor
  · intro other hother
    rcases List.mem_append.1 hother with hother | hother
    · exact hnamed other (List.mem_append_left _ hother)
    · rcases List.mem_cons.1 hother with rfl | hother
      · rw [hdn]
        exact hnamed entry (by simp)
      · exact hnamed other (by simp [hother])
  · -- the names are those of before
    simpa only [List.pairwise_append, List.pairwise_cons, List.forall_mem_cons, hname]
      using hpairwise

lemma ShrinksAt.distinct (h : ShrinksAt dn memory after) (hdistinct : memory.Distinct) :
    after.Distinct := by
  obtain ⟨before, entry, behind, hentries, -, rfl⟩ := h
  have hsub : (before ++ behind).Sublist memory.entries := by
    rw [hentries]
    exact List.Sublist.append_left (List.sublist_cons_self entry behind) before
  exact ⟨fun other hother => hdistinct.named other (hsub.subset hother),
    hdistinct.pairwise.sublist hsub⟩

lemma Turn.distinct (h : Turn memory after) (hdistinct : memory.Distinct) : after.Distinct := by
  cases h with
  | keep h => rwa [h]
  | grow dn h => exact h.distinct hdistinct
  | change dn h => exact h.distinct hdistinct
  | shrink dn h => exact h.distinct hdistinct

end Distinct

/-! ## What the operations do -/

section Operations

variable {memory : Memory} {dn : String}

lemma get?_foldl_insert_of_forall_ne {name : String} {pairs : List (String × AttributeValue)}
    (h : ∀ pair ∈ pairs, pair.1 ≠ name) (entry : Record) :
    (pairs.foldl (fun entry pair => entry.insert pair.1 pair.2) entry).get? name
      = entry.get? name := by
  induction pairs generalizing entry with
  | nil => rfl
  | cons pair rest ih =>
    rw [List.foldl_cons, ih fun other hother => h other (List.mem_cons_of_mem _ hother)]
    exact OrderedMap.get?_insert_of_ne (Ne.symm (h pair List.mem_cons_self)) entry pair.2

/-- A new entry has the name it is added under, whatever its attributes. -/
lemma dn?_newEntry (dn : String) (attributes : Record) :
    Record.dn? (newEntry dn attributes) = some dn := by
  have hothers : ∀ pair ∈ attributes.toList.filter (·.1 != dnAttribute), pair.1 ≠ dnAttribute := by
    intro pair hpair
    simpa using (List.mem_filter.1 hpair).2
  rw [Record.dn?, Record.single?, newEntry, get?_foldl_insert_of_forall_ne hothers,
    OrderedMap.get?_insert_self]
  rfl

/-- Among names of their own an entry is the first one of its name. -/
lemma Distinct.entry?_of_mem (hdistinct : memory.Distinct) {entry : Record}
    (hmem : entry ∈ memory.entries) (hdn : Record.dn? entry = some dn) :
    memory.entry? dn = some entry := by
  obtain ⟨before, behind, hentries⟩ := List.append_of_mem hmem
  refine entry?_eq_some_iff.2 ⟨isNamed_of_dn? hdn, before, behind, hentries, fun other hother => ?_⟩
  have hpairwise := hdistinct.pairwise
  rw [hentries, List.pairwise_append] at hpairwise
  have hne := hpairwise.2.2 other hother entry List.mem_cons_self
  rw [nameOf, nameOf, hdn, Option.getD_some] at hne
  rw [isNamed, nameOf, hne, Bool.not_false]

/-- Among names of their own only one entry has a given name. -/
lemma Distinct.filter_not_isNamed (hdistinct : memory.Distinct) {before behind : List Record}
    {entry : Record} (hentries : memory.entries = before ++ entry :: behind)
    (hnamed : isNamed dn entry = true) :
    memory.entries.filter (!isNamed dn ·) = before ++ behind := by
  have hpairwise := hdistinct.pairwise
  rw [hentries, List.pairwise_append, List.pairwise_cons] at hpairwise
  obtain ⟨-, ⟨hbehind, -⟩, hbefore⟩ := hpairwise
  -- an entry with the given name would have the name of `entry` as well
  have hother : ∀ other, DN.same (nameOf other) (nameOf entry) = false →
      (!isNamed dn other) = true := by
    intro other hne
    rw [Bool.not_eq_true']
    by_contra hsame
    rw [Bool.not_eq_false] at hsame
    rw [DN.same_trans hsame (DN.same_comm.trans hnamed)] at hne
    cases hne
  have hfront := List.filter_eq_self.2 fun other hmem =>
    hother other (hbefore other hmem entry List.mem_cons_self)
  have hback := List.filter_eq_self.2 fun other hmem =>
    hother other (DN.same_comm.trans (hbehind other hmem))
  rw [hentries, List.filter_append, List.filter_cons_of_neg (by simp [hnamed]), hfront, hback]

/-- An operation that fails leaves the directory as it is. -/
lemma settle_eq (memory : Memory) (result : Except Error Memory) :
    (memory.settle result).2 = memory ∨ result = .ok (memory.settle result).2 := by
  cases result with
  | error error => exact Or.inl rfl
  | ok changed => exact Or.inr rfl

lemma perform_add (memory : Memory) (dn : String) (attributes : Record) :
    (perform (.add dn attributes) memory).2 = memory
      ∨ GrowsBy dn memory (perform (.add dn attributes) memory).2 := by
  refine (settle_eq memory (memory.add dn attributes)).imp_right fun h => ?_
  have hadd : memory.add dn attributes = .ok (perform (.add dn attributes) memory).2 := h
  rw [add] at hadd
  cases hentry : memory.entry? dn with
  | some entry =>
    rw [hentry] at hadd
    cases hadd
  | none =>
    rw [hentry, Except.ok.injEq] at hadd
    exact ⟨newEntry dn attributes, dn?_newEntry dn attributes, hentry, hadd.symm⟩

lemma perform_modify {change : Change} (htarget : change.target ≠ dnAttribute) :
    (perform (.modify dn change) memory).2 = memory
      ∨ ChangesAt dn memory (perform (.modify dn change) memory).2 := by
  refine (settle_eq memory (memory.modify dn change)).imp_right fun h => ?_
  have hmodify : memory.modify dn change = .ok (perform (.modify dn change) memory).2 := h
  obtain ⟨-, entry, hentry, hafter⟩ := modify_eq_ok_iff.1 hmodify
  obtain ⟨hnamed, before, behind, hentries, hbefore⟩ := entry?_eq_some_iff.1 hentry
  refine ⟨before, entry, behind, Record.apply entry change, hentries, hnamed, ?_, ?_⟩
  · rw [Record.dn?, Record.dn?, Record.single?, Record.single?,
      Record.get?_apply_of_ne (Ne.symm htarget)]
  · rw [hafter, putFirst_eq hnamed hentries hbefore]

lemma perform_delete (hdistinct : memory.Distinct) :
    (perform (.delete dn) memory).2 = memory
      ∨ ShrinksAt dn memory (perform (.delete dn) memory).2 := by
  refine (settle_eq memory (memory.delete dn)).imp_right fun h => ?_
  have hdelete : memory.delete dn = .ok (perform (.delete dn) memory).2 := h
  rw [delete] at hdelete
  split at hdelete
  · next hany =>
    obtain ⟨entry, hmem, hnamed⟩ := List.any_eq_true.1 hany
    obtain ⟨before, behind, hentries⟩ := List.append_of_mem hmem
    rw [Except.ok.injEq, hdistinct.filter_not_isNamed hentries hnamed] at hdelete
    exact ⟨before, entry, behind, hentries, hnamed, hdelete.symm⟩
  · cases hdelete

end Operations

end Memory

/-- Whether an operation leaves the names of the entries alone. -/
def Operation.KeepsNames : Operation → Prop
  | .modify _ change => change.target ≠ dnAttribute
  | _ => True

namespace Memory

section Moves

variable {move : Dialogue.Move Memory}

lemma after_of_none (hlegal : move.Legal directory) (h : move.operation? = none) :
    move.after = move.before := by
  rw [Dialogue.Move.Legal, h] at hlegal
  obtain ⟨request, hafter⟩ := hlegal
  exact hafter

lemma after_of_some (hlegal : move.Legal directory) {operation : Operation}
    (h : move.operation? = some operation) :
    move.after = (perform operation move.before).2 := by
  rw [Dialogue.Move.Legal, h] at hlegal
  obtain ⟨session, hafter⟩ := hlegal
  exact hafter

/-- A question that leaves the names alone adds, changes or deletes at most one entry. -/
lemma turn_of_legal (hlegal : move.Legal directory)
    (hkeeps : ∀ operation ∈ move.operation?, operation.KeepsNames)
    (hdistinct : move.before.Distinct) : Turn move.before move.after := by
  cases hmove : move.operation? with
  | none => exact .keep (after_of_none hlegal hmove)
  | some operation =>
    rw [after_of_some hlegal hmove]
    have hoperation := hkeeps operation hmove
    cases operation with
    | search base filter scope => exact .keep rfl
    | add dn attributes => exact (perform_add move.before dn attributes).elim .keep (.grow dn)
    | modify dn change => exact (perform_modify hoperation).elim .keep (.change dn)
    | delete dn => exact (perform_delete hdistinct).elim .keep (.shrink dn)

end Moves

end Memory
end EntryClaims
