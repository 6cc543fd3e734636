/-
# What a directory in memory makes of a change

The directory changes the first entry of the given name and leaves every other entry where and
as it is.  Changes that are made one after the other look the entry up again each time, and a change
of the name leaves those behind it without an entry to change.  As long as none of them is a change
of the name, they do to the entry what they do to a record.
-/
import EntryClaims.Directory.Memory
import EntryClaims.Proofs.Entry.Texts
import Mathlib.Data.List.TakeWhile

namespace EntryClaims

/-- A change of another attribute leaves an entry its name. -/
lemma Record.dn?_apply {entry : Record} {change : Change} (h : change.target ≠ dnAttribute) :
    dn? (apply entry change) = dn? entry := by
  rw [dn?, dn?, single?, single?, get?_apply_of_ne (Ne.symm h)]

namespace Memory

/-- The directory with `entry` in the place of its first entry of the given name. -/
def putFirst (memory : Memory) (dn : String) (entry : Record) : Memory :=
  { memory with
    entries := memory.entries.takeWhile (!isNamed dn ·)
      ++ entry :: (memory.entries.dropWhile (!isNamed dn ·)).tail }

section PutFirst

variable {memory : Memory} {dn : String} {entry other : Record}

lemma isNamed_of_dn? (h : Record.dn? entry = some dn) : isNamed dn entry = true := by
  simp [isNamed, nameOf, h, DN.same, Text.sameIgnoringCase]

/-- The entry of a name stands behind entries of other names. -/
lemma entry?_eq_some_iff :
    memory.entry? dn = some entry ↔ isNamed dn entry = true ∧ ∃ before behind,
      memory.entries = before ++ entry :: behind ∧ ∀ other ∈ before, (!isNamed dn other) = true :=
  List.find?_eq_some_iff_append

/-- An entry that is found under a name keeps it when another attribute is changed. -/
lemma isNamed_apply {change : Change} (h : memory.entry? dn = some entry)
    (hkeeps : change.target ≠ dnAttribute) : isNamed dn (Record.apply entry change) = true := by
  rw [isNamed, nameOf, Record.dn?_apply hkeeps]
  exact (entry?_eq_some_iff.1 h).1

lemma putFirst_eq {before behind : List Record} (hentry : isNamed dn entry = true)
    (hentries : memory.entries = before ++ entry :: behind)
    (hbefore : ∀ other ∈ before, (!isNamed dn other) = true) :
    memory.putFirst dn other = { memory with entries := before ++ other :: behind } := by
  rw [putFirst, hentries, List.takeWhile_append_of_pos hbefore,
    List.dropWhile_append_of_pos hbefore]
  simp [hentry]

/-- Putting the entry that is there in its own place changes nothing. -/
lemma putFirst_self (h : memory.entry? dn = some entry) : memory.putFirst dn entry = memory := by
  obtain ⟨hentry, before, behind, hentries, hbefore⟩ := entry?_eq_some_iff.1 h
  rw [putFirst_eq hentry hentries hbefore, ← hentries]

/-- What is put in the place of an entry is found there if it has the name. -/
lemma entry?_putFirst (h : memory.entry? dn = some entry) (hother : isNamed dn other = true) :
    Memory.entry? (memory.putFirst dn other) dn = some other := by
  obtain ⟨hentry, before, behind, hentries, hbefore⟩ := entry?_eq_some_iff.1 h
  rw [putFirst_eq hentry hentries hbefore]
  exact entry?_eq_some_iff.2 ⟨hother, before, behind, rfl, hbefore⟩

/-- Of two entries put in the same place the later one stays. -/
lemma putFirst_putFirst {third : Record} (h : memory.entry? dn = some entry)
    (hother : isNamed dn other = true) :
    (memory.putFirst dn other).putFirst dn third = memory.putFirst dn third := by
  obtain ⟨hentry, before, behind, hentries, hbefore⟩ := entry?_eq_some_iff.1 h
  rw [putFirst_eq hentry hentries hbefore, putFirst_eq hother rfl hbefore,
    putFirst_eq hentry hentries hbefore]

end PutFirst

lemma changeFirst_eq (dn : String) (change : Change) (entries : List Record) :
    changeFirst dn change entries
      = (entries.find? (isNamed dn)).map fun entry =>
          entries.takeWhile (!isNamed dn ·)
            ++ Record.apply entry change :: (entries.dropWhile (!isNamed dn ·)).tail := by
  induction entries with
  | nil => rfl
  | cons first rest ih =>
    by_cases hnamed : isNamed dn first = true
    · simp [changeFirst, hnamed]
    · rw [changeFirst, if_neg hnamed, ih, List.find?_cons_of_neg hnamed, Option.map_map]
      simp [hnamed, Function.comp_def]

/-- A change takes effect on the entry of the given name, unless it is refused or there is no such
entry. -/
lemma modify_eq_ok_iff {memory after : Memory} {dn : String} {change : Change} :
    memory.modify dn change = .ok after
      ↔ change.target ∉ memory.refused ∧ ∃ entry, memory.entry? dn = some entry
          ∧ after = memory.putFirst dn (Record.apply entry change) := by
  rw [modify, changeFirst_eq]
  by_cases hrefused : change.target ∈ memory.refused
  · rw [if_pos (by simpa using hrefused)]
    exact iff_of_false (fun h => nomatch h) fun h => h.1 hrefused
  · rw [if_neg (by simpa using hrefused), and_iff_right hrefused, entry?]
    cases hentry : memory.entries.find? (isNamed dn) with
    | none => exact iff_of_false (fun h => nomatch h) fun ⟨_, h, _⟩ => nomatch h
    | some entry => simp [putFirst, eq_comm]

/-- A change that is not refused takes effect on the entry of the given name. -/
lemma modify_eq {memory : Memory} {dn : String} {entry : Record} {change : Change}
    (h : memory.entry? dn = some entry) (hallowed : change.target ∉ memory.refused) :
    memory.modify dn change = .ok (memory.putFirst dn (Record.apply entry change)) :=
  modify_eq_ok_iff.2 ⟨hallowed, entry, h, rfl⟩

/-- A change of an entry that is not there fails. -/
lemma modify_eq_error {memory : Memory} {dn : String} {change : Change}
    (h : memory.entry? dn = none) (hallowed : change.target ∉ memory.refused) :
    memory.modify dn change = .error (.entryNotFound dn) := by
  have hnone : memory.entries.find? (isNamed dn) = none := h
  rw [modify, changeFirst_eq, hnone, if_neg (by simpa using hallowed)]
  rfl

/-! ## One change after the other -/

/-- Make one change of an entry after the other; the first that fails ends it. -/
def modifyAll (memory : Memory) (dn : String) (changes : List Change) : Except Error Memory :=
  changes.foldlM (fun memory change => memory.modify dn change) memory

/-- The directory refuses none of the changes, and none of them is a change of the name. -/
def Admits (memory : Memory) (changes : List Change) : Prop :=
  ∀ change ∈ changes, change.target ∉ memory.refused ∧ change.target ≠ dnAttribute

instance (memory : Memory) (changes : List Change) : Decidable (memory.Admits changes) :=
  inferInstanceAs (Decidable
    (∀ change ∈ changes, change.target ∉ memory.refused ∧ change.target ≠ dnAttribute))

/-- The changes, made one after the other, all succeed.  They leave `final` in the place of the
entry, where it is found under the same name, and every other entry as it was. -/
structure LeadsTo (memory : Memory) (dn : String) (changes : List Change) (final : Record) :
    Prop where
  made : memory.modifyAll dn changes = .ok (memory.putFirst dn final)
  found : Memory.entry? (memory.putFirst dn final) dn = some final

section Run

variable {memory : Memory} {dn : String} {entry : Record} {change : Change}
  {changes rest : List Change}

lemma Admits.mono {made : List Change} (h : memory.Admits changes) (hmade : made ⊆ changes) :
    memory.Admits made :=
  fun change hchange => h change (hmade hchange)

/-- After a change that is made the rest is asked of the directory that it leaves. -/
lemma modifyAll_cons_of_ok {after : Memory} (h : memory.modify dn change = .ok after) :
    memory.modifyAll dn (change :: rest) = after.modifyAll dn rest := by
  rw [modifyAll, List.foldlM_cons, h]
  rfl

/-- After a change that fails the rest is not asked. -/
lemma modifyAll_cons_of_error {e : Error} (h : memory.modify dn change = .error e) :
    memory.modifyAll dn (change :: rest) = .error e := by
  rw [modifyAll, List.foldlM_cons, h]
  rfl

/-- When a change fails behind one that is made, the changes lead nowhere. -/
lemma not_leadsTo_of_error {after : Memory} {failing : Change} {e : Error} {final : Record}
    (hmade : memory.modify dn change = .ok after) (hfails : after.modify dn failing = .error e) :
    ¬ memory.LeadsTo dn (change :: failing :: rest) final := by
  intro hleads
  have hall := hleads.made
  rw [modifyAll_cons_of_ok hmade, modifyAll_cons_of_error hfails] at hall
  exact nomatch hall

/-- **Admitted changes do to an entry of the directory what they do to the record.** -/
lemma leadsTo_applyAll (hentry : memory.entry? dn = some entry) (h : memory.Admits changes) :
    memory.LeadsTo dn changes (Record.applyAll entry changes) := by
  -- the entry keeps its name, so the rest finds it where the first change has left it
  induction changes generalizing memory entry with
  | nil =>
    have hself := putFirst_self hentry
    exact ⟨by rw [Record.applyAll_nil, hself]; rfl, by rw [Record.applyAll_nil, hself, hentry]⟩
  | cons change rest ih =>
    obtain ⟨⟨hallowed, hkeeps⟩, hrest⟩ := List.forall_mem_cons.1 h
    have hnamed := isNamed_apply hentry hkeeps
    have hthere := entry?_putFirst hentry hnamed
    have hnext := ih hthere hrest
    rw [Record.applyAll_cons]
    refine ⟨?made, ?found⟩
    case made =>
      rw [modifyAll_cons_of_ok (modify_eq hentry hallowed), hnext.made,
        putFirst_putFirst hentry hnamed]
    case found =>
      rw [← putFirst_putFirst hentry hnamed]
      exact hnext.found

/-- Changes lead to one entry at most. -/
lemma LeadsTo.unique {final other : Record} (h : memory.LeadsTo dn changes final)
    (hother : memory.LeadsTo dn changes other) : final = other := by
  have hsame : memory.putFirst dn final = memory.putFirst dn other :=
    Except.ok.inj (h.made.symm.trans hother.made)
  have hfound := h.found
  rw [hsame, hother.found] at hfound
  exact (Option.some.inj hfound).symm

end Run

end Memory
end EntryClaims
