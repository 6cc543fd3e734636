/-
# A strict server accepts the changes

A strict server refuses to add what is held and to delete what is not.  Whether it accepts a change
depends only on which strings the attribute holds, and what it makes of one is, up to the order of
the strings, what any directory makes of it.  So it is enough to look at the lenient run: if each
change could be accepted at the stage that the changes before it lead to, the strict run goes
through, and its entry holds the same strings at every stage.

For one key the three plans are each in order: what is filled in was missing, a replacement is never
refused, and between two sets only missing strings are added and only held ones deleted.  When the
names for the keys never overlap, the stage at which a change is made differs from the one its key
alone leads to only under names that the change does not touch.
-/
import EntryClaims.Ldap.Strict
import EntryClaims.Proofs.Entry.Convergence

namespace EntryClaims

open SynonymTable (resolve namesFor Apart)

/-! ## Value sets -/

namespace Ldap

lemma same_valueSet (texts : List String) : ValueSet.Same (valueSet texts) texts := fun _ =>
  mem_valueSet

lemma valueSet_ne_nil {texts : List String} (h : texts ≠ []) : valueSet texts ≠ [] :=
  (same_valueSet texts).symm.ne_nil h

end Ldap

/-! ## Up to the order and the number of the strings -/

namespace ValueSet.Same

variable {current other : List String} {change sent : Change}

lemma eq_nil_iff (h : Same current other) : current = [] ↔ other = [] := by
  constructor
  · intro hnil
    exact nil_iff.1 (hnil ▸ h)
  · intro hnil
    exact nil_iff.1 (hnil ▸ h.symm)

/-- What a change leaves depends, as a set, only on the sets that it is made from. -/
lemma after (h : Same current other) (hkind : sent.kind = change.kind)
    (htexts : Same sent.texts change.texts) : Same (sent.after current) (change.after other) := by
  have hempty : sent.texts = [] ↔ change.texts = [] := htexts.eq_nil_iff
  intro text
  rw [Change.after, Change.after, hkind]
  cases change.kind with
  | add => simp only [mem_addAll, h text, htexts text]
  | replace => exact htexts text
  | delete =>
    by_cases hnil : change.texts = []
    · simp [hnil, hempty.2 hnil]
    · simp [hnil, mt hempty.1 hnil, h text, htexts text]

lemma admits_eq (h : Same current other) (hkind : sent.kind = change.kind)
    (htexts : Same sent.texts change.texts) :
    Ldap.admits current sent = Ldap.admits other change := by
  have hempty : sent.texts.isEmpty = change.texts.isEmpty := by
    rw [Bool.eq_iff_iff, List.isEmpty_iff, List.isEmpty_iff]
    exact htexts.eq_nil_iff
  rw [Ldap.admits, Ldap.admits, hempty, hkind, Bool.eq_iff_iff]
  cases change.kind <;> simp [h _, htexts _]

end ValueSet.Same

namespace Record

/-- Two records hold the same strings in every attribute. -/
def Alike (record other : Record) : Prop :=
  ∀ name, ValueSet.Same (textsOf record name) (textsOf other name)

@[refl] lemma Alike.refl (record : Record) : Alike record record := fun _ => ValueSet.Same.refl _

lemma Alike.apply {record other : Record} (h : Alike record other) (change : Change) :
    Alike (apply record (Ldap.changeSent change)) (apply other change) := by
  intro name
  by_cases hname : name = change.target
  · subst hname
    rw [textsOf_apply_self other change]
    refine (textsOf_apply_self record (Ldap.changeSent change)).symm ▸ ?_
    exact (h _).after rfl (Ldap.same_valueSet _)
  · have hsent : name ≠ (Ldap.changeSent change).target := hname
    rw [textsOf_apply_of_ne hsent, textsOf_apply_of_ne hname]
    exact h name

end Record

namespace Ldap

open Record (applyAll textsOf Alike changes changesFor setChanges Filled managedKeys)

variable {existing desired record : Record} {table : SynonymTable} {protectedKeys : List String}
  {key : String} {wanted : AttributeValue} {change : Change} {made rest : List Change}

/-! ## Changes that could be accepted one after the other -/

/-- Each change could be accepted at the stage that the changes before it lead to. -/
def AdmittedInTurn : Record → List Change → Prop
  | _, [] => True
  | record, change :: rest =>
    admits (textsOf record change.target) change = true
      ∧ AdmittedInTurn (Record.apply record change) rest

lemma admittedInTurn_append :
    AdmittedInTurn record (made ++ rest)
      ↔ AdmittedInTurn record made ∧ AdmittedInTurn (applyAll record made) rest := by
  induction made generalizing record with
  | nil => simp [AdmittedInTurn]
  | cons change more ih => simp only [List.cons_append, AdmittedInTurn, ih, and_assoc]; rfl

lemma AdmittedInTurn.admits (h : AdmittedInTurn record (made ++ change :: rest)) :
    admits (textsOf (applyAll record made) change.target) change = true :=
  (admittedInTurn_append.1 h).2.1

lemma admittedInTurn_of_forall {asked : List Change}
    (h : ∀ made change rest, asked = made ++ change :: rest →
      Ldap.admits (textsOf (applyAll record made) change.target) change = true) :
    AdmittedInTurn record asked := by
  induction asked generalizing record with
  | nil => trivial
  | cons first others ih =>
    refine ⟨h [] first others rfl, ih fun made change rest heq => ?_⟩
    exact h (first :: made) change rest (by rw [heq]; rfl)

lemma texts_ne_nil_of_admits {current : List String} (h : admits current change = true) :
    change.texts ≠ [] := by
  rw [admits, Bool.and_eq_true] at h
  simpa using h.1

/-- A change that could be accepted of an entry is accepted of one with the same strings. -/
lemma strictApply?_eq {entry : Record} (halike : Alike entry record)
    (h : admits (textsOf record change.target) change = true) :
    strictApply? entry change = some (Record.apply entry (changeSent change)) := by
  rw [strictApply?]
  refine if_pos ?_
  rw [← h]
  exact (halike change.target).admits_eq rfl (same_valueSet _)

/-- What could be accepted in turn is accepted, and the entry stays the same up to the order of the
strings. -/
lemma exists_strictApplyAll? {entry : Record} (halike : Alike entry record) {asked : List Change}
    (h : AdmittedInTurn record asked) :
    ∃ final, strictApplyAll? entry asked = some final ∧ Alike final (applyAll record asked) := by
  induction asked generalizing entry record with
  | nil => exact ⟨entry, rfl, halike⟩
  | cons change rest ih =>
    obtain ⟨hadmits, hrest⟩ := h
    obtain ⟨final, hfinal, hsame⟩ := ih (halike.apply change) hrest
    refine ⟨final, ?_, hsame⟩
    rw [strictApplyAll?, List.foldlM_cons, strictApply?_eq halike hadmits]
    exact hfinal

/-! ## The changes for one key -/

lemma admittedInTurn_additions {target : String} {texts : List String}
    (h : ∀ text ∈ texts, text ∉ textsOf record target) :
    AdmittedInTurn record (if texts.isEmpty then [] else [⟨target, .add, texts⟩]) := by
  by_cases hnil : texts = []
  · simp [hnil, AdmittedInTurn]
  · simpa [hnil, AdmittedInTurn, Ldap.admits] using h

lemma admittedInTurn_deletions {target : String} {texts : List String}
    (h : ∀ text ∈ texts, text ∈ textsOf record target) :
    AdmittedInTurn record (if texts.isEmpty then [] else [⟨target, .delete, texts⟩]) := by
  by_cases hnil : texts = []
  · simp [hnil, AdmittedInTurn]
  · simpa [hnil, AdmittedInTurn, Ldap.admits] using h

lemma admittedInTurn_setChanges (record : Record) (target : String) (new : List String) :
    AdmittedInTurn record (setChanges target (textsOf record target) new) := by
  rw [setChanges, admittedInTurn_append]
  constructor
  · exact admittedInTurn_additions fun text htext => (ValueSet.mem_difference.1 htext).2
  · -- the additions have taken nothing away
    refine admittedInTurn_deletions fun text htext => ?_
    exact Record.mem_textsOf_additions.2 (Or.inl (ValueSet.mem_difference.1 htext).1)

lemma admittedInTurn_changesFor (hexisting : Filled existing) :
    AdmittedInTurn existing (changesFor existing table key wanted) := by
  cases Record.plan_changesFor existing table key wanted with
  | fill hnone heq =>
    -- no name of the family is there, so the key holds nothing
    have habsent : existing.contains (resolve table key existing) = false := by
      rwa [hexisting.hasData_eq] at hnone
    have hkey : resolve table key existing = key := SynonymTable.resolve_eq_of_not_contains habsent
    have hnothing : textsOf existing key = [] := by
      rw [hkey, OrderedMap.contains, Option.isSome_eq_false_iff,
        Option.isNone_iff_eq_none] at habsent
      rw [textsOf, habsent]
      rfl
    rw [heq]
    exact admittedInTurn_additions fun text _ => by simp [hnothing]
  | @swap old new hold hdata hnew heq =>
    rw [heq]
    split <;> simp [AdmittedInTurn, Ldap.admits]
  | @adjust current hold hdata hmulti heq =>
    rw [heq, ← Record.textsOf_of_get? hold]
    exact admittedInTurn_setChanges existing _ _

/-- A deletion for a key comes last, and leaves the wanted strings. -/
lemma textsOf_ne_nil_of_delete (hwanted : wanted.hasData = true)
    (hsplit : changesFor existing table key wanted = made ++ change :: rest)
    (hdelete : change.kind = .delete) :
    textsOf (applyAll existing (made ++ [change])) change.target ≠ [] := by
  have hmem : change ∈ changesFor existing table key wanted := by simp [hsplit]
  cases Record.plan_changesFor existing table key wanted with
  | fill hnone heq =>
    rw [heq, List.mem_ite_nil_left, List.mem_singleton] at hmem
    rw [hmem.2] at hdelete
    simp at hdelete
  | swap hold hdata hnew heq =>
    rw [heq, List.mem_ite_nil_left, List.mem_singleton] at hmem
    rw [hmem.2] at hdelete
    simp at hdelete
  | @adjust current hold hdata hmulti heq =>
    have hprefix : made ++ [change]
        <+: setChanges (resolve table key existing) current.texts wanted.texts := by
      rw [← heq, hsplit]
      exact ⟨rest, by simp⟩
    have htarget : change.target = resolve table key existing :=
      (Record.mem_setChanges (heq ▸ hmem)).1
    rcases Record.prefix_setChanges hprefix with hnone | hadd | hall
    · simp at hnone
    · obtain ⟨-, rfl⟩ : made = [] ∧ change = _ := by
        simpa [List.append_eq_singleton_iff] using hadd
      simp at hdelete
    · have hsame :=
        Record.same_textsOf_setChanges existing (resolve table key existing) wanted.texts
      rw [Record.textsOf_of_get? hold] at hsame
      rw [hall, htarget]
      refine hsame.symm.ne_nil ?_
      rintro hnil
      cases wanted <;> simp_all [AttributeValue.hasData]

/-! ## All changes -/

/-- The stage at which a change is made, seen from the key that it is made for. -/
lemma exists_share (hapart : Apart table (managedKeys desired protectedKeys))
    (hsplit : changes existing desired table protectedKeys = made ++ change :: rest) :
    ∃ pair ∈ desired.toList, ∃ own others,
      changesFor existing table pair.1 pair.2 = own ++ change :: others
        ∧ textsOf (applyAll existing made) change.target
            = textsOf (applyAll existing own) change.target
        ∧ textsOf (applyAll existing (made ++ [change])) change.target
            = textsOf (applyAll existing (own ++ [change])) change.target := by
  obtain ⟨⟨key, wanted⟩, hpair, hkey, hmem⟩ :=
    Record.mem_changes.1 (show change ∈ changes existing desired table protectedKeys by
      simp [hsplit])
  have hname := Record.target_mem_namesFor hmem
  have hshare : (changes existing desired table protectedKeys).filter
      (·.target ∈ namesFor table key) = changesFor existing table key wanted :=
    Record.filter_changes hapart hpair hkey
  rw [hsplit, List.filter_append, List.filter_cons_of_pos (by simpa using hname)] at hshare
  refine ⟨(key, wanted), hpair, _, _, hshare.symm, ?_, ?_⟩
  · exact Record.textsOf_congr (Record.get?_applyAll_share hname)
  · have hwhole : (applyAll existing (made ++ [change])).get? change.target
        = (applyAll existing ((made ++ [change]).filter (·.target ∈ namesFor table key))).get?
            change.target :=
      Record.get?_applyAll_share hname
    rw [List.filter_append, List.filter_cons_of_pos (by simpa using hname), List.filter_nil]
      at hwhole
    exact Record.textsOf_congr hwhole

lemma admittedInTurn_changes (hexisting : Filled existing)
    (hapart : Apart table (managedKeys desired protectedKeys)) :
    AdmittedInTurn existing (changes existing desired table protectedKeys) := by
  refine admittedInTurn_of_forall fun made change rest hsplit => ?_
  obtain ⟨pair, -, own, others, hown, hstage, -⟩ := exists_share hapart hsplit
  have hadmitted : AdmittedInTurn existing (changesFor existing table pair.1 pair.2) :=
    admittedInTurn_changesFor hexisting
  rw [hown] at hadmitted
  rw [hstage]
  exact hadmitted.admits

/-- **Nothing is refused by a strict server.**  The changes that bring an entry to its desired state
are sent one after the other, each as a set of values.  None of these sets is empty, every change is
accepted at the stage it is made, and a deletion leaves something in its attribute.  In the end the
entry holds the strings that it would hold in any other directory. -/
theorem changes_accepted (hexisting : Filled existing) (hdesired : Filled desired)
    (hapart : Apart table (managedKeys desired protectedKeys)) :
    let asked := changes existing desired table protectedKeys
    (∀ n change, asked[n]? = some change →
      ∃ before after, strictApplyAll? existing (asked.take n) = some before
        ∧ (changeSent change).texts ≠ []
        ∧ strictApply? before change = some after
        ∧ (change.kind = .delete → textsOf after change.target ≠ []))
      ∧ ∃ final, strictApplyAll? existing asked = some final
        ∧ Alike final (applyAll existing asked) := by
  intro asked
  have hadmitted : AdmittedInTurn existing asked := admittedInTurn_changes hexisting hapart
  refine ⟨fun n change hchange => ?_, exists_strictApplyAll? (Alike.refl existing) hadmitted⟩
  have hsplit : asked = asked.take n ++ change :: asked.drop (n + 1) := by
    obtain ⟨hlt, hget⟩ := List.getElem?_eq_some_iff.1 hchange
    rw [← hget, List.getElem_cons_drop, List.take_append_drop]
  rw [hsplit] at hadmitted
  have hadmits := hadmitted.admits
  obtain ⟨before, hbefore, halike⟩ :=
    exists_strictApplyAll? (Alike.refl existing) (admittedInTurn_append.1 hadmitted).1
  refine ⟨before, Record.apply before (changeSent change), hbefore,
    valueSet_ne_nil (texts_ne_nil_of_admits hadmits), strictApply?_eq halike hadmits, ?_⟩
  intro hdelete
  obtain ⟨pair, hpair, own, others, hown, -, hstage⟩ := exists_share hapart hsplit
  have hleft := textsOf_ne_nil_of_delete (hdesired pair hpair) hown hdelete
  rw [← hstage, Record.applyAll_append] at hleft
  exact (halike.apply change change.target).symm.ne_nil hleft

/-- The entry holds a value twice and the login under a synonym, and strings are wanted twice. -/
theorem changes_accepted_of_repeated_values :
    let existing : Record := ⟨[("userid", .single "bob"), ("mail", .multi ["a", "b", "a"])],
      by decide⟩
    let desired : Record := ⟨[("uid", .multi ["rob", "bob", "rob"]), ("mail", .single "c"),
      ("cn", .multi ["Rob", "Rob"])], by decide⟩
    let table : SynonymTable := ⟨[("uid", ["uid", "userid"])], by decide⟩
    let asked := changes existing desired table ["dn"]
    Filled existing ∧ Filled desired ∧ Apart table (managedKeys desired ["dn"])
      ∧ asked = [⟨"userid", .add, ["rob"]⟩, ⟨"mail", .add, ["c"]⟩, ⟨"mail", .delete, ["a", "b"]⟩,
          ⟨"cn", .add, ["Rob", "Rob"]⟩]
      ∧ ∃ final, strictApplyAll? existing asked = some final
          ∧ Alike final (applyAll existing asked) := by
  intro existing desired table asked
  have hexisting : Filled existing := by decide
  have hdesired : Filled desired := by decide
  have hapart : Apart table (managedKeys desired ["dn"]) := by decide
  exact ⟨hexisting, hdesired, hapart, by decide, (changes_accepted hexisting hdesired hapart).2⟩

end Ldap
end EntryClaims
