/-
# No change can be left out

Every change that is asked for is needed: when some of them are left out, a key is left for which
the entry does not hold the wanted strings.  The changes of different keys do not disturb each
other, so it is enough to look at what is left out for one key.  It has at most two changes, and
without the first the entry lacks a wanted string, without the second it holds another one as well.

There is one exception.  When none of the stored strings is wanted, all of them are deleted, and
without the addition the attribute is gone.  The value of the key is then looked up under the next
synonym, and there the entry may hold the wanted strings already.
-/
import EntryClaims.Proofs.Entry.Convergence
import EntryClaims.Proofs.Entry.Keeping
import Mathlib.Data.List.Perm.Subperm

namespace EntryClaims
namespace Record

open SynonymTable (resolve namesFor Rooted Apart)

variable {existing desired : Record} {table : SynonymTable} {protectedKeys : List String}
  {key : String} {wanted : AttributeValue} {made : List Change}

/-! ## Some of the changes for one key -/

lemma sublist_ite_nil {test : Prop} [Decidable test] {change : Change}
    (h : made.Sublist (if test then [] else [change])) : made = [] ∨ ¬ test ∧ made = [change] := by
  split at h
  · exact Or.inl (List.sublist_nil.1 h)
  · next htest => exact (List.sublist_singleton.1 h).imp_right fun e => ⟨htest, e⟩

/-- Of the changes between two sets one can make none, one of the two, or all. -/
lemma sublist_setChanges {target : String} {old new : List String}
    (h : made.Sublist (setChanges target old new)) :
    made = []
      ∨ ValueSet.difference new old ≠ [] ∧ made = [⟨target, .add, ValueSet.difference new old⟩]
      ∨ ValueSet.difference old new ≠ [] ∧ made = [⟨target, .delete, ValueSet.difference old new⟩]
      ∨ made = setChanges target old new := by
  obtain ⟨added, deleted, rfl, hadded, hdeleted⟩ := List.sublist_append_iff.1 h
  rcases sublist_ite_nil hadded with rfl | ⟨hadd, rfl⟩ <;>
    rcases sublist_ite_nil hdeleted with rfl | ⟨hdelete, rfl⟩
  · exact Or.inl rfl
  · exact Or.inr (Or.inr (Or.inl ⟨by simpa using hdelete, rfl⟩))
  · exact Or.inr (Or.inl ⟨by simpa using hadd, rfl⟩)
  · exact Or.inr (Or.inr (Or.inr (by rw [setChanges, if_neg hadd, if_neg hdelete])))

lemma filter_delete_setChanges (target : String) (old new : List String) :
    (setChanges target old new).filter (·.kind = .delete)
      = if (ValueSet.difference old new).isEmpty then []
        else [⟨target, .delete, ValueSet.difference old new⟩] := by
  rw [setChanges, List.filter_append]
  split <;> split <;> rfl

/-! ## The exception -/

/-- Where the value of the key is stored, it is compared with the wanted one as a set, and has no
string in common with it. -/
def Outdated (existing : Record) (table : SynonymTable) (key : String) (wanted : AttributeValue) :
    Prop :=
  ∃ current, existing.get? (resolve table key existing) = some current
    ∧ (current.isMulti = true ∨ wanted.isMulti = true)
    ∧ ∀ text ∈ current.texts, text ∉ wanted.texts

/-- The stored value of the key is outdated, and the entry holds just the wanted strings under the
next name that it has for the key. -/
structure Superseded (existing : Record) (table : SynonymTable) (key : String)
    (wanted : AttributeValue) : Prop where
  outdated : Outdated existing table key wanted
  behind : Settled (existing.erase (resolve table key existing)) table key wanted

/-- A change that leaves nothing removes the attribute. -/
lemma apply_eq_erase {record : Record} {change : Change}
    (h : textsOf (apply record change) change.target = []) :
    apply record change = record.erase change.target := by
  rw [textsOf_apply_self] at h
  rw [apply, h]
  rfl

/-- Where none of the stored strings is wanted, deleting those that are not wanted removes the
attribute. -/
lemma apply_delete_eq_erase {target : String} {new : List String}
    (hne : textsOf existing target ≠ []) (h : ∀ text ∈ textsOf existing target, text ∉ new) :
    apply existing ⟨target, .delete, ValueSet.difference (textsOf existing target) new⟩
      = existing.erase target := by
  refine apply_eq_erase (List.eq_nil_iff_forall_not_mem.2 fun text htext => ?_)
  obtain ⟨hheld, hkept⟩ := (mem_textsOf_delete (ValueSet.difference_ne_nil hne h)).1 htext
  exact hkept (ValueSet.mem_difference.2 ⟨hheld, h text hheld⟩)

/-- An outdated value is changed by an addition and a deletion. -/
lemma Outdated.changesFor_eq (h : Outdated existing table key wanted) (hexisting : Solid existing)
    (hwanted : wanted.Solid) :
    ∃ added, changesFor existing table key wanted
      = [⟨resolve table key existing, .add, added⟩,
          ⟨resolve table key existing, .delete,
            ValueSet.difference (textsOf existing (resolve table key existing)) wanted.texts⟩] := by
  obtain ⟨current, hcurrent, hmulti, hdisjoint⟩ := h
  have hsolid := hexisting.get? hcurrent
  have hdata : hasData existing (resolve table key existing) = true := by
    rw [hasData_of_get? hcurrent, hsolid.hasData]
  rw [textsOf_of_get? hcurrent]
  cases plan_changesFor existing table key wanted with
  | fill hnone heq => simp [hdata] at hnone
  | swap hold _ hnew heq =>
    rw [hold, Option.some.injEq] at hcurrent
    subst hcurrent hnew
    simp [AttributeValue.isMulti] at hmulti
  | @adjust _ hold _ _ heq =>
    rw [hold, Option.some.injEq] at hcurrent
    subst hcurrent
    have hdeleted := ValueSet.difference_ne_nil hsolid.texts_ne_nil hdisjoint
    have hadded := ValueSet.difference_ne_nil hwanted.texts_ne_nil
      fun text hnew hold => hdisjoint text hold hnew
    exact ⟨_, by rw [heq, setChanges, if_neg (by simpa using hadded),
      if_neg (by simpa using hdeleted), List.singleton_append]⟩

/-- The deletion among the changes for an outdated value removes the attribute. -/
lemma Outdated.applyAll_deletions (h : Outdated existing table key wanted)
    (hexisting : Solid existing) (hwanted : wanted.Solid) :
    applyAll existing ((changesFor existing table key wanted).filter (·.kind = .delete))
      = existing.erase (resolve table key existing) := by
  obtain ⟨added, hchanges⟩ := h.changesFor_eq hexisting hwanted
  obtain ⟨current, hcurrent, -, hdisjoint⟩ := h
  have hne : textsOf existing (resolve table key existing) ≠ [] := by
    rw [textsOf_of_get? hcurrent]
    exact (hexisting.get? hcurrent).texts_ne_nil
  rw [← textsOf_of_get? hcurrent] at hdisjoint
  rw [hchanges]
  exact apply_delete_eq_erase hne hdisjoint

/-! ## What settles one key -/

section Adjusted

variable {stored : String} (hstored : resolve table key existing = stored)
  (hthere : existing.contains stored = true)

include hstored hthere

/-- A change where the value is stored that leaves something and settles the key leaves there what
is wanted. -/
lemma same_of_settled_apply {change : Change} (htarget : change.target = stored)
    (hsolid : Solid (apply existing change)) (hleft : textsOf (apply existing change) stored ≠ [])
    (h : Settled (apply existing change) table key wanted) :
    ValueSet.Same (textsOf (apply existing change) stored) wanted.texts := by
  have htargets : ∀ other ∈ [change], other.target = stored := by simpa using htarget
  have hname : resolve table key (apply existing change) = stored :=
    resolve_applyAll_of_contains hstored hthere htargets (hsolid.contains_iff.2 hleft)
  have hsame := h.same
  rwa [hname] at hsame

/-- Additions alone settle a key only when nothing is to be deleted. -/
lemma subset_of_settled_add {texts : List String}
    (hsolid : Solid (apply existing ⟨stored, .add, texts⟩))
    (hheld : textsOf existing stored ≠ [])
    (h : Settled (apply existing ⟨stored, .add, texts⟩) table key wanted) :
    textsOf existing stored ⊆ wanted.texts := by
  have hsame := same_of_settled_apply hstored hthere rfl hsolid (textsOf_add_ne_nil hheld) h
  exact fun text htext => (hsame text).1 (mem_textsOf_add.2 (Or.inl htext))

/-- A deletion alone settles a key only when nothing is to be added, or when nothing stays. -/
lemma subset_or_subset_of_settled_delete {texts : List String} (hne : texts ≠ [])
    (hsolid : Solid (apply existing ⟨stored, .delete, texts⟩))
    (h : Settled (apply existing ⟨stored, .delete, texts⟩) table key wanted) :
    wanted.texts ⊆ textsOf existing stored ∨ textsOf existing stored ⊆ texts := by
  by_cases hleft : textsOf (apply existing ⟨stored, .delete, texts⟩) stored = []
  · refine Or.inr fun text htext => ?_
    by_contra hkept
    exact List.not_mem_nil (hleft ▸ (mem_textsOf_delete hne).2 ⟨htext, hkept⟩)
  · have hsame := same_of_settled_apply hstored hthere rfl hsolid hleft h
    exact Or.inl fun text htext => ((mem_textsOf_delete hne).1 ((hsame text).2 htext)).1

/-- Of the changes between the stored strings and the wanted ones, some settle the key only if they
are all, or the deletion of all that is stored. -/
lemma eq_or_disjoint_of_settled (hexisting : Solid existing) (hne : made ≠ [])
    (hmade : made.Sublist (setChanges stored (textsOf existing stored) wanted.texts))
    (hsolid : Solid (applyAll existing made))
    (h : Settled (applyAll existing made) table key wanted) :
    made = setChanges stored (textsOf existing stored) wanted.texts
      ∨ (∀ text ∈ textsOf existing stored, text ∉ wanted.texts)
        ∧ made = (setChanges stored (textsOf existing stored) wanted.texts).filter
            (·.kind = .delete) := by
  rcases sublist_setChanges hmade with rfl | ⟨hadded, rfl⟩ | ⟨hdeleted, rfl⟩ | hall
  · exact absurd rfl hne
  · have hsub := subset_of_settled_add hstored hthere hsolid (hexisting.contains_iff.1 hthere) h
    have hnone := ValueSet.difference_eq_nil_iff.2 hsub
    exact Or.inl (by simp [setChanges, hadded, hnone])
  · rcases subset_or_subset_of_settled_delete hstored hthere hdeleted hsolid h with hsub | hgone
    · have hnone := ValueSet.difference_eq_nil_iff.2 hsub
      exact Or.inl (by simp [setChanges, hdeleted, hnone])
    · refine Or.inr ⟨fun text htext => (ValueSet.mem_difference.1 (hgone htext)).2, ?_⟩
      rw [filter_delete_setChanges, if_neg (by simpa using hdeleted)]
  · exact Or.inl hall

end Adjusted

/-- Of the changes for a key, all settle it; and if they leave out something, then only the addition
for a key that is superseded. -/
lemma settled_applyAll_iff (hexisting : Solid existing) (hwanted : wanted.Solid)
    (hrooted : Rooted table) (hmade : made.Sublist (changesFor existing table key wanted)) :
    Settled (applyAll existing made) table key wanted ↔
      made = changesFor existing table key wanted
        ∨ Superseded existing table key wanted
          ∧ made = (changesFor existing table key wanted).filter (·.kind = .delete) := by
  constructor
  · intro hsettled
    by_cases hnil : made = []
    · subst hnil
      exact Or.inl (hsettled.changesFor_eq_nil hexisting).symm
    have hsolid : Solid (applyAll existing made) := hexisting.applyAll fun change hchange =>
      empty_not_mem_of_mem_changesFor hexisting hwanted (hmade.subset hchange)
    cases plan_changesFor existing table key wanted with
    | fill hnone heq =>
      rw [heq] at hmade ⊢
      obtain ⟨htest, rfl⟩ := (sublist_ite_nil hmade).resolve_left hnil
      exact Or.inl (if_neg htest).symm
    | swap hold hdata hnew heq =>
      rw [heq] at hmade ⊢
      obtain ⟨htest, rfl⟩ := (sublist_ite_nil hmade).resolve_left hnil
      exact Or.inl (if_neg htest).symm
    | @adjust current hold hdata hmulti heq =>
      have hthere := contains_of_get? hold
      have hparts := hmade
      rw [heq, ← textsOf_of_get? hold] at hparts
      have hcases := eq_or_disjoint_of_settled rfl hthere hexisting hnil hparts hsolid hsettled
      rw [textsOf_of_get? hold, ← heq] at hcases
      refine hcases.imp_right fun h => ?_
      obtain ⟨hdisjoint, hdeletions⟩ := h
      have houtdated : Outdated existing table key wanted := ⟨current, hold, hmulti, hdisjoint⟩
      rw [hdeletions, houtdated.applyAll_deletions hexisting hwanted] at hsettled
      exact ⟨⟨houtdated, hsettled⟩, hdeletions⟩
  · rintro (rfl | ⟨hsuperseded, rfl⟩)
    · exact settled_applyAll_changesFor hexisting hwanted hrooted
    · rw [hsuperseded.outdated.applyAll_deletions hexisting hwanted]
      exact hsuperseded.behind

/-- The changes for a key are of different kinds, a replacement comes alone, and no change of what
carries data lists a string twice. -/
lemma kinds_changesFor (existing : Record) (table : SynonymTable) (key : String)
    (wanted : AttributeValue) :
    ((changesFor existing table key wanted).map Change.kind).Nodup
      ∧ (∀ change ∈ changesFor existing table key wanted, change.kind = .replace →
          changesFor existing table key wanted = [change])
      ∧ (hasData existing (resolve table key existing) = true →
          ∀ change ∈ changesFor existing table key wanted, change.texts.Nodup) := by
  cases plan_changesFor existing table key wanted with
  | fill hnone heq =>
    rw [heq, hnone]
    split <;> simp
  | swap hold hdata hnew heq =>
    rw [heq]
    split <;> simp
  | adjust hold hdata hmulti heq =>
    rw [heq]
    refine ⟨?_, fun change hchange hkind => ?_, fun _ change hchange => (mem_setChanges hchange).2⟩
    · rw [setChanges]
      split <;> split <;> simp
    · rcases mem_setChanges_iff.1 hchange with ⟨-, rfl⟩ | ⟨-, rfl⟩ <;> simp at hkind

/-! ## All changes -/

/-- The changes among the given ones that go to a name of the key. -/
def share (table : SynonymTable) (key : String) (changes : List Change) : List Change :=
  changes.filter (·.target ∈ namesFor table key)

/-- The entry holds the wanted strings of every desired key that is not protected. -/
def AllSettled (entry desired : Record) (table : SynonymTable) (protectedKeys : List String) :
    Prop :=
  ∀ key wanted, desired.get? key = some wanted → key ∉ protectedKeys →
    Settled entry table key wanted

/-- A part of some changes is all of them when every change passes a test for which the part has
all changes that pass. -/
lemma eq_of_filter_eq {asked : List Change} (hmade : made.Sublist asked)
    (h : ∀ change ∈ asked, ∃ keep : Change → Bool,
      keep change = true ∧ made.filter keep = asked.filter keep) : made = asked := by
  have hcount : asked.Subperm made := List.subperm_ext_iff.2 fun change hchange => by
    obtain ⟨keep, hkeep, heq⟩ := h change hchange
    calc asked.count change
        = (asked.filter keep).count change := (List.count_filter hkeep).symm
      _ = (made.filter keep).count change := by rw [heq]
      _ ≤ made.count change := List.Sublist.count_le change List.filter_sublist
  exact hmade.eq_of_length_le hcount.length_le

lemma mem_share {changes : List Change} {change : Change} :
    change ∈ share table key changes ↔ change ∈ changes ∧ change.target ∈ namesFor table key := by
  rw [share, List.mem_filter, decide_eq_true_eq]

lemma share_filter (keep : Change → Bool) (changes : List Change) :
    share table key (changes.filter keep) = (share table key changes).filter keep :=
  List.filter_comm ..

/-- Some of the changes are all of them when they are so for every key. -/
lemma eq_changes_of_share_eq
    (hmade : made.Sublist (changes existing desired table protectedKeys))
    (h : ∀ key wanted, desired.get? key = some wanted → key ∉ protectedKeys →
      share table key made = share table key (changes existing desired table protectedKeys)) :
    made = changes existing desired table protectedKeys := by
  refine eq_of_filter_eq hmade fun change hchange => ?_
  obtain ⟨⟨key, wanted⟩, hpair, hkey, hmem⟩ := mem_changes.1 hchange
  exact ⟨(·.target ∈ namesFor table key), by simpa using target_mem_namesFor hmem,
    h key wanted (OrderedMap.get?_eq_some_iff.2 hpair) hkey⟩

section Shares

variable (hapart : Apart table (managedKeys desired protectedKeys))

include hapart

lemma share_changes (hget : desired.get? key = some wanted) (hkey : key ∉ protectedKeys) :
    share table key (changes existing desired table protectedKeys)
      = changesFor existing table key wanted :=
  filter_changes hapart (OrderedMap.get?_eq_some_iff.1 hget) hkey

/-- Some of the changes settle all keys exactly when those for each key settle it. -/
lemma allSettled_applyAll_iff (hexisting : Solid existing) (hdesired : Solid desired)
    (hrooted : Rooted table)
    (hmade : made.Sublist (changes existing desired table protectedKeys)) :
    AllSettled (applyAll existing made) desired table protectedKeys ↔
      ∀ key wanted, desired.get? key = some wanted → key ∉ protectedKeys →
        share table key made = share table key (changes existing desired table protectedKeys)
          ∨ Superseded existing table key wanted
            ∧ share table key made
              = (share table key (changes existing desired table protectedKeys)).filter
                  (·.kind = .delete) := by
  refine forall₄_congr fun key wanted hget hkey => ?_
  have hshare : (share table key made).Sublist (changesFor existing table key wanted) := by
    rw [← share_changes hapart hget hkey]
    exact hmade.filter _
  have hnames : ∀ name ∈ namesFor table key, (applyAll existing made).get? name
      = (applyAll existing (share table key made)).get? name :=
    fun name hname => get?_applyAll_share hname
  rw [share_changes hapart hget hkey,
    ← settled_applyAll_iff hexisting (hdesired.get? hget) hrooted hshare]
  exact ⟨settled_congr hnames, settled_congr fun name hname => (hnames name hname).symm⟩

/-- For a superseded key one can leave out the addition. -/
lemma exists_settling_of_superseded (hexisting : Solid existing) (hdesired : Solid desired)
    (hrooted : Rooted table) (hget : desired.get? key = some wanted) (hkey : key ∉ protectedKeys)
    (h : Superseded existing table key wanted) :
    ∃ made : List Change, made.Sublist (changes existing desired table protectedKeys)
      ∧ made ≠ changes existing desired table protectedKeys
      ∧ AllSettled (applyAll existing made) desired table protectedKeys := by
  refine ⟨(changes existing desired table protectedKeys).filter fun change =>
      change.target ∉ namesFor table key || change.kind = .delete, List.filter_sublist,
    fun heq => ?_, ?_⟩
  · obtain ⟨added, hchanges⟩ := h.outdated.changesFor_eq hexisting (hdesired.get? hget)
    have hadd : ⟨resolve table key existing, .add, added⟩
        ∈ share table key (changes existing desired table protectedKeys) := by
      rw [share_changes hapart hget hkey, hchanges]
      exact List.mem_cons_self
    obtain ⟨hasked, hname⟩ := mem_share.1 hadd
    simpa [hname] using List.filter_eq_self.1 heq _ hasked
  · rw [allSettled_applyAll_iff hapart hexisting hdesired hrooted List.filter_sublist]
    intro other otherWanted hother hotherKey
    rw [share_filter]
    by_cases hsame : other = key
    · subst hsame
      rw [hget, Option.some.injEq] at hother
      subst hother
      refine Or.inr ⟨h, List.filter_congr fun change hchange => ?_⟩
      simp [(mem_share.1 hchange).2]
    · refine Or.inl (List.filter_eq_self.2 fun change hchange => ?_)
      have hforeign : change.target ∉ namesFor table key :=
        hapart other (mem_managedKeys_of_mem (OrderedMap.get?_eq_some_iff.1 hother) hotherKey) key
          (mem_managedKeys_of_mem (OrderedMap.get?_eq_some_iff.1 hget) hkey) hsame change.target
          (mem_share.1 hchange).2
      simp [hforeign]

end Shares

/-- **No change can be left out**, except the addition for a superseded key.  Let a directory have
the entry and admit the changes, so that it refuses none of them and none of them is a change of the
name.  Some of the changes, made one after the other, all succeed; they settle all managed keys only
if these additions are all that is missing.  So fewer changes do as well exactly when some managed
key is superseded.  The changes for a key are of different kinds, a replacement comes alone, and no
change of what carries data lists a string twice. -/
theorem changes_minimal (hexisting : Solid existing) (hdesired : Solid desired)
    (hrooted : Rooted table) (hapart : Apart table (managedKeys desired protectedKeys))
    {memory : Memory} {dn : String} (hentry : memory.entry? dn = some existing)
    (hadmits : memory.Admits (changes existing desired table protectedKeys)) :
    let asked := changes existing desired table protectedKeys
    (∀ made, made.Sublist asked →
        ∃ final, memory.LeadsTo dn made final
          ∧ (AllSettled final desired table protectedKeys ↔
              ∀ key wanted, desired.get? key = some wanted → key ∉ protectedKeys →
                share table key made = share table key asked
                  ∨ Superseded existing table key wanted
                    ∧ share table key made = (share table key asked).filter (·.kind = .delete)))
      ∧ ((∃ made final, made.Sublist asked ∧ made ≠ asked ∧ memory.LeadsTo dn made final
            ∧ AllSettled final desired table protectedKeys) ↔
          ∃ key wanted, desired.get? key = some wanted ∧ key ∉ protectedKeys
            ∧ Superseded existing table key wanted)
      ∧ ∀ key wanted, desired.get? key = some wanted → key ∉ protectedKeys →
          ((share table key asked).map Change.kind).Nodup
            ∧ (∀ change ∈ share table key asked, change.kind = .replace →
                share table key asked = [change])
            ∧ (hasData existing (resolve table key existing) = true →
                ∀ change ∈ share table key asked, change.texts.Nodup) := by
  intro asked
  have hleads : ∀ made, made.Sublist asked →
      memory.LeadsTo dn made (applyAll existing made) := by
    intro made hmade
    exact Memory.leadsTo_applyAll hentry (hadmits.mono hmade.subset)
  refine ⟨?_, ⟨?_, ?_⟩, ?_⟩
  · intro made hmade
    refine ⟨applyAll existing made, hleads made hmade, ?_⟩
    exact allSettled_applyAll_iff hapart hexisting hdesired hrooted hmade
  · rintro ⟨made, final, hmade, hproper, hfinal, hsettled⟩
    rw [hfinal.unique (hleads made hmade),
      allSettled_applyAll_iff hapart hexisting hdesired hrooted hmade] at hsettled
    -- if no key were superseded, all changes would have been made
    by_contra hnone
    refine hproper (eq_changes_of_share_eq hmade fun key wanted hget hkey => ?_)
    refine (hsettled key wanted hget hkey).resolve_right fun h => ?_
    exact hnone ⟨key, wanted, hget, hkey, h.1⟩
  · rintro ⟨key, wanted, hget, hkey, hsuperseded⟩
    obtain ⟨made, hmade, hproper, hsettled⟩ :=
      exists_settling_of_superseded hapart hexisting hdesired hrooted hget hkey hsuperseded
    exact ⟨made, applyAll existing made, hmade, hproper, hleads made hmade, hsettled⟩
  · intro key wanted hget hkey
    rw [share_changes hapart hget hkey]
    exact kinds_changesFor existing table key wanted

/-- Where one of two mail addresses is kept and a single name takes the place of another, nothing
can be left out. -/
theorem changes_minimal_of_kept_mail :
    let existing : Record := ⟨[("dn", .single "cn=bob"), ("userid", .single "bob"),
      ("mail", .multi ["a", "b"])], by decide⟩
    let desired : Record := ⟨[("uid", .single "rob"), ("mail", .multi ["c", "b", "c"]),
      ("dn", .single "cn=rob")], by decide⟩
    let table : SynonymTable := ⟨[("uid", ["uid", "userid"])], by decide⟩
    let memory : Memory := { entries := [existing] }
    let asked := changes existing desired table ["dn"]
    Solid existing ∧ Solid desired ∧ Rooted table ∧ Apart table (managedKeys desired ["dn"])
      ∧ memory.entry? "cn=bob" = some existing ∧ memory.Admits asked
      ∧ asked = [⟨"uid", .replace, ["rob"]⟩, ⟨"mail", .add, ["c"]⟩, ⟨"mail", .delete, ["a"]⟩]
      ∧ ∀ (made : List Change) (final : Record), made.Sublist asked →
          memory.LeadsTo "cn=bob" made final → AllSettled final desired table ["dn"] →
            made = asked := by
  intro existing desired table memory asked
  have hexisting : Solid existing := by decide
  have hdesired : Solid desired := by decide
  have hrooted : Rooted table := by decide
  have hapart : Apart table (managedKeys desired ["dn"]) := by decide
  have hentry : memory.entry? "cn=bob" = some existing := by decide
  have hadmits : memory.Admits asked := admits_changes (by decide)
  refine ⟨hexisting, hdesired, hrooted, hapart, hentry, hadmits, by decide, ?_⟩
  intro made final hmade hleads hsettled
  by_contra hproper
  obtain ⟨key, wanted, hget, hkey, ⟨current, hcurrent, hmulti, hdisjoint⟩, -⟩ :=
    (changes_minimal hexisting hdesired hrooted hapart hentry hadmits).2.1.1
      ⟨made, final, hmade, hproper, hleads, hsettled⟩
  have hpair : (key, wanted) ∈ desired.toList := OrderedMap.get?_eq_some_iff.1 hget
  simp only [desired, List.mem_cons, Prod.mk.injEq, List.not_mem_nil, or_false] at hpair
  rcases hpair with ⟨rfl, rfl⟩ | ⟨rfl, rfl⟩ | ⟨rfl, rfl⟩
  · -- both names are single, so they are not compared as sets
    obtain rfl : AttributeValue.single "bob" = current := Option.some.inj hcurrent
    simp [AttributeValue.isMulti] at hmulti
  · obtain rfl : AttributeValue.multi ["a", "b"] = current := Option.some.inj hcurrent
    simp at hdisjoint
  · simp at hkey

/-- A stale synonym that holds the desired string already settles the key once the attribute in
front of it is deleted, so nothing need be added. -/
theorem stale_synonym_suffices :
    let existing : Record := ⟨[("dn", .single "cn=bob"), ("uid", .multi ["a", "b"]),
      ("userid", .single "c")], by decide⟩
    let desired : Record := ⟨[("uid", .multi ["c"])], by decide⟩
    let table : SynonymTable := ⟨[("uid", ["uid", "userid"])], by decide⟩
    let memory : Memory := { entries := [existing] }
    let asked := changes existing desired table []
    let made : List Change := [⟨"uid", .delete, ["a", "b"]⟩]
    Solid existing ∧ Solid desired ∧ Rooted table ∧ Apart table (managedKeys desired [])
      ∧ memory.entry? "cn=bob" = some existing
      ∧ asked = [⟨"uid", .add, ["c"]⟩, ⟨"uid", .delete, ["a", "b"]⟩]
      ∧ made.Sublist asked ∧ made ≠ asked
      ∧ ∃ final, memory.LeadsTo "cn=bob" made final ∧ AllSettled final desired table [] := by
  intro existing desired table memory asked made
  have hentry : memory.entry? "cn=bob" = some existing := by decide
  have hadmits : memory.Admits made := by decide
  refine ⟨by decide, by decide, by decide, by decide, hentry, by decide, by decide, by decide,
    applyAll existing made, Memory.leadsTo_applyAll hentry hadmits, ?_⟩
  intro key wanted hget _
  have hpair : (key, wanted) ∈ desired.toList := OrderedMap.get?_eq_some_iff.1 hget
  simp only [desired, List.mem_cons, Prod.mk.injEq, List.not_mem_nil, or_false] at hpair
  obtain ⟨rfl, rfl⟩ := hpair
  exact ⟨.single "c", by decide, fun _ => Iff.rfl⟩

end Record
end EntryClaims
