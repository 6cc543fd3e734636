/-
# Changes bring an entry to its desired state

The changes for a desired record are worked out key by key, against the entry as it was at the
start.  When the names for the keys never overlap, the changes of one key do not disturb those
of another: for the names of a key the whole list of changes does what the changes of that key
alone do, and so does every part of the list that one may have reached.  What holds of one key
therefore holds of all, and a second look at the entry finds nothing more to change.

The changes are made by a directory, which looks the entry up by its name for each of them.  If one
of them were a change of the name, those behind it would find no entry, so the name is left out.
-/
import EntryClaims.Proofs.Directory.Modify
import EntryClaims.Proofs.Entry.Plan
import Mathlib.Data.List.Nodup

namespace EntryClaims
namespace Record

open SynonymTable (resolve namesFor Rooted Apart)

variable {existing desired : Record} {table : SynonymTable} {protectedKeys : List String}
  {key : String} {wanted : AttributeValue}

/-- The desired keys that are not protected. -/
def managedKeys (desired : Record) (protectedKeys : List String) : List String :=
  desired.keys.filter (· ∉ protectedKeys)

lemma mem_managedKeys_of_mem {pair : String × AttributeValue} (hmem : pair ∈ desired.toList)
    (hkey : pair.1 ∉ protectedKeys) : pair.1 ∈ managedKeys desired protectedKeys :=
  List.mem_filter.2 ⟨OrderedMap.mem_keys_of_mem hmem, by simpa using hkey⟩

/-- A change is asked for on account of a desired attribute that is not protected. -/
lemma mem_changes {change : Change} :
    change ∈ changes existing desired table protectedKeys ↔
      ∃ pair ∈ desired.toList, pair.1 ∉ protectedKeys ∧
        change ∈ changesFor existing table pair.1 pair.2 := by
  simp only [changes, List.mem_flatMap]
  refine exists_congr fun pair => and_congr_right fun _ => ?_
  by_cases hkey : pair.1 ∈ protectedKeys <;> simp [hkey]

/-- A protected attribute that belongs to no family is left alone. -/
lemma target_ne_of_protected {name : String} (hname : name ∈ protectedKeys)
    (hfree : ∀ family ∈ table.toList, name ∉ family.2) {change : Change}
    (h : change ∈ changes existing desired table protectedKeys) : change.target ≠ name := by
  obtain ⟨pair, -, hkey, hmem⟩ := mem_changes.1 h
  rintro rfl
  rcases List.mem_cons.1 (target_mem_namesFor hmem) with hself | hfamily
  · exact hkey (hself ▸ hname)
  · cases hget : table.get? pair.1 with
    | none => simp [hget] at hfamily
    | some family =>
      rw [hget, Option.getD_some] at hfamily
      exact hfree _ (OrderedMap.get?_eq_some_iff.1 hget) hfamily

/-- A directory admits all changes when it admits a change of every name for a managed key. -/
lemma admits_changes {memory : Memory}
    (h : ∀ key ∈ managedKeys desired protectedKeys, ∀ name ∈ namesFor table key,
      name ∉ memory.refused ∧ name ≠ dnAttribute) :
    memory.Admits (changes existing desired table protectedKeys) := by
  intro change hchange
  obtain ⟨pair, hpair, hkey, hmem⟩ := mem_changes.1 hchange
  exact h pair.1 (mem_managedKeys_of_mem hpair hkey) change.target (target_mem_namesFor hmem)

lemma changes_eq_nil_iff :
    changes existing desired table protectedKeys = [] ↔
      ∀ pair ∈ desired.toList, pair.1 ∉ protectedKeys →
        changesFor existing table pair.1 pair.2 = [] := by
  rw [changes, List.flatMap_eq_nil_iff]
  refine forall_congr' fun pair => imp_congr_right fun _ => ?_
  by_cases hkey : pair.1 ∈ protectedKeys <;> simp [hkey]

lemma changes_congr {other : Record}
    (h : ∀ key ∈ managedKeys desired protectedKeys, ∀ name ∈ namesFor table key,
      existing.get? name = other.get? name) :
    changes existing desired table protectedKeys = changes other desired table protectedKeys := by
  rw [changes, changes]
  refine List.flatMap_congr fun pair hpair => ?_
  by_cases hkey : pair.1 ∈ protectedKeys
  · simp only [if_pos hkey]
  · simp only [if_neg hkey]
    exact changesFor_congr (h pair.1 (mem_managedKeys_of_mem hpair hkey))

/-! ## The share of one key -/

/-- Among all changes those of the names of a key are the changes for that key. -/
lemma filter_changes (hapart : Apart table (managedKeys desired protectedKeys))
    (hmem : (key, wanted) ∈ desired.toList) (hkey : key ∉ protectedKeys) :
    (changes existing desired table protectedKeys).filter (·.target ∈ namesFor table key)
      = changesFor existing table key wanted := by
  have hmanaged := mem_managedKeys_of_mem hmem hkey
  have hnodup := desired.nodup_keys
  have hothers : ∀ pair ∈ desired.toList, pair.1 ≠ key →
      (if pair.1 ∈ protectedKeys then [] else changesFor existing table pair.1 pair.2).filter
        (fun change => decide (change.target ∈ namesFor table key)) = [] := by
    intro pair hpair hne
    by_cases hprotected : pair.1 ∈ protectedKeys
    · simp [hprotected]
    · rw [if_neg hprotected, List.filter_eq_nil_iff]
      intro change hchange
      simpa using hapart pair.1 (mem_managedKeys_of_mem hpair hprotected) key hmanaged hne
        change.target (target_mem_namesFor hchange)
  have hown : (changesFor existing table key wanted).filter
      (fun change => decide (change.target ∈ namesFor table key))
        = changesFor existing table key wanted := by
    rw [List.filter_eq_self]
    intro change hchange
    simpa using target_mem_namesFor hchange
  -- the key occurs once, so the changes for it stand between those that are filtered out
  obtain ⟨before, behind, hsplit⟩ := List.append_of_mem hmem
  rw [hsplit, Pairs.keys, List.map_append, List.map_cons, List.nodup_middle, List.nodup_cons,
    List.mem_append, not_or] at hnodup
  have hbefore : ∀ pair ∈ before, pair.1 ≠ key := fun pair hpair e =>
    hnodup.1.1 (List.mem_map.2 ⟨pair, hpair, e⟩)
  have hbehind : ∀ pair ∈ behind, pair.1 ≠ key := fun pair hpair e =>
    hnodup.1.2 (List.mem_map.2 ⟨pair, hpair, e⟩)
  rw [hsplit] at hothers
  rw [changes, List.filter_flatMap, hsplit, List.flatMap_append, List.flatMap_cons,
    List.flatMap_eq_nil_iff.2 fun pair hpair => hothers pair (by simp [hpair]) (hbefore pair hpair),
    List.flatMap_eq_nil_iff.2 fun pair hpair => hothers pair (by simp [hpair]) (hbehind pair hpair)]
  simp [hkey, hown]

/-- Under the names of a key, changes made so far have done what those of the key among them
do alone. -/
lemma get?_applyAll_share {made : List Change} {name : String}
    (hname : name ∈ namesFor table key) :
    (applyAll existing made).get? name
      = (applyAll existing (made.filter (·.target ∈ namesFor table key))).get? name :=
  get?_applyAll_filter fun change _ htarget => by simpa [htarget] using hname

/-- Under the names of a key, all changes do what those for the key do alone. -/
lemma get?_applyAll_changes_eq (hapart : Apart table (managedKeys desired protectedKeys))
    (hmem : (key, wanted) ∈ desired.toList) (hkey : key ∉ protectedKeys) {name : String}
    (hname : name ∈ namesFor table key) :
    (applyAll existing (changes existing desired table protectedKeys)).get? name
      = (applyAll existing (changesFor existing table key wanted)).get? name := by
  rw [← filter_changes hapart hmem hkey]
  exact get?_applyAll_share hname

lemma settled_congr {entry other : Record}
    (h : ∀ name ∈ namesFor table key, entry.get? name = other.get? name)
    (hsettled : Settled entry table key wanted) : Settled other table key wanted := by
  obtain ⟨value, hget, hsame⟩ := hsettled
  refine ⟨value, ?_, hsame⟩
  rw [← SynonymTable.resolve_congr_get? h,
    ← h _ (SynonymTable.resolve_mem_namesFor table key entry), hget]

/-! ## All keys -/

/-- After all changes the wanted strings of every managed key are in place. -/
lemma settled_applyAll_changes (hexisting : Solid existing) (hdesired : Solid desired)
    (hrooted : Rooted table) (hapart : Apart table (managedKeys desired protectedKeys))
    (hget : desired.get? key = some wanted) (hkey : key ∉ protectedKeys) :
    Settled (applyAll existing (changes existing desired table protectedKeys)) table key
      wanted := by
  have hmem := OrderedMap.get?_eq_some_iff.1 hget
  -- the changes of the key settle it, and under its names all changes do the same
  have hown : Settled (applyAll existing (changesFor existing table key wanted)) table key wanted :=
    settled_applyAll_changesFor hexisting (hdesired.get? hget) hrooted
  refine settled_congr (fun name hname => ?_) hown
  exact (get?_applyAll_changes_eq hapart hmem hkey hname).symm

/-- What is not the name where the value for a managed key is stored afterwards stays as it is. -/
lemma get?_applyAll_changes_of_ne (hexisting : Solid existing) (hdesired : Solid desired)
    (hrooted : Rooted table) (hapart : Apart table (managedKeys desired protectedKeys))
    {name : String} (hname : ∀ key ∈ managedKeys desired protectedKeys,
      name ≠ resolve table key
        (applyAll existing (changes existing desired table protectedKeys))) :
    (applyAll existing (changes existing desired table protectedKeys)).get? name
      = existing.get? name := by
  refine get?_applyAll_of_forall_ne fun change hchange htarget => ?_
  obtain ⟨⟨key, wanted⟩, hpair, hkey, hmem⟩ := mem_changes.1 hchange
  refine hname key (mem_managedKeys_of_mem hpair hkey) ?_
  rw [← htarget, target_eq_resolve hexisting (hdesired _ hpair) hrooted hmem]
  refine SynonymTable.resolve_congr_get? fun other hother => ?_
  exact (get?_applyAll_changes_eq hapart hpair hkey hother).symm

/-- What is not a name for a managed key stays as it is. -/
lemma get?_applyAll_changes {name : String}
    (hname : ∀ key ∈ managedKeys desired protectedKeys, name ∉ namesFor table key) :
    (applyAll existing (changes existing desired table protectedKeys)).get? name
      = existing.get? name := by
  refine get?_applyAll_of_forall_ne fun change hchange htarget => ?_
  obtain ⟨pair, hpair, hkey, hmem⟩ := mem_changes.1 hchange
  exact hname pair.1 (mem_managedKeys_of_mem hpair hkey) (htarget ▸ target_mem_namesFor hmem)

lemma empty_not_mem_of_mem_changes (hexisting : Solid existing) (hdesired : Solid desired)
    {change : Change} (h : change ∈ changes existing desired table protectedKeys) :
    "" ∉ change.texts := by
  obtain ⟨pair, hpair, -, hmem⟩ := mem_changes.1 h
  exact empty_not_mem_of_mem_changesFor hexisting (hdesired pair hpair) hmem

lemma solid_applyAll_changes (hexisting : Solid existing) (hdesired : Solid desired) :
    Solid (applyAll existing (changes existing desired table protectedKeys)) :=
  hexisting.applyAll fun _ => empty_not_mem_of_mem_changes hexisting hdesired

/-- However far one has come, what carried data at the start still does. -/
lemma hasData_applyAll_changes (hexisting : Solid existing) (hdesired : Solid desired)
    (hapart : Apart table (managedKeys desired protectedKeys)) {made : List Change}
    (hmade : made <+: changes existing desired table protectedKeys) {name : String}
    (h : hasData existing name = true) : hasData (applyAll existing made) name = true := by
  by_cases htouched : ∃ pair ∈ desired.toList, pair.1 ∉ protectedKeys ∧
      name ∈ namesFor table pair.1
  · obtain ⟨⟨key, wanted⟩, hpair, hkey, hname⟩ := htouched
    have hshare : made.filter (·.target ∈ namesFor table key)
        <+: changesFor existing table key wanted := by
      rw [← filter_changes hapart hpair hkey]
      exact hmade.filter _
    rw [hasData, get?_applyAll_share hname]
    exact hasData_applyAll_prefix hexisting (hdesired _ hpair) hshare h
  · rw [hasData, get?_applyAll_of_forall_ne]
    · exact h
    · intro change hchange htarget
      obtain ⟨pair, hpair, hkey, hmem⟩ := mem_changes.1 (hmade.subset hchange)
      exact htouched ⟨pair, hpair, hkey, htarget ▸ target_mem_namesFor hmem⟩

/-- **Reconciliation converges.**  Let a directory have the entry and admit the changes, so that it
refuses none of them and none of them is a change of the name.  Made one after the other, they all
succeed and lead to an entry in which every managed key has exactly the wanted strings under the
first name of its family that is present; no other attribute is touched, at no stage is one that
carried data without, and a second look finds nothing to change. -/
theorem changes_converge (hexisting : Solid existing) (hdesired : Solid desired)
    (hrooted : Rooted table) (hapart : Apart table (managedKeys desired protectedKeys))
    {memory : Memory} {dn : String} (hentry : memory.entry? dn = some existing)
    (hadmits : memory.Admits (changes existing desired table protectedKeys)) :
    let asked := changes existing desired table protectedKeys
    ∃ final, memory.LeadsTo dn asked final
      ∧ (∀ key wanted, desired.get? key = some wanted → key ∉ protectedKeys →
          Settled final table key wanted)
      ∧ (∀ name, (∀ key ∈ managedKeys desired protectedKeys, name ∉ namesFor table key) →
          final.get? name = existing.get? name)
      ∧ (∀ n, ∃ stage, memory.LeadsTo dn (asked.take n) stage
          ∧ ∀ name, hasData existing name = true → hasData stage name = true)
      ∧ changes final desired table protectedKeys = [] := by
  intro asked
  refine ⟨applyAll existing asked, Memory.leadsTo_applyAll hentry hadmits, ?_, ?_, ?_, ?_⟩
  · intro key wanted hget hkey
    exact settled_applyAll_changes hexisting hdesired hrooted hapart hget hkey
  · intro name hname
    exact get?_applyAll_changes hname
  · intro n
    have hadmitted : memory.Admits (asked.take n) := hadmits.mono (List.take_subset n asked)
    refine ⟨applyAll existing (asked.take n), Memory.leadsTo_applyAll hentry hadmitted, ?_⟩
    intro name hdata
    exact hasData_applyAll_changes hexisting hdesired hapart (List.take_prefix n asked) hdata
  · rw [changes_eq_nil_iff]
    intro pair hpair hkey
    have hsettled := settled_applyAll_changes hexisting hdesired hrooted hapart
      (OrderedMap.get?_eq_some_iff.2 hpair) hkey
    exact hsettled.changesFor_eq_nil (solid_applyAll_changes hexisting hdesired)

/-- An entry that holds the value under a synonym of the key gets a new one under the key; its name
is protected. -/
theorem changes_converge_of_stale_synonym :
    let existing : Record := ⟨[("dn", .single "uid=bob"), ("userid", .single "bob"),
      ("mail", .multi ["a", "b"]), ("cn", .single "Bob")], by decide⟩
    let desired : Record := ⟨[("uid", .single "rob"), ("mail", .multi ["c", "b", "c"]),
      ("dn", .single "uid=rob")], by decide⟩
    let table : SynonymTable := ⟨[("uid", ["uid", "userid"])], by decide⟩
    let memory : Memory := { entries := [OrderedMap.empty, existing], refused := ["cn"] }
    let asked := changes existing desired table ["dn"]
    Solid existing ∧ Solid desired ∧ Rooted table ∧ Apart table (managedKeys desired ["dn"])
      ∧ memory.entry? "uid=bob" = some existing ∧ memory.Admits asked
      ∧ asked = [⟨"uid", .replace, ["rob"]⟩, ⟨"mail", .add, ["c"]⟩, ⟨"mail", .delete, ["a"]⟩]
      ∧ ∃ final, memory.LeadsTo "uid=bob" asked final
          ∧ changes final desired table ["dn"] = [] := by
  intro existing desired table memory asked
  have hexisting : Solid existing := by decide
  have hdesired : Solid desired := by decide
  have hrooted : Rooted table := by decide
  have hapart : Apart table (managedKeys desired ["dn"]) := by decide
  have hentry : memory.entry? "uid=bob" = some existing := by decide
  have hadmits : memory.Admits asked := admits_changes (by decide)
  obtain ⟨final, hleads, -, -, -, hagain⟩ :=
    changes_converge hexisting hdesired hrooted hapart hentry hadmits
  exact ⟨hexisting, hdesired, hrooted, hapart, hentry, hadmits, by decide, final, hleads, hagain⟩

/-- Where the name itself is desired and comes first, the entry gets the new name.  The change
behind it then finds no entry of the old one, and the other attribute stays as it was. -/
theorem changes_fail_after_rename :
    let existing : Record := ⟨[("dn", .single "uid=bob"), ("cn", .single "Bob")], by decide⟩
    let desired : Record := ⟨[("dn", .single "uid=rob"), ("cn", .single "Rob")], by decide⟩
    let renamed : Record := ⟨[("dn", .single "uid=rob"), ("cn", .single "Bob")], by decide⟩
    let table : SynonymTable := OrderedMap.empty
    let memory : Memory := { entries := [existing] }
    let after : Memory := { entries := [renamed] }
    let asked := changes existing desired table []
    Solid existing ∧ Solid desired ∧ Rooted table ∧ Apart table (managedKeys desired [])
      ∧ memory.entry? "uid=bob" = some existing
      ∧ asked = [⟨"dn", .replace, ["uid=rob"]⟩, ⟨"cn", .replace, ["Rob"]⟩]
      ∧ memory.modify "uid=bob" ⟨"dn", .replace, ["uid=rob"]⟩ = .ok after
      ∧ after.modify "uid=bob" ⟨"cn", .replace, ["Rob"]⟩ = .error (.entryNotFound "uid=bob")
      ∧ (∀ final, ¬ memory.LeadsTo "uid=bob" asked final)
      ∧ ¬ Settled renamed table "cn" (.single "Rob") := by
  intro existing desired renamed table memory after asked
  have hentry : memory.entry? "uid=bob" = some existing := by decide
  have hasked : asked = [⟨"dn", .replace, ["uid=rob"]⟩, ⟨"cn", .replace, ["Rob"]⟩] := by decide
  have hmade : memory.modify "uid=bob" ⟨"dn", .replace, ["uid=rob"]⟩ = .ok after :=
    Memory.modify_eq_ok_iff.2 ⟨by decide, existing, hentry, by decide⟩
  have hfails : after.modify "uid=bob" ⟨"cn", .replace, ["Rob"]⟩
      = .error (.entryNotFound "uid=bob") :=
    Memory.modify_eq_error (by decide) (by decide)
  have hnowhere : ∀ final, ¬ memory.LeadsTo "uid=bob" asked final := by
    intro final
    rw [hasked]
    exact Memory.not_leadsTo_of_error hmade hfails
  refine ⟨by decide, by decide, by decide, by decide, hentry, hasked, hmade, hfails, hnowhere, ?_⟩
  rintro ⟨value, hget, hsame⟩
  obtain rfl : AttributeValue.single "Bob" = value := Option.some.inj hget
  exact absurd ((hsame "Bob").1 (by decide)) (by decide)

end Record
end EntryClaims
