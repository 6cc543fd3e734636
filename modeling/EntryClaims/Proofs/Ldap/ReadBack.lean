/-
# Entries that are sent and read back

A server takes an attribute as a set of values, and gives the attributes and their values back in
any order.  The record of what it gives back has the same attributes as the one that was sent, now
sorted by name, and each holds the same set of strings.  What may differ is the shape, the order and
the number of times that a string is listed, and none of this counts when an entry is compared with
a desired record: a single string is compared with a single string only where both sets have one
member, and everything else is compared as sets.  Nor do synonyms count, since every attribute is
found under its own name.
-/
import EntryClaims.Ldap.Entry
import EntryClaims.Proofs.Entry.Convergence
import EntryClaims.Proofs.Maps

namespace EntryClaims
namespace Ldap

open Record (Solid)
open ValueSet (Same)

variable {record : Record} {entry : FoundEntry} {name : String} {values : List String}
  {value wanted : AttributeValue}

/-! ## What is sent, and what comes back -/

/-- The attributes of a record come back, in some order and each with its values in some order. -/
structure Returned (record : Record) (entry : FoundEntry) : Prop where
  /-- The attributes that come back are those that were sent. -/
  names : entry.attributes.keys.Perm (Pairs.keys (attributesOf record))
  /-- Each comes back with the values it was sent with. -/
  values : ∀ sent ∈ attributesOf record, ∃ found,
    entry.attributes.get? sent.1 = some found ∧ found.Perm sent.2

lemma mem_attributesOf :
    (name, values) ∈ attributesOf record ↔
      ∃ value, record.get? name = some value ∧ name ≠ dnAttribute ∧ value.hasData = true
        ∧ values = valueSet value.texts := by
  simp only [attributesOf, List.mem_map, List.mem_filter, Bool.and_eq_true, bne_iff_ne, Prod.exists,
    Prod.mk.injEq, OrderedMap.get?_eq_some_iff]
  constructor
  · rintro ⟨_, value, ⟨hmem, hname, hdata⟩, rfl, rfl⟩
    exact ⟨value, hmem, hname, hdata, rfl⟩
  · rintro ⟨value, hmem, hname, hdata, rfl⟩
    exact ⟨name, value, ⟨hmem, hname, hdata⟩, rfl, rfl⟩

/-- What was sent comes back. -/
lemma Returned.exists_found (h : Returned record entry) (hget : record.get? name = some value)
    (hname : name ≠ dnAttribute) (hdata : value.hasData = true) :
    ∃ found, entry.attributes.get? name = some found ∧ found.Perm (valueSet value.texts) :=
  h.values (name, valueSet value.texts) (mem_attributesOf.2 ⟨value, hget, hname, hdata, rfl⟩)

/-- What comes back was sent. -/
lemma Returned.exists_sent (h : Returned record entry)
    (hfound : entry.attributes.get? name = some values) :
    ∃ value, record.get? name = some value ∧ name ≠ dnAttribute ∧ value.hasData = true
      ∧ values.Perm (valueSet value.texts) := by
  have hkey : name ∈ Pairs.keys (attributesOf record) :=
    h.names.mem_iff.1 (OrderedMap.mem_keys_iff.2 (by rw [hfound]; rfl))
  obtain ⟨⟨_, sent⟩, hsent, rfl⟩ := List.mem_map.1 hkey
  obtain ⟨value, hget, hname, hdata, rfl⟩ := mem_attributesOf.1 hsent
  obtain ⟨found, hget', hperm⟩ := h.exists_found hget hname hdata
  rw [hfound, Option.some.injEq] at hget'
  exact ⟨value, hget, hname, hdata, hget' ▸ hperm⟩

/-! ## The record of a received entry -/

/-- Pairs in the order of their names. -/
def byName {β : Type} (pairs : List (String × β)) : List (String × β) :=
  pairs.mergeSort fun a b => decide (a.1 ≤ b.1)

lemma perm_byName {β : Type} (pairs : List (String × β)) : (byName pairs).Perm pairs :=
  List.mergeSort_perm _ _

/-- Pairs with different names stand in strictly ascending order. -/
lemma pairwise_keys_byName {β : Type} {pairs : List (String × β)} (h : (Pairs.keys pairs).Nodup) :
    (Pairs.keys (byName pairs)).Pairwise (· < ·) := by
  have hsorted : (byName pairs).Pairwise fun a b => decide (a.1 ≤ b.1) = true := by
    refine List.pairwise_mergeSort (fun a b c hab hbc => ?_) (fun a b => ?_) pairs
    · simp only [decide_eq_true_eq] at hab hbc ⊢
      exact String.le_trans hab hbc
    · simpa using String.le_total a.1 b.1
  have hnodup : (Pairs.keys (byName pairs)).Nodup :=
    ((perm_byName pairs).map Prod.fst).nodup_iff.2 h
  rw [Pairs.keys, List.pairwise_map]
  refine hsorted.imp₂ (fun a b hle hne => ?_) (List.pairwise_map.1 hnodup)
  exact String.not_le.1 fun hge => hne (String.le_antisymm (by simpa using hle) hge)

lemma foldl_storeFound (start : Record) (found : List (String × List String)) :
    found.foldl storeFound start
      = (Pairs.filterValues valueOf? found).foldl (fun m pair => m.insert pair.1 pair.2) start := by
  induction found generalizing start with
  | nil => rfl
  | cons pair rest ih =>
    rw [List.foldl_cons, ih, storeFound, Pairs.filterValues_cons]
    cases valueOf? pair.2 <;> rfl

/-- The attributes that have values, in the order of their names. -/
def FoundEntry.shown (entry : FoundEntry) : List (String × AttributeValue) :=
  Pairs.filterValues valueOf? (byName entry.attributes.toList)

lemma mem_shown :
    (name, value) ∈ entry.shown ↔
      ∃ found, entry.attributes.get? name = some found ∧ valueOf? found = some value := by
  rw [FoundEntry.shown, Pairs.mem_filterValues]
  simp only [(perm_byName _).mem_iff, OrderedMap.get?_eq_some_iff]

lemma pairwise_keys_shown (entry : FoundEntry) : (Pairs.keys entry.shown).Pairwise (· < ·) :=
  (pairwise_keys_byName entry.attributes.nodup_keys).sublist (Pairs.keys_filterValues_sublist _ _)

lemma nodup_keys_shown (entry : FoundEntry) : (Pairs.keys entry.shown).Nodup :=
  (pairwise_keys_shown entry).imp String.ne_of_lt

/-- The record of an entry has the name in front, unless an attribute `dn` has taken its place. -/
lemma toList_toRecord_eq (entry : FoundEntry) :
    entry.toRecord.toList
      = (dnAttribute, (entry.shown.lookup dnAttribute).getD (.single entry.dn))
          :: Pairs.erase dnAttribute entry.shown := by
  have hnew : (Pairs.keys ([] ++ Pairs.erase dnAttribute entry.shown)).Nodup :=
    Pairs.nodup_keys_erase (nodup_keys_shown entry) dnAttribute
  show ((byName entry.attributes.toList).foldl storeFound _).toList = _
  rw [foldl_storeFound, OrderedMap.toList_foldl_insert]
  refine (Pairs.putAll_cons (nodup_keys_shown entry) _ _ _).trans ?_
  rw [Pairs.putAll_eq_append hnew, List.nil_append]

/-- The record of an entry without an attribute `dn` has the entry's name in front. -/
lemma toList_toRecord (h : dnAttribute ∉ Pairs.keys entry.shown) :
    entry.toRecord.toList = (dnAttribute, .single entry.dn) :: entry.shown := by
  rw [toList_toRecord_eq, Pairs.lookup_eq_none_of_not_mem h, Option.getD_none,
    Pairs.erase_of_not_mem h]

/-! ## The same sets of strings -/

/-- The value shows a set of strings: its only member as a single string, several as a list without
repetition. -/
def Shows (value : AttributeValue) (texts : List String) : Prop :=
  match value with
  | .single text => Same [text] texts
  | .multi listed => listed.Nodup ∧ 2 ≤ listed.length ∧ Same listed texts

lemma Shows.same {texts : List String} (h : Shows value texts) : Same value.texts texts := by
  cases value with
  | single text => exact h
  | multi listed => exact h.2.2

/-- The values of a set, in whatever order, give a value that shows the set. -/
lemma shows_of_perm {texts : List String} (hperm : values.Perm (valueSet texts))
    (hvalue : valueOf? values = some value) : Shows value texts := by
  have hsame : Same values texts := fun text => hperm.mem_iff.trans mem_valueSet
  have hnodup : values.Nodup := hperm.nodup_iff.2 (nodup_valueSet texts)
  match values, hvalue with
  | [text], hvalue =>
    cases hvalue
    exact hsame
  | first :: second :: rest, hvalue =>
    cases hvalue
    exact ⟨hnodup, by simp, hsame⟩

lemma exists_valueOf? (h : values ≠ []) : ∃ value, valueOf? values = some value := by
  match values, h with
  | [text], _ => exact ⟨.single text, rfl⟩
  | first :: second :: rest, _ => exact ⟨.multi (first :: second :: rest), rfl⟩

/-! ## Writing and reading back -/

namespace Returned

variable (h : Returned record entry)

include h

/-- What is shown was sent. -/
lemma exists_of_mem_shown (hmem : (name, value) ∈ entry.shown) :
    ∃ wanted, record.get? name = some wanted ∧ name ≠ dnAttribute ∧ Shows value wanted.texts := by
  obtain ⟨found, hfound, hvalue⟩ := mem_shown.1 hmem
  obtain ⟨wanted, hget, hname, -, hperm⟩ := h.exists_sent hfound
  exact ⟨wanted, hget, hname, shows_of_perm hperm hvalue⟩

/-- What was sent is shown. -/
lemma exists_mem_shown (hget : record.get? name = some wanted) (hname : name ≠ dnAttribute)
    (hwanted : wanted.Solid) :
    ∃ value, (name, value) ∈ entry.shown ∧ Shows value wanted.texts := by
  obtain ⟨found, hfound, hperm⟩ := h.exists_found hget hname hwanted.hasData
  have hsame : Same wanted.texts found := fun text =>
    mem_valueSet.symm.trans hperm.symm.mem_iff
  obtain ⟨value, hvalue⟩ := exists_valueOf? (hsame.ne_nil hwanted.texts_ne_nil)
  exact ⟨value, mem_shown.2 ⟨found, hfound, hvalue⟩, shows_of_perm hperm hvalue⟩

lemma toList_toRecord :
    entry.toRecord.toList = (dnAttribute, .single entry.dn) :: entry.shown := by
  refine Ldap.toList_toRecord fun hmem => ?_
  obtain ⟨⟨_, value⟩, hvalue, rfl⟩ := List.mem_map.1 hmem
  obtain ⟨_, _, hname, -⟩ := h.exists_of_mem_shown hvalue
  exact hname rfl

/-- Nothing has to be changed for an attribute that was sent. -/
lemma changesFor_toRecord (hget : record.get? name = some wanted) (hname : name ≠ dnAttribute)
    (hwanted : wanted.Solid) {table : SynonymTable} (hrooted : SynonymTable.Rooted table) :
    Record.changesFor entry.toRecord table name wanted = [] := by
  obtain ⟨value, hmem, hshows⟩ := h.exists_mem_shown hget hname hwanted
  have hstored : entry.toRecord.get? name = some value := by
    rw [OrderedMap.get?_eq_some_iff, h.toList_toRecord]
    exact List.mem_cons_of_mem _ hmem
  have hsolid : value.Solid :=
    ⟨hshows.same.symm.ne_nil hwanted.texts_ne_nil,
      fun hempty => hwanted.empty_not_mem ((hshows.same "").1 hempty)⟩
  exact Record.changesFor_eq_nil_of_same hrooted hstored hsolid.hasData hshows.same

end Returned

/-- **What is sent is read back.**  The record of an entry that was sent has the entry's name first
and behind it the attributes of the record that was sent, sorted by name and each with the same set
of strings, whatever the order in which they came back.  Bringing it to the record that was sent
needs no change, whatever the synonyms. -/
theorem sent_record_read_back (hsolid : Solid record) (hback : Returned record entry) :
    (∃ others, entry.toRecord.toList = (dnAttribute, .single entry.dn) :: others
      ∧ (Pairs.keys others).Pairwise (· < ·)
      ∧ (∀ name, name ∈ Pairs.keys others ↔ name ∈ record.keys ∧ name ≠ dnAttribute)
      ∧ ∀ pair ∈ others, ∃ wanted, record.get? pair.1 = some wanted ∧ Shows pair.2 wanted.texts)
    ∧ ∀ table, SynonymTable.Rooted table →
        Record.changes entry.toRecord record table [dnAttribute] = [] := by
  constructor
  · refine ⟨entry.shown, hback.toList_toRecord, pairwise_keys_shown entry, fun name => ?_, ?_⟩
    · constructor
      · intro hmem
        obtain ⟨⟨_, value⟩, hvalue, rfl⟩ := List.mem_map.1 hmem
        obtain ⟨wanted, hget, hname, -⟩ := hback.exists_of_mem_shown hvalue
        exact ⟨OrderedMap.mem_keys_iff.2 (by rw [hget]; rfl), hname⟩
      · rintro ⟨hkey, hname⟩
        obtain ⟨wanted, hget⟩ := Option.isSome_iff_exists.1 (OrderedMap.mem_keys_iff.1 hkey)
        obtain ⟨value, hmem, -⟩ := hback.exists_mem_shown hget hname (hsolid.get? hget)
        exact List.mem_map_of_mem hmem
    · rintro ⟨name, value⟩ hmem
      obtain ⟨wanted, hget, -, hshows⟩ := hback.exists_of_mem_shown hmem
      exact ⟨wanted, hget, hshows⟩
  · intro table hrooted
    rw [Record.changes_eq_nil_iff]
    intro pair hpair hkey
    exact hback.changesFor_toRecord (OrderedMap.get?_eq_some_iff.2 hpair) (by simpa using hkey)
      (hsolid pair hpair) hrooted

/-- The addresses were listed with one of them twice, and everything comes back in another order. -/
theorem sent_record_read_back_of_repeated_mail :
    let record : Record := ⟨[("uid", .multi ["bob", "bob"]), ("mail", .multi ["b", "a", "b"]),
      ("dn", .single "uid=old"), ("cn", .single "Bob")], by decide⟩
    let entry : FoundEntry := ⟨"uid=bob", ⟨[("mail", ["b", "a"]), ("uid", ["bob"]),
      ("cn", ["Bob"])], by decide⟩⟩
    let table : SynonymTable := ⟨[("uid", ["uid", "userid"])], by decide⟩
    Solid record ∧ Returned record entry ∧ SynonymTable.Rooted table
      ∧ Record.changes entry.toRecord record table [dnAttribute] = [] := by
  intro record entry table
  have hsolid : Solid record := by decide
  have hsent : attributesOf record
      = [("uid", valueSet ["bob", "bob"]), ("mail", valueSet ["b", "a", "b"]),
        ("cn", valueSet ["Bob"])] := by
    simp [attributesOf, record, dnAttribute, AttributeValue.hasData]
  have hback : Returned record entry := by
    constructor
    · rw [hsent]
      decide
    · rw [hsent]
      simp only [List.forall_mem_cons]
      have hperm (values texts : List String) (h : values.Perm (ValueSet.addAll [] texts)) :
          values.Perm (valueSet texts) := h.trans (perm_valueSet texts).symm
      exact ⟨⟨["bob"], rfl, hperm _ _ (by decide)⟩, ⟨["b", "a"], rfl, hperm _ _ (by decide)⟩,
        ⟨["Bob"], rfl, hperm _ _ (by decide)⟩, by simp⟩
  have hrooted : SynonymTable.Rooted table := by decide
  exact ⟨hsolid, hback, hrooted, (sent_record_read_back hsolid hback).2 table hrooted⟩

end Ldap
end EntryClaims
