/-
# Storing a payload twice

A new entry is placed below the base, whatever its id: no character of the id can hide the comma in
front of the base.  It holds the id under the attribute that names it, its object classes, and
otherwise just what the payload is stored as.  So a lookup by the id that found nothing before
finds this entry afterwards, and a second payload of the same claims has nothing to change in it.
-/
import EntryClaims.Proofs.Adapter.Creation
import EntryClaims.Proofs.Adapter.Lookup
import EntryClaims.Proofs.Claim.Alignment
import EntryClaims.Proofs.Directory.Naming
import EntryClaims.Proofs.Entry.Convergence
import EntryClaims.Proofs.Maps

namespace EntryClaims

/-! ## Names below a base -/

namespace Text

/-- A comma ends a word. -/
lemma casedAhead_append_comma (near far : List Char) :
    casedAhead (near ++ ',' :: far) = casedAhead near := by
  have hskip : inRanges caseIgnorableRanges ',' = false := by decide +kernel
  have hcased : inRanges casedRanges ',' = false := by decide +kernel
  rw [casedAhead, casedAhead]
  induction near with
  | nil => simp [hskip, hcased]
  | cons c rest ih =>
    rw [List.cons_append, List.dropWhile_cons, List.dropWhile_cons]
    cases inRanges caseIgnorableRanges c with
    | true => exact ih
    | false => rfl

/-- What stands in front of a comma has no influence on the text behind it. -/
lemma lowerAfter_append_comma (near far text : List Char) :
    lowerAfter (near ++ ',' :: far) text = lowerAfter near text := by
  -- the characters that are lowered one by one come to stand between the text and the comma
  induction text generalizing near with
  | nil => rfl
  | cons c rest ih =>
    rw [lowerAfter, lowerAfter, casedAhead_append_comma, ← List.cons_append, ih]

lemma lowerAfter_append (before front behind : List Char) :
    ∃ small, lowerAfter before (front ++ behind)
      = small ++ lowerAfter (front.reverse ++ before) behind := by
  induction front generalizing before with
  | nil => exact ⟨[], rfl⟩
  | cons c rest ih =>
    obtain ⟨small, hsmall⟩ := ih (c :: before)
    rw [List.cons_append, lowerAfter, hsmall, List.reverse_cons, List.append_assoc,
      List.singleton_append]
    exact ⟨_, (List.append_assoc _ _ _).symm⟩

lemma sameIgnoringCase_self (text : String) : sameIgnoringCase text text = true :=
  beq_self_eq_true _

lemma sameIgnoringCase_comm (left right : String) :
    sameIgnoringCase left right = sameIgnoringCase right left :=
  DN.same_comm

lemma ne_of_sameIgnoringCase_eq_false {left right : String}
    (h : sameIgnoringCase left right = false) : left ≠ right := by
  rintro rfl
  rw [sameIgnoringCase_self] at h
  cases h

end Text

namespace DN

/-- A name that ends in a comma and the base lies below the base. -/
lemma isBelow_append (front base : String) : isBelow (front ++ "," ++ base) base = true := by
  have hcomma : Text.lowerChar ',' = ',' := by decide +kernel
  have htext : (front ++ "," ++ base).toList = front.toList ++ ',' :: base.toList := by simp
  obtain ⟨small, hsmall⟩ := Text.lowerAfter_append [] front.toList (',' :: base.toList)
  rw [isBelow, Text.lowercase, Text.lowercase, String.toList_ofList, String.toList_ofList, htext,
    List.isSuffixOf_iff_suffix]
  refine ⟨small, Eq.symm ?_⟩
  calc Text.lowerAfter [] (front.toList ++ ',' :: base.toList)
      = small ++ Text.lowerAfter front.toList.reverse (',' :: base.toList) := by
        rw [hsmall, List.append_nil]
    _ = small ++ ',' :: Text.lowerAfter ([] ++ ',' :: front.toList.reverse) base.toList := by
        simp [Text.lowerAfter, hcomma]
    _ = small ++ ',' :: Text.lowerAfter [] base.toList := by
        rw [Text.lowerAfter_append_comma]

end DN

lemma Placement.isBelow_entryName (placement : Placement) (id base : String) :
    DN.isBelow (placement.entryName id base) base = true := by
  rw [entryName]
  cases placement.container.filter (!·.isEmpty) with
  | none => exact DN.isBelow_append _ base
  | some container => exact DN.isBelow_append _ base

/-! ## What a new entry holds -/

namespace Record

/-- Whatever attribute has the given name, the case of ASCII letters ignored, spells it as it is
given. -/
def Spells (record : Record) (name : String) : Prop :=
  ∀ key ∈ record.keys, Text.sameIgnoringCase key name = true → key = name

instance (record : Record) (name : String) : Decidable (Spells record name) :=
  inferInstanceAs (Decidable (∀ key ∈ record.keys, Text.sameIgnoringCase key name = true →
    key = name))

lemma Spells.firstNamed?_eq {record : Record} {name : String} (h : Spells record name) :
    firstNamed? record name = record.get? name := by
  refine Pairs.find?_eq_lookup (Text.sameIgnoringCase · name) fun pair hpair => ?_
  rw [Bool.eq_iff_iff, beq_iff_eq]
  constructor
  · intro hsame
    exact (h pair.1 (OrderedMap.mem_keys_of_mem hpair) hsame).symm
  · intro hname
    rw [hname, Text.sameIgnoringCase_self]

end Record

namespace Memory

variable (dn : String) (attributes : Record)

lemma toList_newEntry :
    (newEntry dn attributes).toList
      = (dnAttribute, .single dn) :: (attributes.erase dnAttribute).toList := by
  have hfree : dnAttribute ∉ (attributes.erase dnAttribute).keys :=
    fun h => (OrderedMap.mem_keys_erase.1 h).2 rfl
  rw [newEntry, OrderedMap.toList_foldl_insert]
  exact Pairs.putAll_eq_append
    (List.nodup_cons.2 ⟨hfree, (attributes.erase dnAttribute).nodup_keys⟩)

lemma get?_newEntry {name : String} (hname : name ≠ dnAttribute) :
    (newEntry dn attributes).get? name = attributes.get? name := by
  have hne : (name == dnAttribute) = false := by simpa using hname
  rw [← OrderedMap.get?_erase_of_ne hname attributes, OrderedMap.get?, toList_newEntry,
    List.lookup_cons, hne, OrderedMap.get?]

lemma mem_keys_newEntry {name : String} (h : name ∈ (newEntry dn attributes).keys) :
    name = dnAttribute ∨ name ∈ attributes.keys := by
  rw [OrderedMap.keys, toList_newEntry, Pairs.keys_cons, List.mem_cons] at h
  exact h.imp_right fun hmem => (OrderedMap.mem_keys_erase.1 hmem).1

/-- An entry that is stored under a free name is the one of that name. -/
lemma entry?_insert {dn : String} {memory : Memory} {entry : Record}
    (hfree : memory.entry? dn = none) (hdn : Record.dn? entry = some dn) :
    entry? (memory.insert entry) dn = some entry := by
  have hnone : memory.entries.find? (isNamed dn) = none := hfree
  show (memory.entries ++ [entry]).find? (isNamed dn) = some entry
  rw [List.find?_append, hnone, List.find?_singleton, if_pos (isNamed_of_dn? hdn), Option.none_or]

/-- A search that finds an entry when it is stored found the others before. -/
lemma search_insert {memory : Memory} {entry : Record} {base filter : String} {scope : Scope}
    (hscope : DN.inScope (nameOf entry) base scope = true)
    (haccepts : Filter.accepts filter entry = true) :
    (memory.insert entry).search base filter scope
      = memory.search base filter scope ++ [entry] := by
  rw [search, search, insert, List.filter_append, List.filter_singleton, hscope, haccepts]
  rfl

end Memory

namespace Adapter

open EntryClaims.Task (outcome)

/-! ### The entry for an id -/

section NewEntry

variable {placement : Placement} {id : String} {desired : Record} {name : String}

lemma get?_newAttributes_objectClass :
    (newAttributes placement id desired).get? objectClassAttribute
      = some (.multi placement.objectClasses) :=
  OrderedMap.get?_insert_self _ _ _

lemma get?_newAttributes_rdn (hclass : placement.rdnAttribute ≠ objectClassAttribute) :
    (newAttributes placement id desired).get? placement.rdnAttribute = some (.single id) := by
  rw [newAttributes, OrderedMap.get?_insert_of_ne hclass, OrderedMap.get?_insert_self]

lemma get?_newAttributes_of_ne (hdn : name ≠ dnAttribute)
    (hclass : name ≠ objectClassAttribute) (hrdn : name ≠ placement.rdnAttribute) :
    (newAttributes placement id desired).get? name = desired.get? name := by
  rw [newAttributes, OrderedMap.get?_insert_of_ne hclass, OrderedMap.get?_insert_of_ne hrdn,
    OrderedMap.get?_erase_of_ne hdn]

lemma mem_keys_newAttributes (h : name ∈ (newAttributes placement id desired).keys) :
    name = objectClassAttribute ∨ name = placement.rdnAttribute ∨ name ∈ desired.keys := by
  rw [newAttributes, OrderedMap.mem_keys_insert, OrderedMap.mem_keys_insert,
    OrderedMap.mem_keys_erase] at h
  exact h.imp_right (Or.imp_right And.left)

end NewEntry

/-! ### What a lookup asks for, and what it finds -/

/-- New entries are made for lookups by id: the id stands in the attribute that names them, under a
name that no other attribute of theirs has, the class that lookups ask for is among theirs, and
lookups reach everything below the base and ask for nothing else. -/
structure MeetsLookups (options : Options) (placement : Placement) : Prop where
  /-- New entries are placed so. -/
  upsert : options.upsert = some placement
  /-- The naming attribute holds the id. -/
  rdn : placement.rdnAttribute = options.idAttribute
  /-- It has a plain name. -/
  isName : IsName options.idAttribute
  /-- It is not the entry's name. -/
  ne_dn : Text.sameIgnoringCase options.idAttribute dnAttribute = false
  /-- It is not the object class. -/
  ne_class : Text.sameIgnoringCase options.idAttribute objectClassAttribute = false
  /-- The class of lookups. -/
  objectClass : options.objectClass = "*"
    ∨ IsName options.objectClass ∧ options.objectClass ∈ placement.objectClasses
  /-- The scope of lookups. -/
  scope : options.scope = .subtree
  /-- The extra filter of lookups. -/
  filter : options.filter = none

section Created

variable {options : Options} {placement : Placement} {desired : Record} (id : String)

/-- The entry that is created for an id. -/
def createdEntry (options : Options) (placement : Placement) (id : String) (desired : Record) :
    Record :=
  Memory.newEntry (placement.entryName id options.baseDn) (newAttributes placement id desired)

/-- What is not one of the attributes that creating adds is as desired. -/
lemma get?_createdEntry {name : String} (hrdn : name ≠ placement.rdnAttribute)
    (hdn : name ≠ dnAttribute) (hclass : name ≠ objectClassAttribute) :
    (createdEntry options placement id desired).get? name = desired.get? name := by
  rw [createdEntry, Memory.get?_newEntry _ _ hdn, get?_newAttributes_of_ne hdn hclass hrdn]

lemma mem_keys_createdEntry {name : String}
    (h : name ∈ (createdEntry options placement id desired).keys) :
    name = dnAttribute ∨ name = objectClassAttribute ∨ name = placement.rdnAttribute
      ∨ name ∈ desired.keys :=
  (Memory.mem_keys_newEntry _ _ h).imp_right mem_keys_newAttributes

/-- Creating adds no second spelling of a name. -/
lemma spells_createdEntry {name : String} (hdesired : Record.Spells desired name)
    (hadded : ∀ key ∈ [dnAttribute, objectClassAttribute, placement.rdnAttribute],
      Text.sameIgnoringCase key name = true → key = name) :
    Record.Spells (createdEntry options placement id desired) name := by
  intro key hkey
  rcases mem_keys_createdEntry id hkey with rfl | rfl | rfl | hmem
  · exact hadded _ (by simp)
  · exact hadded _ (by simp)
  · exact hadded _ (by simp)
  · exact hdesired key hmem

namespace MeetsLookups

variable (h : MeetsLookups options placement)

include h

lemma id_ne_dn : options.idAttribute ≠ dnAttribute :=
  Text.ne_of_sameIgnoringCase_eq_false h.ne_dn

lemma id_ne_class : options.idAttribute ≠ objectClassAttribute :=
  Text.ne_of_sameIgnoringCase_eq_false h.ne_class

lemma firstNamed?_id (hid : Record.Spells desired options.idAttribute) :
    Record.firstNamed? (createdEntry options placement id desired) options.idAttribute
      = some (.single id) := by
  have hspells : Record.Spells (createdEntry options placement id desired) options.idAttribute := by
    refine spells_createdEntry id hid ?_
    simp [Text.sameIgnoringCase_comm _ options.idAttribute, h.ne_dn, h.ne_class, h.rdn]
  rw [hspells.firstNamed?_eq, createdEntry, Memory.get?_newEntry _ _ h.id_ne_dn, ← h.rdn,
    get?_newAttributes_rdn (h.rdn ▸ h.id_ne_class)]

lemma firstNamed?_objectClass (hclass : Record.Spells desired objectClassAttribute) :
    Record.firstNamed? (createdEntry options placement id desired) objectClassAttribute
      = some (.multi placement.objectClasses) := by
  have hdn : Text.sameIgnoringCase dnAttribute objectClassAttribute = false := by decide
  have hspells : Record.Spells (createdEntry options placement id desired) objectClassAttribute :=
    spells_createdEntry id hclass (by simp [hdn, h.ne_class, h.rdn])
  rw [hspells.firstNamed?_eq, createdEntry, Memory.get?_newEntry _ _ (by decide),
    get?_newAttributes_objectClass]

/-- The entry created for an id is what a lookup by the id looks for. -/
lemma identifies (hid : Record.Spells desired options.idAttribute)
    (hclass : Record.Spells desired objectClassAttribute) :
    options.Identifies id (createdEntry options placement id desired) where
  objectClass := by
    have hfound := h.firstNamed?_objectClass id hclass
    split
    · rw [hfound, Option.isSome_some]
    · next hstar =>
      obtain ⟨-, hmem⟩ := h.objectClass.resolve_left hstar
      exact ⟨_, hfound, _, hmem, Text.sameIgnoringCase_self _⟩
  id := ⟨_, h.firstNamed?_id id hid, id, List.mem_singleton.2 rfl, Text.sameIgnoringCase_self _⟩
  filter := by simp [h.filter]

lemma isName_objectClass : IsName options.objectClass ∨ options.objectClass = "*" :=
  h.objectClass.symm.imp_left And.left

lemma inScope_createdEntry :
    DN.inScope (Memory.nameOf (createdEntry options placement id desired)) options.baseDn
      options.scope = true := by
  rw [Memory.nameOf, createdEntry, Memory.dn?_newEntry, Option.getD_some, h.scope, DN.inScope,
    placement.isBelow_entryName, Bool.or_true]

/-- The entry created for an id already is as desired. -/
lemma changes_createdEntry {table : SynonymTable} (hrooted : SynonymTable.Rooted table)
    (hfilled : Record.Filled desired) :
    Record.changes (createdEntry options placement id desired) desired table
      (protectedKeys options) = [] := by
  rw [Record.changes_eq_nil_iff]
  rintro ⟨key, wanted⟩ hmem hkey
  have hwanted : desired.get? key = some wanted := OrderedMap.get?_eq_some_iff.2 hmem
  simp only [protectedKeys, h.upsert, Option.map_some, Option.toList_some, List.mem_append,
    List.mem_cons, List.not_mem_nil, or_false, not_or] at hkey
  obtain ⟨⟨hdn, hclass⟩, hrdn⟩ := hkey
  -- what creating adds is protected, so a managed key is stored as desired, under its own name
  have hget : (createdEntry options placement id desired).get? key = some wanted := by
    rw [get?_createdEntry id hrdn hdn hclass, hwanted]
  exact Record.changesFor_eq_nil_of_same hrooted hget (hfilled _ hmem) (ValueSet.Same.refl _)

end MeetsLookups

end Created

/-! ## Storing in a directory in memory -/

section InMemory

variable {adapter : Adapter Unit} {placement : Placement} {id dn : String} {desired : Record}
  {payload : Document} {memory after : Memory}

lemma outcome_lookupId (hbound : adapter.isBound = true) (id : String) (memory : Memory) :
    outcome Memory.directory (adapter.lookupId id) memory
      = (.ok (memory.search adapter.options.baseDn
          (filterText (lookupFilter adapter.options (some (adapter.options.idAttribute, id))))
          adapter.options.scope), memory) :=
  outcome_search_memory hbound memory _ _ _

/-- No entry has an id exactly when the lookup by the id is answered with nothing. -/
lemma outcome_lookupId_eq_nil_iff (hid : IsName adapter.options.idAttribute)
    (hclass : IsName adapter.options.objectClass ∨ adapter.options.objectClass = "*")
    (hfilter : ∀ filter ∈ adapter.options.filter, ∀ text ∈ Filter.literals filter,
      Filter.IsReadable text) (hbound : adapter.isBound = true) :
    (outcome Memory.directory (adapter.lookupId id) memory).1 = .ok []
      ↔ ∀ entry ∈ memory.entries,
          DN.inScope (Memory.nameOf entry) adapter.options.baseDn adapter.options.scope = true →
            ¬ adapter.options.Identifies id entry := by
  rw [outcome_lookupId hbound, Except.ok.injEq, Memory.search, List.filter_eq_nil_iff]
  refine forall₂_congr fun entry _ => ?_
  rw [Bool.and_eq_true, accepts_lookupFilter hid hclass hfilter, not_and]

lemma outcome_insertEntry (hbound : adapter.isBound = true)
    (hplacement : adapter.options.upsert = some placement) :
    outcome Memory.directory (adapter.insertEntry id desired) memory
      = match memory.entry? (placement.entryName id adapter.options.baseDn) with
        | some _ =>
          (.error (.entryExists (placement.entryName id adapter.options.baseDn)), memory)
        | none =>
          (.ok (placement.entryName id adapter.options.baseDn),
            memory.insert (createdEntry adapter.options placement id desired)) := by
  obtain ⟨session, hsession⟩ := Option.isSome_iff_exists.1 hbound
  rw [insertEntry, requireSession, hsession, hplacement]
  refine (Task.outcome_bind Memory.directory (Task.perform session
    (.add (placement.entryName id adapter.options.baseDn) (newAttributes placement id desired)))
    (fun _ => pure (placement.entryName id adapter.options.baseDn)) memory).trans ?_
  rw [Task.outcome_perform]
  simp only [Memory.directory, Memory.perform, Memory.add, createdEntry]
  cases memory.entry? (placement.entryName id adapter.options.baseDn) <;> rfl

/-- Where there is nothing to change, nothing is reported. -/
lemma outcome_updateEntry_of_changes_eq_nil {existing : Record} (hbound : adapter.isBound = true)
    (hdn : Record.dn? existing = some dn)
    (hchanges : Record.changes existing desired adapter.synonyms
      (protectedKeys adapter.options) = []) :
    outcome Memory.directory (adapter.updateEntry existing desired) memory
      = (.ok { dn }, memory) := by
  obtain ⟨session, hsession⟩ := Option.isSome_iff_exists.1 hbound
  rw [updateEntry, requireSession, hsession, Task.outcome_bind, Task.outcome_lift]
  simp only [hdn, hchanges]
  rfl

/-- Exactly what becomes of a payload for an id that no entry has: it is refused when the name
of the new entry is taken, and otherwise this entry is created. -/
lemma outcome_upsert_of_unknown (hbound : adapter.isBound = true)
    (hplacement : adapter.options.upsert = some placement) (hkept : ¬ adapter.Loses payload)
    (hunknown : (outcome Memory.directory (adapter.lookupId id) memory).1 = .ok []) :
    outcome Memory.directory (adapter.upsert id payload) memory
      = match memory.entry? (placement.entryName id adapter.options.baseDn) with
        | some _ =>
          (.error (.entryExists (placement.entryName id adapter.options.baseDn)), memory)
        | none =>
          (.ok (.created (placement.entryName id adapter.options.baseDn)),
            memory.insert
              (createdEntry adapter.options placement id (adapter.recordOf payload))) := by
  have hlookup : outcome Memory.directory (adapter.lookupId id) memory = (.ok [], memory) := by
    rw [outcome_lookupId hbound] at hunknown ⊢
    exact congrArg (·, memory) hunknown
  rw [upsert_of_not_loses adapter hkept, Task.outcome_bind, hlookup]
  show outcome Memory.directory (adapter.store id (adapter.recordOf payload) none) memory = _
  rw [store, Task.outcome_bind, outcome_insertEntry hbound hplacement]
  cases memory.entry? (placement.entryName id adapter.options.baseDn) <;> rfl

/-- A payload for an id that a single entry has goes to this entry. -/
lemma outcome_upsert_of_known {entry : Record} {report : Report} (hkept : ¬ adapter.Loses payload)
    (hknown : outcome Memory.directory (adapter.lookupId id) memory = (.ok [entry], memory))
    (hupdate : outcome Memory.directory
      (adapter.updateEntry entry (adapter.recordOf payload)) memory = (.ok report, after)) :
    outcome Memory.directory (adapter.upsert id payload) memory
      = (.ok (.updated report), after) := by
  rw [upsert_of_not_loses adapter hkept, Task.outcome_bind, hknown]
  show outcome Memory.directory (adapter.store id (adapter.recordOf payload) (some entry)) memory
    = _
  rw [store, Task.outcome_bind, hupdate]
  rfl

/-- Once the entry for an id that no entry has is stored, a lookup by the id finds just this
entry. -/
lemma outcome_lookupId_insert (hbound : adapter.isBound = true)
    (hmeets : MeetsLookups adapter.options placement)
    (hid : Record.Spells desired adapter.options.idAttribute)
    (hclass : Record.Spells desired objectClassAttribute)
    (hunknown : (outcome Memory.directory (adapter.lookupId id) memory).1 = .ok []) :
    outcome Memory.directory (adapter.lookupId id)
        (memory.insert (createdEntry adapter.options placement id desired))
      = (.ok [createdEntry adapter.options placement id desired],
          memory.insert (createdEntry adapter.options placement id desired)) := by
  have hnofilter : ∀ filter ∈ adapter.options.filter, ∀ text ∈ Filter.literals filter,
      Filter.IsReadable text := by
    simp [hmeets.filter]
  have haccepts := (accepts_lookupFilter hmeets.isName hmeets.isName_objectClass hnofilter id
    (createdEntry adapter.options placement id desired)).2 (hmeets.identifies id hid hclass)
  rw [outcome_lookupId hbound, Except.ok.injEq] at hunknown
  rw [outcome_lookupId hbound, Memory.search_insert (hmeets.inScope_createdEntry id) haccepts,
    hunknown, List.nil_append]

/-- **A created entry is found again, and storing the payload again changes nothing.**  Over every
directory in memory and for every id, mapping and payload: let new entries be made for lookups by
id, let no entry have the id, let every attribute that the payload is stored in carry data, and let
none of them be a second spelling of the id attribute or of the object class.  If the payload is
then answered with a created entry, a lookup by the id finds the entry of that name, and the same
payload once more is answered with an update that made no change and failed at none, and leaves the
directory as it is. -/
theorem upsert_created_then_updated (hmeets : MeetsLookups adapter.options placement)
    (hunknown : (outcome Memory.directory (adapter.lookupId id) memory).1 = .ok [])
    (hfilled : Record.Filled (adapter.recordOf payload))
    (hid : Record.Spells (adapter.recordOf payload) adapter.options.idAttribute)
    (hclass : Record.Spells (adapter.recordOf payload) objectClassAttribute)
    (hcreated : outcome Memory.directory (adapter.upsert id payload) memory
      = (.ok (.created dn), after)) :
    ∃ entry, after.entry? dn = some entry
      ∧ Record.dn? entry = some dn
      ∧ outcome Memory.directory (adapter.rawFind (some id) none) after
          = (.ok (some entry), after)
      ∧ outcome Memory.directory (adapter.upsert id payload) after
          = (.ok (.updated { dn, applied := [], failed := [] }), after) := by
  obtain ⟨session, hsession⟩ := session_of_lookupId Memory.directory adapter memory hunknown
  have hbound : adapter.isBound = true := by rw [isBound, hsession, Option.isSome_some]
  have hkept : ¬ adapter.Loses payload := by
    intro hloses
    rw [upsert_of_loses adapter hloses, Task.outcome_throw] at hcreated
    cases hcreated
  rw [outcome_upsert_of_unknown hbound hmeets.upsert hkept hunknown] at hcreated
  cases hfree : memory.entry? (placement.entryName id adapter.options.baseDn) with
  | some other =>
    rw [hfree] at hcreated
    cases hcreated
  | none =>
    rw [hfree] at hcreated
    cases hcreated
    have hdn : Record.dn? (createdEntry adapter.options placement id (adapter.recordOf payload))
        = some (placement.entryName id adapter.options.baseDn) := Memory.dn?_newEntry _ _
    have hfound := outcome_lookupId_insert hbound hmeets hid hclass hunknown
    refine ⟨_, Memory.entry?_insert hfree hdn, hdn, ?_, ?_⟩
    · rw [rawFind_some, Task.outcome_bind, Option.getD_none, ← lookupId, hfound]
      rfl
    · refine outcome_upsert_of_known hkept hfound
        (outcome_updateEntry_of_changes_eq_nil hbound hdn ?_)
      exact hmeets.changes_createdEntry id (Mapping.rooted_synonyms adapter.mapping) hfilled

/-- An id with a comma and a star is stored in a container below a base that is spelled otherwise
elsewhere. -/
theorem upsert_created_then_updated_comma_star :
    let alice : Record :=
      ⟨[("dn", .single "uid=alice,ou=people"), ("objectClass", .single "person"),
        ("uid", .single "alice")], by decide⟩
    let memory : Memory := { entries := [alice] }
    let placement : Placement :=
      { rdnAttribute := "uid", container := some "ou=Guests", objectClasses := ["top", "person"] }
    let options : Options :=
      { baseDn := "ou=People", objectClass := "person", idAttribute := "uid",
        upsert := some placement }
    let mapping : Mapping :=
      ⟨[("email", [.plain (.synonyms ["mail", "rfc822Mailbox"])])], by decide⟩
    let adapter : Adapter Unit := { options, mapping, session := some () }
    let payload : Document := ⟨[("email", .string "a@b.c")]⟩
    let dn := "uid=a\\,*,ou=Guests,ou=People"
    let entry : Record :=
      ⟨[("dn", .single dn), ("mail", .single "a@b.c"), ("uid", .single "a,*"),
        ("objectClass", .multi ["top", "person"])], by decide⟩
    let after : Memory := { entries := [alice, entry] }
    MeetsLookups adapter.options placement
      ∧ (outcome Memory.directory (adapter.lookupId "a,*") memory).1 = .ok []
      ∧ Record.Filled (adapter.recordOf payload)
      ∧ Record.Spells (adapter.recordOf payload) adapter.options.idAttribute
      ∧ Record.Spells (adapter.recordOf payload) objectClassAttribute
      ∧ outcome Memory.directory (adapter.upsert "a,*" payload) memory
          = (.ok (.created dn), after)
      ∧ outcome Memory.directory (adapter.rawFind (some "a,*") none) after
          = (.ok (some entry), after)
      ∧ outcome Memory.directory (adapter.upsert "a,*" payload) after
          = (.ok (.updated { dn }), after) := by
  intro alice memory placement options mapping adapter payload dn entry after
  have hmeets : MeetsLookups adapter.options placement :=
    ⟨rfl, rfl, by decide, by decide, by decide, by decide, rfl, rfl⟩
  have hunknown : (outcome Memory.directory (adapter.lookupId "a,*") memory).1 = .ok [] :=
    (outcome_lookupId_eq_nil_iff hmeets.isName hmeets.isName_objectClass (by simp [hmeets.filter])
      rfl).2 (by decide)
  have hfilled : Record.Filled (adapter.recordOf payload) := by decide
  have hid : Record.Spells (adapter.recordOf payload) adapter.options.idAttribute := by decide
  have hclass : Record.Spells (adapter.recordOf payload) objectClassAttribute := by decide
  have hkept : ¬ adapter.Loses payload := fun h => absurd h.1 (by decide)
  have hcreated : outcome Memory.directory (adapter.upsert "a,*" payload) memory
      = (.ok (.created dn), after) :=
    (outcome_upsert_of_unknown rfl rfl hkept hunknown).trans (by decide)
  obtain ⟨found, hfound, hdn, hlookup, hagain⟩ :=
    upsert_created_then_updated hmeets hunknown hfilled hid hclass hcreated
  have hentry : found = entry := Option.some.inj (hfound.symm.trans (by decide))
  rw [hentry] at hlookup
  exact ⟨hmeets, hunknown, hfilled, hid, hclass, hcreated, hlookup, hagain⟩

end InMemory

end Adapter
end EntryClaims
