/-
# Which entry a lookup by id finds

The filter of a lookup is built from the object class, the id and the extra filter.  The id is
escaped, so whatever it holds it is read back as the text to compare with: it cannot end the
condition it stands in, and it is not the star that asks for presence only.  A lookup in a
directory in memory therefore finds an entry exactly when no other one in scope has the object
class, holds the id and satisfies the extra filter.
-/
import EntryClaims.Directory.Memory
import EntryClaims.Proofs.Adapter.Operations
import EntryClaims.Proofs.Filter.Escaping
import EntryClaims.Proofs.Filter.Reading

namespace EntryClaims

/-! ## What an entry has to hold -/

namespace Record

/-- The value of the first attribute with the given name, the case of ASCII letters ignored. -/
def firstNamed? (entry : Record) (name : String) : Option AttributeValue :=
  (entry.toList.find? fun pair => Text.sameIgnoringCase pair.1 name).map Prod.snd

/-- The first attribute with the given name holds the text, the case of ASCII letters ignored in
both. -/
def Carries (entry : Record) (name text : String) : Prop :=
  ∃ value ∈ firstNamed? entry name,
    ∃ stored ∈ value.texts, Text.sameIgnoringCase stored text = true

instance (entry : Record) (name text : String) : Decidable (Carries entry name text) :=
  inferInstanceAs (Decidable (∃ value ∈ firstNamed? entry name,
    ∃ stored ∈ value.texts, Text.sameIgnoringCase stored text = true))

end Record

/-- An entry is what a lookup by id looks for: it has the object class, where `*` asks for any,
it holds the id, and the extra filter does not speak against it. -/
structure Options.Identifies (options : Options) (id : String) (entry : Record) : Prop where
  /-- The object class. -/
  objectClass : if options.objectClass = "*"
    then (Record.firstNamed? entry objectClassAttribute).isSome = true
    else Record.Carries entry objectClassAttribute options.objectClass
  /-- The id. -/
  id : Record.Carries entry options.idAttribute id
  /-- The extra filter. -/
  filter : ∀ filter ∈ options.filter, Filter.meaning entry filter ≠ some false

instance (options : Options) (id : String) (entry : Record) :
    Decidable (options.Identifies id entry) :=
  decidable_of_iff ((if options.objectClass = "*"
        then (Record.firstNamed? entry objectClassAttribute).isSome = true
        else Record.Carries entry objectClassAttribute options.objectClass)
      ∧ Record.Carries entry options.idAttribute id
      ∧ ∀ filter ∈ options.filter, Filter.meaning entry filter ≠ some false)
    ⟨fun ⟨hclass, hid, hfilter⟩ => ⟨hclass, hid, hfilter⟩,
      fun ⟨hclass, hid, hfilter⟩ => ⟨hclass, hid, hfilter⟩⟩

/-- A name of ASCII letters, digits and hyphens. -/
def IsName (name : String) : Prop := ∀ c ∈ name.toList, c.isAlphanum = true ∨ c = '-'

instance (name : String) : Decidable (IsName name) :=
  decidable_of_iff (name.toList.all (fun c => c.isAlphanum || c == '-') = true)
    (by simp [IsName])

lemma IsName.not_mem {name : String} (h : IsName name) {c : Char}
    (hc : ¬ (c.isAlphanum = true ∨ c = '-')) : c ∉ name.toList :=
  fun hmem => hc (h c hmem)

lemma IsName.escape_eq {name : String} (h : IsName name) : Filter.escape name = name := by
  refine Filter.escape_eq_self fun c hc => h.not_mem ?_
  simp only [Filter.special, List.mem_cons, List.not_mem_nil, or_false] at hc
  rcases hc with rfl | rfl | rfl | rfl | rfl <;> decide

namespace Filter

/-! ## Conditions on one attribute -/

variable {entry : Record} {name text : String}

lemma conditionHolds_equality (hname : '=' ∉ name.toList) (value : String) :
    conditionHolds entry (name ++ "=" ++ value) = holds entry name value := by
  have hcut := Text.cutOnce_append hname value.toList
  rw [conditionHolds, String.append_assoc, String.toList_append, String.toList_append]
  simp [hcut]

lemma holds_iff (value : String) :
    holds entry name value = true ↔
      ∃ found ∈ Record.firstNamed? entry name, value = "*"
        ∨ ∃ stored ∈ found.texts, Text.sameIgnoringCase stored (unescape value) = true := by
  rw [holds, Record.firstNamed?]
  cases entry.toList.find? fun pair => Text.sameIgnoringCase pair.1 name with
  | none => simp
  | some pair => simp

lemma holds_escape : holds entry name (escape text) = true ↔ Record.Carries entry name text := by
  have hstar : escape text ≠ "*" := by
    intro h
    exact not_mem_escape (c := '*') (by decide) (by decide) text (by rw [h]; decide)
  rw [holds_iff, Record.Carries, unescape_escape]
  simp only [hstar, false_or]

lemma holds_star :
    holds entry name "*" = true ↔ (Record.firstNamed? entry name).isSome = true := by
  rw [holds_iff, Option.isSome_iff_exists]
  simp

/-- An equality is a condition whatever the text is. -/
lemma isCondition_equality (hname : IsName name) (text : String) :
    IsCondition (name ++ "=" ++ escape text) where
  equals_mem := by simp
  open_not_mem := by
    simp [hname.not_mem (c := '(') (by decide), not_mem_escape (c := '(') (by decide) (by decide)]
  close_not_mem := by
    simp [hname.not_mem (c := ')') (by decide), not_mem_escape (c := ')') (by decide) (by decide)]
  head_not_mem := by
    intro c hc
    rw [String.toList_append, String.toList_append] at hc
    cases hchars : name.toList with
    | nil =>
      rw [hchars] at hc
      obtain rfl : '=' = c := by simpa using hc
      decide
    | cons first others =>
      rw [hchars] at hc
      obtain rfl : first = c := by simpa using hc
      have hfirst : first ∈ name.toList := by simp [hchars]
      intro hoperator
      revert hfirst
      simp only [List.mem_cons, List.not_mem_nil, or_false] at hoperator
      rcases hoperator with rfl | rfl | rfl <;> exact hname.not_mem (by decide)

/-! ## The filter of a lookup -/

lemma meaning_of_isEmpty {filter : Filter} (h : filter.isEmpty = true) (entry : Record) :
    meaning entry filter = none := by
  cases filter with
  | literal text =>
    obtain rfl : text = "" := by simpa [isEmpty] using h
    simp [meaning, headedMeaning]
  | list nodes =>
    obtain rfl : nodes = [] := by simpa [isEmpty] using h
    simp [meaning, listMeaning]

/-- A conjunction that begins with an operand that says something is true of an entry exactly
when no operand is false of it. -/
lemma exists_meaning_all {first : Filter} (rest : List Filter)
    (hfirst : (meaning entry first).isSome = true) :
    ∃ said, meaning entry (all (first :: rest)) = some said
      ∧ (said = true ↔ ∀ operand ∈ first :: rest, meaning entry operand ≠ some false) := by
  obtain ⟨one, hone⟩ := Option.isSome_iff_exists.1 hfirst
  refine ⟨(one :: (rest.map (meaning entry)).filterMap id).all id, ?_, ?_⟩
  · rw [meaning_all, List.map_cons, hone]
    rfl
  · have hrest : ((rest.map (meaning entry)).filterMap id).all id = true
        ↔ ∀ operand ∈ rest, meaning entry operand ≠ some false := by
      rw [List.all_eq_true]
      constructor
      · intro h operand hoperand hfalse
        have hmem : false ∈ (rest.map (meaning entry)).filterMap id :=
          List.mem_filterMap.2 ⟨some false, List.mem_map.2 ⟨operand, hoperand, hfalse⟩, rfl⟩
        exact absurd (h false hmem) (by simp)
      · intro h said hsaid
        obtain ⟨_, hmem, rfl⟩ := List.mem_filterMap.1 hsaid
        obtain ⟨operand, hoperand, heq⟩ := List.mem_map.1 hmem
        cases said with
        | true => rfl
        | false => exact absurd heq (h operand hoperand)
    rw [List.all_cons, List.forall_mem_cons, hone, Bool.and_eq_true, hrest]
    simp

end Filter

namespace Adapter

open EntryClaims.Filter

variable {options : Options}

lemma isName_objectClassAttribute : IsName objectClassAttribute := by decide

/-- An object class that can be looked up is a name or the star. -/
lemma isCondition_objectClass (h : IsName options.objectClass ∨ options.objectClass = "*") :
    IsCondition (objectClassAttribute ++ "=" ++ options.objectClass) := by
  rcases h with hname | hstar
  · rw [← hname.escape_eq]
    exact isCondition_equality isName_objectClassAttribute options.objectClass
  · rw [hstar]
    decide

lemma conditionHolds_objectClass (h : IsName options.objectClass ∨ options.objectClass = "*")
    (entry : Record) :
    conditionHolds entry (objectClassAttribute ++ "=" ++ options.objectClass) = true ↔
      if options.objectClass = "*"
        then (Record.firstNamed? entry objectClassAttribute).isSome = true
        else Record.Carries entry objectClassAttribute options.objectClass := by
  rw [conditionHolds_equality (isName_objectClassAttribute.not_mem (by decide))]
  by_cases hstar : options.objectClass = "*"
  · rw [if_pos hstar, hstar]
    exact holds_star
  · have hname : IsName options.objectClass := h.resolve_right hstar
    rw [if_neg hstar]
    nth_rewrite 1 [← hname.escape_eq]
    exact holds_escape

lemma mem_extraFilter {filter : Filter} :
    filter ∈ (options.filter.filter (!·.isEmpty)).toList
      ↔ options.filter = some filter ∧ filter.isEmpty = false := by
  rw [Option.mem_toList, Option.filter_eq_some_iff]
  simp

/-- The texts of a lookup can be read back if those of the extra filter can. -/
lemma isReadable_lookupFilter (hid : IsName options.idAttribute)
    (hclass : IsName options.objectClass ∨ options.objectClass = "*")
    (hfilter : ∀ filter ∈ options.filter, ∀ text ∈ literals filter, IsReadable text)
    (id : String) :
    ∀ text ∈ literals (lookupFilter options (some (options.idAttribute, id))),
      IsReadable text := by
  intro text htext
  rw [lookupFilter, all, literals, mem_literalsOfEach] at htext
  obtain ⟨node, hnode, htext⟩ := htext
  simp only [Option.map_some, Option.toList_some, List.mem_cons, List.mem_append,
    List.not_mem_nil, or_false, mem_extraFilter] at hnode
  rcases hnode with rfl | ((rfl | rfl) | ⟨hnode, -⟩)
  · obtain rfl : text = "&" := by simpa [literals] using htext
    exact .join (by decide)
  · obtain rfl : text = objectClassAttribute ++ "=" ++ options.objectClass := by
      simpa [literals] using htext
    exact .condition (isCondition_objectClass hclass)
  · obtain rfl : text = options.idAttribute ++ "=" ++ escape id := by
      simpa [literals, equality] using htext
    exact .condition (isCondition_equality hid id)
  · exact hfilter node hnode text htext

/-- What a lookup asks of an entry: the class, the id, and what the extra filter says. -/
lemma exists_meaning_lookupFilter (hid : IsName options.idAttribute)
    (hclass : IsName options.objectClass ∨ options.objectClass = "*") (id : String)
    (entry : Record) :
    ∃ said, meaning entry (lookupFilter options (some (options.idAttribute, id))) = some said
      ∧ (said = true ↔ options.Identifies id entry) := by
  have hclassMeaning : meaning entry (.literal (objectClassAttribute ++ "=" ++ options.objectClass))
      = some (conditionHolds entry (objectClassAttribute ++ "=" ++ options.objectClass)) :=
    headedMeaning_condition (isCondition_objectClass hclass) entry []
  have hidMeaning : meaning entry (equality options.idAttribute id)
      = some (conditionHolds entry (options.idAttribute ++ "=" ++ escape id)) :=
    headedMeaning_condition (isCondition_equality hid id) entry []
  obtain ⟨said, hsaid, htrue⟩ := exists_meaning_all
    (equality options.idAttribute id :: (options.filter.filter (!·.isEmpty)).toList)
    (by rw [hclassMeaning]; rfl)
  refine ⟨said, hsaid, htrue.trans ?_⟩
  rw [List.forall_mem_cons, List.forall_mem_cons, hclassMeaning, hidMeaning]
  have hextra : (∀ filter ∈ (options.filter.filter (!·.isEmpty)).toList,
        meaning entry filter ≠ some false)
      ↔ ∀ filter ∈ options.filter, meaning entry filter ≠ some false := by
    constructor
    · intro h filter hfilter
      by_cases hempty : filter.isEmpty = true
      · rw [meaning_of_isEmpty hempty]
        simp
      · exact h filter (mem_extraFilter.2 ⟨hfilter, by simpa using hempty⟩)
    · exact fun h filter hfilter => h filter (mem_extraFilter.1 hfilter).1
  have hclassHolds := conditionHolds_objectClass hclass entry
  have hidHolds : conditionHolds entry (options.idAttribute ++ "=" ++ escape id) = true
      ↔ Record.Carries entry options.idAttribute id := by
    rw [conditionHolds_equality (hid.not_mem (by decide)), holds_escape]
  simp only [hextra, ne_eq, Option.some.injEq, Bool.not_eq_false, hclassHolds, hidHolds]
  exact ⟨fun ⟨hclass, hid, hfilter⟩ => ⟨hclass, hid, hfilter⟩,
    fun ⟨hclass, hid, hfilter⟩ => ⟨hclass, hid, hfilter⟩⟩

lemma accepts_lookupFilter (hid : IsName options.idAttribute)
    (hclass : IsName options.objectClass ∨ options.objectClass = "*")
    (hfilter : ∀ filter ∈ options.filter, ∀ text ∈ literals filter, IsReadable text)
    (id : String) (entry : Record) :
    accepts (filterText (lookupFilter options (some (options.idAttribute, id)))) entry = true
      ↔ options.Identifies id entry := by
  obtain ⟨said, hmeaning, hsaid⟩ := exists_meaning_lookupFilter hid hclass id entry
  have hrender : Says entry
      (render (lookupFilter options (some (options.idAttribute, id)))) (some said) := by
    rw [← hmeaning]
    exact says_render _ (isReadable_lookupFilter hid hclass hfilter id)
  have hne : render (lookupFilter options (some (options.idAttribute, id))) ≠ "" := by
    simp [hrender.eq_empty_iff]
  rw [filterText]
  simp only [String.isEmpty_iff, hne, if_false, hrender.accepts, hsaid]

/-! ## The only entry that matches -/

/-- The entry stands in the list and has the property, and no other one in the list has it. -/
def IsOnly (property : Record → Prop) (entry : Record) (entries : List Record) : Prop :=
  ∃ before behind, entries = before ++ entry :: behind ∧ property entry
    ∧ ∀ other ∈ before ++ behind, ¬ property other

lemma filter_eq_singleton_iff {test : Record → Bool} {property : Record → Prop}
    (h : ∀ entry, test entry = true ↔ property entry) {entries : List Record} {entry : Record} :
    entries.filter test = [entry] ↔ IsOnly property entry entries := by
  rw [List.filter_eq_cons_iff]
  constructor
  · rintro ⟨before, behind, rfl, hbefore, hentry, hbehind⟩
    refine ⟨before, behind, rfl, (h entry).1 hentry, fun other hother => ?_⟩
    rw [← h]
    rcases List.mem_append.1 hother with hmem | hmem
    · exact hbefore other hmem
    · exact List.filter_eq_nil_iff.1 hbehind other hmem
  · rintro ⟨before, behind, rfl, hentry, hothers⟩
    refine ⟨before, behind, rfl, fun other hother => ?_, (h entry).2 hentry, ?_⟩
    · rw [h]
      exact hothers other (List.mem_append_left _ hother)
    · refine List.filter_eq_nil_iff.2 fun other hother => ?_
      rw [h]
      exact hothers other (List.mem_append_right _ hother)

lemma outcome_search_memory {adapter : Adapter Unit} (hbound : adapter.isBound = true)
    (memory : Memory) (filter : Filter) (base : String) (scope : Scope) :
    (adapter.search filter base scope).outcome Memory.directory memory
      = (.ok (memory.search base (filterText filter) scope), memory) := by
  obtain ⟨session, hsession⟩ := Option.isSome_iff_exists.1 hbound
  rw [outcome_search, hsession]
  rfl

/-- **No id reaches beyond itself in a lookup.**  Over a directory in memory, a lookup by id finds
an entry exactly when the adapter holds a session and the entry is the only one in scope that has
the object class, holds the id and satisfies the extra filter.  The id is any text at all. -/
theorem rawFind_finds_only_match (memory : Memory) (adapter : Adapter Unit) (id : String)
    (scope : Option Scope) (entry : Record) (hid : IsName adapter.options.idAttribute)
    (hclass : IsName adapter.options.objectClass ∨ adapter.options.objectClass = "*")
    (hfilter : ∀ filter ∈ adapter.options.filter, ∀ text ∈ literals filter, IsReadable text) :
    ((adapter.rawFind (some id) scope).outcome Memory.directory memory).1 = .ok (some entry)
      ↔ adapter.isBound = true
        ∧ IsOnly (fun entry =>
            DN.inScope (Memory.nameOf entry) adapter.options.baseDn
                (scope.getD adapter.options.scope) = true
              ∧ adapter.options.Identifies id entry) entry memory.entries := by
  rw [rawFind_some, Task.outcome_bind, lookup]
  by_cases hbound : adapter.isBound = true
  · rw [outcome_search_memory hbound]
    simp only [Task.outcome_pure, Except.ok.injEq, single?_eq_some_iff, hbound, true_and]
    refine filter_eq_singleton_iff fun entry => ?_
    rw [Bool.and_eq_true, accepts_lookupFilter hid hclass hfilter]
  · have hsession : adapter.session = none := by simpa [isBound] using hbound
    rw [outcome_search, hsession]
    simp [hbound]

/-- An id that would end its condition and ask for presence only is looked up as it is. -/
theorem rawFind_finds_hostile_id :
    let bob : Record := ⟨[("dn", .single "uid=bob,ou=People"), ("objectclass", .single "Person"),
      ("uid", .single "bob")], by decide⟩
    let hostile : Record := ⟨[("dn", .single "uid=x,ou=people"),
      ("objectClass", .multi ["top", "person"]), ("uid", .multi ["*)(UID=*", "x"])], by decide⟩
    let memory : Memory := { entries := [bob, hostile] }
    let retired : Filter := .list [.literal "!", .literal "employeeType=retired"]
    let options : Options :=
      { baseDn := "ou=people", objectClass := "person", idAttribute := "uid",
        filter := some retired }
    let adapter : Adapter Unit := { options, session := some () }
    IsName adapter.options.idAttribute
      ∧ (IsName adapter.options.objectClass ∨ adapter.options.objectClass = "*")
      ∧ (∀ filter ∈ adapter.options.filter, ∀ text ∈ literals filter, IsReadable text)
      ∧ ((adapter.rawFind (some "*)(uid=*") none).outcome Memory.directory memory).1
          = .ok (some hostile) := by
  intro bob hostile memory retired options adapter
  have hid : IsName adapter.options.idAttribute := by decide
  have hclass : IsName adapter.options.objectClass ∨ adapter.options.objectClass = "*" := by decide
  have hfilter : ∀ filter ∈ adapter.options.filter, ∀ text ∈ literals filter, IsReadable text := by
    decide
  refine ⟨hid, hclass, hfilter, ?_⟩
  refine (rawFind_finds_only_match memory adapter _ none hostile hid hclass hfilter).2 ⟨rfl, ?_⟩
  exact ⟨[bob], [], rfl, by decide, by decide⟩

end Adapter
end EntryClaims
