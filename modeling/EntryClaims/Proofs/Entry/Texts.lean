/-
# The strings that an entry holds

What changes do to an entry is best seen attribute by attribute: a change touches only its
target, and what the target holds afterwards depends only on the strings that it held before.
So the attributes can be followed one at a time through any list of changes, and of the list
only the changes that the attribute is the target of count.

An entry is solid when every attribute holds at least one string and no empty one.  For solid
entries being there and carrying data are the same, and changes without empty strings keep an
entry solid.
-/
import EntryClaims.Entry.Apply
import Mathlib.Tactic.Lemma

namespace EntryClaims

/-! ## Sets of strings -/

namespace ValueSet

/-- Two lists hold the same strings, in whatever order and however often. -/
def Same (left right : List String) : Prop := ∀ text, text ∈ left ↔ text ∈ right

namespace Same

@[refl] lemma refl (texts : List String) : Same texts texts := fun _ => Iff.rfl

lemma symm {left right : List String} (h : Same left right) : Same right left :=
  fun text => (h text).symm

lemma trans {left middle right : List String} (h : Same left middle) (h' : Same middle right) :
    Same left right :=
  fun text => (h text).trans (h' text)

lemma nil_iff {texts : List String} : Same [] texts ↔ texts = [] := by
  constructor
  · intro h
    exact List.eq_nil_iff_forall_not_mem.2 fun text ht => by simpa using (h text).2 ht
  · rintro rfl
    exact refl []

lemma singleton_iff {old new : String} : Same [old] [new] ↔ old = new := by
  constructor
  · intro h
    simpa using (h old).1 List.mem_cons_self
  · rintro rfl
    exact refl [old]

lemma ne_nil {left right : List String} (h : Same left right) (hne : left ≠ []) : right ≠ [] := by
  rintro rfl
  exact hne (List.eq_nil_iff_forall_not_mem.2 fun text => by simp [h text])

end Same

lemma difference_eq_nil_iff {left right : List String} :
    difference left right = [] ↔ left ⊆ right := by
  rw [List.eq_nil_iff_forall_not_mem]
  constructor
  · intro h text hl
    by_cases hr : text ∈ right
    · exact hr
    · exact absurd (mem_difference.2 ⟨hl, hr⟩) (h text)
  · intro h text hd
    exact (mem_difference.1 hd).2 (h (mem_difference.1 hd).1)

/-- Of strings without any in common with others all are left. -/
lemma difference_ne_nil {left right : List String} (hne : left ≠ [])
    (h : ∀ text ∈ left, text ∉ right) : difference left right ≠ [] := fun hnil => by
  obtain ⟨text, htext⟩ := List.exists_mem_of_ne_nil _ hne
  exact h text htext (difference_eq_nil_iff.1 hnil htext)

end ValueSet

/-! ## Solid values -/

namespace AttributeValue

/-- A value without data holds no string, or the empty string alone. -/
lemma hasData_eq_false_iff {value : AttributeValue} :
    value.hasData = false ↔ value = .multi [] ∨ value = .single "" := by
  cases value <;> simp [hasData]

/-- A value that is data throughout: it has a string, and none of its strings is empty. -/
structure Solid (value : AttributeValue) : Prop where
  texts_ne_nil : value.texts ≠ []
  empty_not_mem : "" ∉ value.texts

instance (value : AttributeValue) : Decidable value.Solid :=
  decidable_of_iff (value.texts ≠ [] ∧ "" ∉ value.texts) ⟨fun h => ⟨h.1, h.2⟩, fun h => ⟨h.1, h.2⟩⟩

lemma Solid.hasData {value : AttributeValue} (h : value.Solid) : value.hasData = true := by
  cases value with
  | single text =>
    have : text ≠ "" := fun e => h.empty_not_mem (by simp [e])
    simpa [AttributeValue.hasData] using this
  | multi texts => simpa [AttributeValue.hasData] using h.texts_ne_nil

/-- The value that stores a list of strings; without strings there is none. -/
def ofTexts? : List String → Option AttributeValue
  | [] => none
  | [text] => some (.single text)
  | texts => some (.multi texts)

@[simp] lemma ofTexts?_nil : ofTexts? [] = none := rfl

lemma exists_ofTexts? {texts : List String} (h : texts ≠ []) :
    ∃ value, ofTexts? texts = some value ∧ value.texts = texts := by
  match texts, h with
  | [text], _ => exact ⟨.single text, rfl, rfl⟩
  | text :: other :: rest, _ => exact ⟨.multi (text :: other :: rest), rfl, rfl⟩

@[simp] lemma texts_ofTexts? (texts : List String) :
    ((ofTexts? texts).map AttributeValue.texts).getD [] = texts := by
  match texts with
  | [] => rfl
  | [_] => rfl
  | _ :: _ :: _ => rfl

end AttributeValue

/-! ## One attribute -/

namespace Record

/-- The strings of an attribute that carries data; one without data counts as empty. -/
def dataTexts (record : Record) (name : String) : List String :=
  if hasData record name then textsOf record name else []

lemma hasData_of_get? {record : Record} {name : String} {value : AttributeValue}
    (h : record.get? name = some value) : hasData record name = value.hasData := by
  simp [hasData, h]

lemma contains_of_get? {record : Record} {name : String} {value : AttributeValue}
    (h : record.get? name = some value) : record.contains name = true := by
  rw [OrderedMap.contains, h, Option.isSome_some]

lemma contains_of_hasData {record : Record} {name : String} (h : hasData record name = true) :
    record.contains name = true := by
  rw [hasData] at h
  cases hget : record.get? name with
  | none => simp [hget] at h
  | some value => exact contains_of_get? hget

lemma textsOf_of_get? {record : Record} {name : String} {value : AttributeValue}
    (h : record.get? name = some value) : textsOf record name = value.texts := by
  simp [textsOf, h]

lemma textsOf_congr {record other : Record} {name : String}
    (h : record.get? name = other.get? name) : textsOf record name = textsOf other name := by
  rw [textsOf, textsOf, h]

/-! ## One change -/

lemma get?_store_self (record : Record) (name : String) (texts : List String) :
    (store record name texts).get? name = AttributeValue.ofTexts? texts := by
  match texts with
  | [] => exact OrderedMap.get?_erase_self record name
  | [_] => exact OrderedMap.get?_insert_self record name _
  | _ :: _ :: _ => exact OrderedMap.get?_insert_self record name _

lemma get?_store_of_ne {name other : String} (h : other ≠ name) (record : Record)
    (texts : List String) : (store record name texts).get? other = record.get? other := by
  match texts with
  | [] => exact OrderedMap.get?_erase_of_ne h record
  | [_] => exact OrderedMap.get?_insert_of_ne h record _
  | _ :: _ :: _ => exact OrderedMap.get?_insert_of_ne h record _

lemma get?_apply_self (record : Record) (change : Change) :
    (apply record change).get? change.target
      = AttributeValue.ofTexts? (change.after (textsOf record change.target)) :=
  get?_store_self _ _ _

lemma get?_apply_of_ne {record : Record} {change : Change} {name : String}
    (h : name ≠ change.target) : (apply record change).get? name = record.get? name :=
  get?_store_of_ne h _ _

lemma textsOf_apply_self (record : Record) (change : Change) :
    textsOf (apply record change) change.target
      = change.after (textsOf record change.target) := by
  rw [textsOf, get?_apply_self, AttributeValue.texts_ofTexts?]

lemma textsOf_apply_of_ne {record : Record} {change : Change} {name : String}
    (h : name ≠ change.target) : textsOf (apply record change) name = textsOf record name :=
  textsOf_congr (get?_apply_of_ne h)

lemma mem_textsOf_add {record : Record} {target : String} {texts : List String} {text : String} :
    text ∈ textsOf (apply record ⟨target, .add, texts⟩) target
      ↔ text ∈ textsOf record target ∨ text ∈ texts := by
  have h := textsOf_apply_self record ⟨target, .add, texts⟩
  rw [show textsOf (apply record ⟨target, .add, texts⟩) target
    = ValueSet.addAll (textsOf record target) texts from h, ValueSet.mem_addAll]

lemma textsOf_add_ne_nil {record : Record} {target name : String} {texts : List String}
    (h : textsOf record name ≠ []) : textsOf (apply record ⟨target, .add, texts⟩) name ≠ [] := by
  by_cases hname : name = target
  · subst hname
    obtain ⟨text, htext⟩ := List.exists_mem_of_ne_nil _ h
    exact List.ne_nil_of_mem (mem_textsOf_add.2 (Or.inl htext))
  · rwa [textsOf_apply_of_ne hname]

lemma textsOf_replace (record : Record) (target : String) (texts : List String) :
    textsOf (apply record ⟨target, .replace, texts⟩) target = texts :=
  textsOf_apply_self record ⟨target, .replace, texts⟩

lemma mem_textsOf_delete {record : Record} {target : String} {texts : List String}
    (hne : texts ≠ []) {text : String} :
    text ∈ textsOf (apply record ⟨target, .delete, texts⟩) target
      ↔ text ∈ textsOf record target ∧ text ∉ texts := by
  have h := textsOf_apply_self record ⟨target, .delete, texts⟩
  rw [show textsOf (apply record ⟨target, .delete, texts⟩) target
    = if texts.isEmpty then [] else (textsOf record target).filter (· ∉ texts) from h,
    if_neg (by simpa using hne)]
  simp

/-- What a change leaves under a name depends only on what was there. -/
lemma get?_apply_congr {record other : Record} {change : Change} {name : String}
    (h : record.get? name = other.get? name) :
    (apply record change).get? name = (apply other change).get? name := by
  by_cases hname : name = change.target
  · subst hname
    rw [get?_apply_self, get?_apply_self, textsOf_congr h]
  · rw [get?_apply_of_ne hname, get?_apply_of_ne hname, h]

/-! ## Changes one after the other -/

/-- The record after some changes, made one after the other. -/
def applyAll (record : Record) (changes : List Change) : Record := changes.foldl apply record

@[simp] lemma applyAll_nil (record : Record) : applyAll record [] = record := rfl

@[simp] lemma applyAll_cons (record : Record) (change : Change) (changes : List Change) :
    applyAll record (change :: changes) = applyAll (apply record change) changes := rfl

lemma applyAll_append (record : Record) (changes more : List Change) :
    applyAll record (changes ++ more) = applyAll (applyAll record changes) more :=
  List.foldl_append

lemma get?_applyAll_congr {record other : Record} {name : String} (changes : List Change)
    (h : record.get? name = other.get? name) :
    (applyAll record changes).get? name = (applyAll other changes).get? name := by
  induction changes generalizing record other with
  | nil => exact h
  | cons change rest ih => exact ih (get?_apply_congr h)

/-- For one attribute only those changes count that a test keeps, if the test keeps all
changes of the attribute. -/
lemma get?_applyAll_filter {record : Record} {changes : List Change} {name : String}
    {keep : Change → Bool} (h : ∀ change ∈ changes, change.target = name → keep change = true) :
    (applyAll record changes).get? name
      = (applyAll record (changes.filter keep)).get? name := by
  induction changes generalizing record with
  | nil => rfl
  | cons change rest ih =>
    have hrest : ∀ c ∈ rest, c.target = name → keep c = true :=
      fun c hc => h c (List.mem_cons_of_mem _ hc)
    rw [applyAll_cons, ih hrest]
    by_cases hkeep : keep change = true
    · rw [List.filter_cons_of_pos hkeep, applyAll_cons]
    · have hname : name ≠ change.target := fun e => hkeep (h change List.mem_cons_self e.symm)
      rw [List.filter_cons_of_neg hkeep]
      exact get?_applyAll_congr _ (get?_apply_of_ne hname)

/-- An attribute that is no change's target stays as it is. -/
lemma get?_applyAll_of_forall_ne {record : Record} {changes : List Change} {name : String}
    (h : ∀ change ∈ changes, change.target ≠ name) :
    (applyAll record changes).get? name = record.get? name := by
  have hfilter : (applyAll record changes).get? name
      = (applyAll record (changes.filter fun _ => false)).get? name :=
    get?_applyAll_filter fun change hchange htarget => absurd htarget (h change hchange)
  rw [hfilter, List.filter_eq_nil_iff.2 fun _ _ => Bool.false_ne_true, applyAll_nil]

/-! ## Filled records -/

/-- Every attribute carries data. -/
def Filled (record : Record) : Prop := ∀ pair ∈ record.toList, pair.2.hasData = true

instance (record : Record) : Decidable (Filled record) :=
  inferInstanceAs (Decidable (∀ pair ∈ record.toList, pair.2.hasData = true))

lemma Filled.get? {record : Record} (h : Filled record) {name : String} {value : AttributeValue}
    (hget : record.get? name = some value) : value.hasData = true :=
  h (name, value) (OrderedMap.get?_eq_some_iff.1 hget)

lemma Filled.hasData_eq {record : Record} (h : Filled record) (name : String) :
    hasData record name = record.contains name := by
  rw [hasData, OrderedMap.contains]
  cases hget : record.get? name with
  | none => rfl
  | some value => simp [h.get? hget]

lemma Filled.dataTexts_eq {record : Record} (h : Filled record) (name : String) :
    dataTexts record name = textsOf record name := by
  rw [dataTexts, h.hasData_eq, OrderedMap.contains, textsOf]
  cases record.get? name <;> rfl

/-! ## Solid records -/

/-- Every attribute is data throughout. -/
def Solid (record : Record) : Prop := ∀ pair ∈ record.toList, pair.2.Solid

instance (record : Record) : Decidable (Solid record) :=
  inferInstanceAs (Decidable (∀ pair ∈ record.toList, pair.2.Solid))

lemma solid_iff {record : Record} :
    Solid record ↔ ∀ name value, record.get? name = some value → value.Solid := by
  constructor
  · intro h name value hget
    exact h (name, value) (OrderedMap.get?_eq_some_iff.1 hget)
  · intro h pair hpair
    exact h pair.1 pair.2 (OrderedMap.get?_eq_some_iff.2 hpair)

lemma Solid.get? {record : Record} (h : Solid record) {name : String} {value : AttributeValue}
    (hget : record.get? name = some value) : value.Solid :=
  solid_iff.1 h name value hget

lemma Solid.filled {record : Record} (h : Solid record) : Filled record := fun pair hpair =>
  (h pair hpair).hasData

lemma Solid.empty_not_mem_textsOf {record : Record} (h : Solid record) (name : String) :
    "" ∉ textsOf record name := by
  rw [textsOf]
  cases hget : record.get? name with
  | none => simp
  | some value => simpa using (h.get? hget).empty_not_mem

lemma Solid.contains_iff {record : Record} (h : Solid record) {name : String} :
    record.contains name = true ↔ textsOf record name ≠ [] := by
  rw [OrderedMap.contains, textsOf]
  cases hget : record.get? name with
  | none => simp
  | some value => simpa using (h.get? hget).texts_ne_nil

lemma empty_not_mem_after {change : Change} {current : List String} (hchange : "" ∉ change.texts)
    (hcurrent : "" ∉ current) : "" ∉ change.after current := by
  obtain ⟨target, kind, texts⟩ := change
  cases kind with
  | add => simp only [Change.after, ValueSet.mem_addAll, not_or]; exact ⟨hcurrent, hchange⟩
  | replace => exact hchange
  | delete =>
    simp only [Change.after]
    split
    · simp
    · exact fun hmem => hcurrent (List.mem_filter.1 hmem).1

/-- A change without empty strings keeps a record solid. -/
lemma Solid.apply {record : Record} (h : Solid record) {change : Change}
    (hchange : "" ∉ change.texts) : Solid (apply record change) := by
  rw [solid_iff]
  intro name value hget
  by_cases hname : name = change.target
  · subst hname
    have hempty : "" ∉ change.after (textsOf record change.target) :=
      empty_not_mem_after hchange (h.empty_not_mem_textsOf _)
    have hne : change.after (textsOf record change.target) ≠ [] := by
      intro hnil
      rw [get?_apply_self, hnil] at hget
      simp at hget
    obtain ⟨stored, hstored, htexts⟩ := AttributeValue.exists_ofTexts? hne
    rw [get?_apply_self, hstored, Option.some.injEq] at hget
    subst hget
    exact ⟨htexts ▸ hne, htexts ▸ hempty⟩
  · rw [get?_apply_of_ne hname] at hget
    exact h.get? hget

lemma Solid.applyAll {record : Record} (h : Solid record) {changes : List Change}
    (hchanges : ∀ change ∈ changes, "" ∉ change.texts) : Solid (applyAll record changes) := by
  induction changes generalizing record with
  | nil => exact h
  | cons change rest ih =>
    exact ih (h.apply (hchanges change List.mem_cons_self))
      fun c hc => hchanges c (List.mem_cons_of_mem _ hc)

end Record
end EntryClaims
