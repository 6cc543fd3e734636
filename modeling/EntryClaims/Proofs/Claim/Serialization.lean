/-
# Mappings outlast their JSON form

A structure is written as an object that leaves out the components that are not set.  As long as
no two components have the same name, each is found again under its own name, and one that was
left out is found to be missing.  So a structure is read back component by component, and it is
enough that every component outlasts its own form.

The rules of a claim are written as an array of objects.  A reader that finds an array tries it as
a list of rules before it tries it as the components of a single one, and since every object in it
is the form of a rule, the first attempt succeeds.
-/
import EntryClaims.Claim.Form
import EntryClaims.Proofs.Maps

namespace EntryClaims

/-- Where every item is read, a list is read item by item. -/
lemma mapM_eq_some_map {α β : Type} {read? : α → Option β} {value : α → β} {items : List α}
    (h : ∀ x ∈ items, read? x = some (value x)) : items.mapM read? = some (items.map value) := by
  induction items with
  | nil => rfl
  | cons item rest ih =>
    rw [List.forall_mem_cons] at h
    simp [List.mapM_cons, h.1, ih h.2]

/-- A list is read back item by item. -/
lemma mapM_map_eq_some {α β : Type} (write : α → β) (read? : β → Option α) {items : List α}
    (h : ∀ x ∈ items, read? (write x) = some x) : (items.map write).mapM read? = some items := by
  have hitems : items.mapM (read? ∘ write) = some (items.map id) := mapM_eq_some_map h
  rw [List.mapM_map, hitems, List.map_id]

namespace Json

lemma strings?_ofStrings (texts : List String) : (ofStrings texts).strings? = some texts :=
  mapM_map_eq_some Json.string string? fun _ _ => rfl

/-! ## Structures -/

/-- The fields of a structure with the given components; one that is not set has no field. -/
def fieldsOf (components : List (String × Option Json)) : Fields :=
  Pairs.filterValues id components

lemma field?_append_fieldsOf {α : Type} (name : String) (write : α → Json) (component : Option α)
    (components : List (String × Option Json)) :
    field? name write component ++ fieldsOf components
      = fieldsOf ((name, component.map write) :: components) := by
  cases component <;> rfl

/-- The form of a flag, which has one only when it is set. -/
def flagForm (value : Bool) : Option Json := if value then some (.bool true) else none

lemma flag_append_fieldsOf (name : String) (value : Bool)
    (components : List (String × Option Json)) :
    flag name value ++ fieldsOf components = fieldsOf ((name, flagForm value) :: components) := by
  cases value <;> rfl

/-- A structure that was written is read as its components. -/
lemma slots?_fieldsOf (components : List (String × Option Json))
    (hnodup : (Pairs.keys components).Nodup) :
    slots? (Pairs.keys components) (.object (fieldsOf components))
      = some (components.map Prod.snd) := by
  have hrepeats : repeatsKnown (Pairs.keys components) (Pairs.keys (fieldsOf components))
      = false := by
    rw [repeatsKnown, List.any_eq_false]
    intro name _
    have hkeys : (Pairs.keys (fieldsOf components)).Nodup := Pairs.nodup_keys_filterValues hnodup
    have hcount := List.nodup_iff_count_le_one.1 hkeys name
    simp only [decide_eq_true_eq]
    omega
  rw [slots?, hrepeats, if_neg Bool.false_ne_true, Pairs.keys, List.map_map, Option.some.injEq]
  exact List.map_congr_left fun component hmem => Pairs.lookup_filterValues hnodup hmem

/-! ### Single components -/

/-- A component that may be missing is read back if no set one is written as null. -/
lemma nullable?_map {α : Type} (write : α → Json) (read? : Json → Option α)
    (h : ∀ x, read? (write x) = some x) (hnull : ∀ x, write x ≠ .null) (component : Option α) :
    nullable? read? (component.map write) = some component := by
  cases component with
  | none => rfl
  | some x =>
    rw [Option.map_some, nullable?, h]
    · rfl
    · simpa using hnull x

lemma defaulted?_flagForm (value : Bool) :
    defaulted? false bool? (flagForm value) = some value := by
  cases value <;> rfl

end Json

/-! ## Rules -/

lemma Source.ofJson?_toJson (source : Source) : Source.ofJson? source.toJson = some source := by
  cases source with
  | one name => rfl
  | synonyms names =>
    show (Json.ofStrings names).strings?.map Source.synonyms = some (.synonyms names)
    rw [Json.strings?_ofStrings, Option.map_some]

namespace Rule

lemma tableOfJson?_tableToJson (table : OrderedMap String) :
    tableOfJson? (tableToJson table) = some table := by
  have hfields : Json.stringFields? (tableToJson table) = some table.toList := by
    simp only [Json.stringFields?, tableToJson, Json.object?, Option.bind_eq_bind, Option.bind_some]
    exact mapM_map_eq_some (fun pair : String × String => (pair.1, Json.string pair.2)) _
      fun _ _ => rfl
  rw [tableOfJson?, hfields, Option.map_some, OrderedMap.ofList_toList]

/-- The components of a rule in the form in which they are written. -/
def components (rule : Rule) : List (String × Option Json) :=
  [("attribute", some rule.source.toJson),
    ("suffix", rule.suffix.map .string),
    ("lowercase", Json.flagForm rule.lowercase),
    ("replace", rule.replace.map tableToJson),
    ("separator", rule.separator.map .string),
    ("assign", rule.assign.map Json.ofStrings),
    ("label", rule.label.map .string),
    ("json", Json.flagForm rule.json),
    ("array", Json.flagForm rule.array)]

lemma toJson_eq (rule : Rule) : rule.toJson = .object (Json.fieldsOf rule.components) := by
  have hlast : Json.flag "array" rule.array
      = Json.fieldsOf [("array", Json.flagForm rule.array)] := by
    rw [← Json.flag_append_fieldsOf]
    exact (List.append_nil _).symm
  simp only [toJson, List.append_assoc]
  rw [hlast]
  simp only [Json.flag_append_fieldsOf, Json.field?_append_fieldsOf]
  rfl

lemma slots?_toJson (rule : Rule) :
    Json.slots? componentNames rule.toJson = some (rule.components.map Prod.snd) := by
  rw [toJson_eq]
  exact Json.slots?_fieldsOf rule.components (by decide : componentNames.Nodup)

lemma ofJson?_toJson (rule : Rule) : ofJson? rule.toJson = some rule := by
  have htext (option : Option String) :
      Json.nullable? Json.string? (option.map .string) = some option :=
    Json.nullable?_map .string Json.string? (fun _ => rfl) (by simp) option
  have htable : Json.nullable? tableOfJson? (rule.replace.map tableToJson) = some rule.replace :=
    Json.nullable?_map _ _ tableOfJson?_tableToJson (by simp [tableToJson]) rule.replace
  have hnames : Json.nullable? Json.strings? (rule.assign.map Json.ofStrings) = some rule.assign :=
    Json.nullable?_map _ _ Json.strings?_ofStrings (by simp [Json.ofStrings]) rule.assign
  simp [ofJson?, slots?_toJson, components, Json.required?, Source.ofJson?_toJson, htext, htable,
    hnames, Json.defaulted?_flagForm]

/-- The rules of a claim are written as an array of objects, and read as one. -/
lemma listOfJson?_map_toJson (rules : List Rule) :
    listOfJson? (.array (rules.map toJson)) = some rules := by
  have hrules : (rules.map toJson).mapM ofNameOrJson? = some rules :=
    mapM_map_eq_some toJson ofNameOrJson? fun rule _ => ofJson?_toJson rule
  show ((rules.map toJson).mapM ofNameOrJson?).or _ = some rules
  rw [hrules, Option.some_or]

end Rule

/-! ## Mappings -/

namespace Mapping

lemma ofJson?_toJson (mapping : Mapping) : ofJson? mapping.toJson = some mapping := by
  simp only [ofJson?, toJson, Json.object?, Option.bind_eq_bind, Option.bind_some]
  rw [mapM_map_eq_some _ _ fun pair _ => by simp [Rule.listOfJson?_map_toJson], Option.bind_some,
    OrderedMap.ofList_toList]

/-- **A mapping outlasts its JSON form.**  What a mapping is written as is read back as the same
mapping, with the claims, the rules of each, their synonyms and their replacements in the same
order.  So a form that is read at all is read the same after it was rewritten, and one that is
refused gives nothing to rewrite. -/
theorem json_form_read_back :
    (∀ mapping : Mapping, ofJson? mapping.toJson = some mapping)
      ∧ ∀ value, ((ofJson? value).bind fun mapping => ofJson? mapping.toJson) = ofJson? value := by
  refine ⟨ofJson?_toJson, fun value => ?_⟩
  cases ofJson? value with
  | none => rfl
  | some mapping => exact ofJson?_toJson mapping

end Mapping
end EntryClaims
