/-
# Parts under names

A mapping is refused when one of its rules assigns parts to names without a separator.  With a
separator every string has a part, the parts are matched with the names, and what is read is an
object that no later step but the array touches.  But among the steps of a rule an empty text
counts as no option at all.  So a rule with an empty separator passes, and is read as if it had no
names.
-/
import EntryClaims.Proofs.Claim.Alignment
import EntryClaims.Proofs.Claim.Nulls

namespace EntryClaims

lemma Step.mem_names_of_mem_assigned {items : List Json} {names : List String} {key : String}
    (h : key ∈ Pairs.keys (assigned items names)) : key ∈ names := by
  rw [assigned, Pairs.mem_keys_putAll] at h
  rcases h with hnone | hkey
  · cases hnone
  · obtain ⟨pair, hpair, rfl⟩ := List.mem_map.1 hkey
    obtain ⟨⟨name, position⟩, hname, hpart⟩ := List.mem_filterMap.1 hpair
    obtain ⟨part, -, rfl⟩ := Option.map_eq_some_iff.1 hpart
    exact (List.mem_zipIdx' hname).2 ▸ List.getElem_mem _

/-! ## Mappings that are accepted -/

namespace Mapping

variable {mapping : Mapping} {rule : Rule}

/-- A rule is accepted when it has names, none of them empty, and a separator if it assigns
parts. -/
lemma ruleProblem?_eq_none_iff {claim : String} :
    ruleProblem? claim rule = none ↔ (rule.source.names ≠ [] ∧ "" ∉ rule.source.names)
      ∧ (rule.assign.isSome = true → rule.separator.isSome = true) := by
  have hnames : (rule.source.names.isEmpty || rule.source.names.any String.isEmpty) = true
      ↔ ¬ (rule.source.names ≠ [] ∧ "" ∉ rule.source.names) := by
    simp [imp_iff_not_or]
  rw [ruleProblem?]
  split
  case isTrue h => exact iff_of_false (by simp) fun hnone => hnames.1 h hnone.1
  case isFalse h =>
    rw [hnames, not_not] at h
    rw [and_iff_right h]
    cases rule.assign <;> cases rule.separator <;> simp

/-- A mapping is accepted when nothing is wrong with any path or any rule. -/
lemma validate_eq_ok_iff :
    mapping.validate = .ok () ↔ ∀ entry ∈ mapping.toList, pathProblem? entry.1 = none
      ∧ ∀ rule ∈ entry.2, ruleProblem? entry.1 rule = none := by
  have hnone : mapping.validate = .ok () ↔
      (mapping.toList.findSome? fun entry => claimProblem? entry.1 entry.2) = none := by
    rw [validate]
    split
    case h_1 h => exact iff_of_true rfl h
    case h_2 problem h =>
      exact iff_of_false (by simp) fun hnone => Option.some_ne_none _ (h ▸ hnone)
  simp only [hnone, List.findSome?_eq_none_iff, claimProblem?, Option.or_eq_none_iff]

lemma exists_separator_of_assign (hvalid : mapping.validate = .ok ())
    (hrule : rule ∈ mapping.allRules) (hassign : rule.assign.isSome = true) :
    ∃ separator, rule.separator = some separator := by
  obtain ⟨entry, hentry, hmem⟩ := List.mem_flatMap.1 hrule
  have hnone := (validate_eq_ok_iff.1 hvalid entry hentry).2 rule hmem
  exact Option.isSome_iff_exists.1 ((ruleProblem?_eq_none_iff.1 hnone).2 hassign)

end Mapping

/-! ## Strings that are no JSON text -/

/-- No JSON text begins with a letter that begins no word of it. -/
lemma Json.parse?_eq_none_of_x (text : List Char) :
    parse? (String.ofList ('x' :: text)) = none := by
  have hread : ∀ fuel room, readValue fuel room ('x' :: text) = none := by
    rintro (_ | fuel) room
    · rw [readValue]
    · simp [readValue, skipBlanks, isBlank, after?, readNumber, readMagnitude, List.isPrefixOf]
  simp [parse?, parseFields?, hread]

namespace Rule

open Step (assigned)

variable {rule : Rule} {names : List String}

/-- The table has room for more: some text is not listed in it, and is no JSON text either. -/
lemma exists_mapped_eq_self (rule : Rule) : ∃ s, rule.mapped s = s ∧ Json.parse? s = none := by
  cases htable : rule.replace with
  | none => exact ⟨String.ofList ['x'], by simp [mapped, htable], Json.parse?_eq_none_of_x []⟩
  | some table =>
    -- a letter in front of all keys makes a text that is longer than each of them
    let listed := table.keys.flatMap String.toList
    refine ⟨String.ofList ('x' :: listed), ?_, Json.parse?_eq_none_of_x listed⟩
    have hnew : table.get? (String.ofList ('x' :: listed)) = none := by
      refine Option.not_isSome_iff_eq_none.1 fun hsome => ?_
      have hkey := List.sublist_flatten_of_mem
        (List.mem_map_of_mem (OrderedMap.mem_keys_iff.2 hsome) (f := String.toList))
      have hlength := hkey.length_le
      rw [← List.flatMap_def, String.toList_ofList, List.length_cons] at hlength
      exact Nat.not_succ_le_self _ hlength
    rw [mapped, htable, Option.elim_some, Step.mapped, hnew, Option.getD_none]

/-! ## Parts as they are shown -/

/-- An object as the rule shows it: alone, or in an array if the rule asks for one. -/
def showing (rule : Rule) (fields : Json.Fields) : Json :=
  if rule.array then .array [.object fields] else .object fields

/-- The string is read as an object whose keys are all among the names. -/
def ShowsUnder (rule : Rule) (names : List String) (s : String) : Prop :=
  ∃ fields, rule.read? (.string s) = some (rule.showing fields)
    ∧ ∀ key ∈ Pairs.keys fields, key ∈ names

lemma finished_object (rule : Rule) (fields : Json.Fields) :
    rule.finished (.object fields) = rule.showing fields := by
  rw [finished, showing]
  rfl

/-- A string that is read as it is does not become an object. -/
lemma finished_string_ne_showing (rule : Rule) (s : String) (fields : Json.Fields) :
    rule.finished (.string s) ≠ rule.showing fields := by
  cases harray : rule.array <;>
    simp [finished, showing, harray, Step.onStrings, Step.onString, Step.toArray, Json.isArray]

lemma unpacked?_string (rule : Rule) (s : String) :
    rule.unpacked? (.string s) = rule.unpack? (.string (rule.mapped s)) := by
  rw [unpacked?, Json.present?_of_ne_null (by simp), Option.bind_some, replace_eq]
  rfl

section Unlabelled

variable (hlabel : nonEmpty? rule.label = none)

include hlabel

lemma read?_string_of_unlabelled (s : String) :
    rule.read? (.string s)
      = (rule.unpack? (.string (rule.mapped s))).map rule.finished := by
  rw [read?_eq_bind, unpacked?_string, hlabel]
  cases rule.unpack? (.string (rule.mapped s)) <;> rfl

/-- Taken apart, every string gives an object, which later steps with strings pass over. -/
lemma read?_string_of_assign (hassign : rule.assign = some names) (hnames : names ≠ [])
    {separator : String} (hseparator : nonEmpty? rule.separator = some separator) (s : String) :
    rule.read? (.string s) = some (rule.showing
      (assigned ((Text.split separator (rule.mapped s)).map .string) names)) := by
  have hunpack : rule.unpack? (.string (rule.mapped s))
      = some (.object (assigned ((Text.split separator (rule.mapped s)).map .string) names)) := by
    rw [unpack?, hseparator, hassign]
    simp [whenSet, Step.split, Step.onStrings, Step.onString, Json.ofStrings, Step.assign, hnames]
  rw [read?_string_of_unlabelled hlabel, hunpack, Option.map_some, finished_object]

/-- Where nothing is taken apart, some string is not read as an object. -/
lemma exists_not_showsUnder (hseparator : nonEmpty? rule.separator = none) (names : List String) :
    ∃ s, ¬ rule.ShowsUnder names s := by
  obtain ⟨s, hmapped, hparse⟩ := rule.exists_mapped_eq_self
  refine ⟨s, ?_⟩
  rintro ⟨fields, hread, -⟩
  rw [read?_string_of_unlabelled hlabel, hmapped, unpack?, hseparator] at hread
  cases hjson : rule.json with
  | true => simp [hjson, Step.parse?, hparse] at hread
  | false =>
    simp only [hjson, Bool.false_eq_true, ↓reduceIte, Option.map_some, Option.some.injEq] at hread
    exact rule.finished_string_ne_showing s fields hread

end Unlabelled

/-- Without a separator that counts, the names do not count either. -/
lemma read?_eq_of_no_separator (hseparator : nonEmpty? rule.separator = none) :
    rule.read? = { rule with assign := none }.read? := by
  funext value
  simp only [read?, unpack?, hseparator]

end Rule

namespace Mapping

open Rule (nonEmpty?)
open Step (assigned)

variable {mapping : Mapping} {rule : Rule} {names : List String}

/-- **When parts are shown under names.**  In a mapping that is accepted, a rule that assigns parts
to names and selects no label has a separator.  If this is not empty, every string is taken apart at
it and read as the object that holds the parts under the names, in an array if the rule asks for
one.  If it is empty, every value is read as if the rule had no names.  So all strings are read as
objects with none but these names exactly when the separator is not empty. -/
theorem parts_shown_iff (hvalid : mapping.validate = .ok ()) (hrule : rule ∈ mapping.allRules)
    (hassign : rule.assign = some names) (hnames : names ≠ [])
    (hlabel : nonEmpty? rule.label = none) :
    ∃ separator, rule.separator = some separator
      ∧ ((∀ s, rule.ShowsUnder names s) ↔ separator ≠ "")
      ∧ (separator ≠ "" → ∀ s, rule.read? (.string s) = some (rule.showing
          (assigned ((Text.split separator (rule.mapped s)).map .string) names)))
      ∧ (separator = "" → rule.read? = { rule with assign := none }.read?) := by
  obtain ⟨separator, hseparator⟩ :=
    exists_separator_of_assign hvalid hrule (Option.isSome_of_eq_some hassign)
  have hfull : separator ≠ "" → nonEmpty? rule.separator = some separator := fun hne => by
    simp [hseparator, nonEmpty?, hne]
  have hempty : separator = "" → nonEmpty? rule.separator = none := fun heq => by
    simp [hseparator, nonEmpty?, heq]
  have hread : separator ≠ "" → ∀ s, rule.read? (.string s) = some (rule.showing
      (assigned ((Text.split separator (rule.mapped s)).map .string) names)) := fun hne =>
    Rule.read?_string_of_assign hlabel hassign hnames (hfull hne)
  refine ⟨separator, hseparator, ⟨fun hall heq => ?_, fun hne s => ?_⟩, hread, fun heq =>
    Rule.read?_eq_of_no_separator (hempty heq)⟩
  · obtain ⟨s, hs⟩ := Rule.exists_not_showsUnder hlabel (hempty heq) names
    exact hs (hall s)
  · exact ⟨_, hread hne s, fun key hkey => Step.mem_names_of_mem_assigned hkey⟩

/-- An address of three parts, which is put for a word, is shown under two names. -/
theorem parts_shown_iff_of_home :
    let names := ["street", "town"]
    let rule : Rule :=
      { source := .synonyms ["postalAddress", "street"], suffix := some "!", lowercase := true
        replace := some ⟨[("home", "Main Street$1$Zurich")], by decide⟩, separator := some "$"
        assign := some names, label := some "", json := true, array := true }
    let mapping : Mapping := ⟨[("name", [.plain (.one "cn")]),
      ("address", [.plain (.one "street"), rule])], by decide⟩
    mapping.validate = .ok () ∧ rule ∈ mapping.allRules ∧ names ≠ []
      ∧ nonEmpty? rule.label = none
      ∧ (∀ s, rule.ShowsUnder names s)
      ∧ rule.read? (.string "home") = some (.array [.object
          [("street", Json.ofStrings ["Main Street", "1"]), ("town", .string "Zurich")]]) := by
  intro names rule mapping
  have hvalid : mapping.validate = .ok () := by decide
  have hrule : rule ∈ mapping.allRules := by decide
  obtain ⟨separator, hseparator, hshown, hread, -⟩ :=
    parts_shown_iff hvalid hrule rfl (by decide) (by decide)
  obtain rfl : "$" = separator := Option.some.inj hseparator
  exact ⟨hvalid, hrule, by decide, by decide, hshown.2 (by decide),
    (hread (by decide) "home").trans (by decide +kernel)⟩

/-- The names of a rule with an empty separator are passed over. -/
theorem address_shown_without_names :
    let names := ["street", "town"]
    let rule : Rule :=
      { source := .one "postalAddress", separator := some "", assign := some names }
    let mapping : Mapping := ⟨[("address", [rule])], by decide⟩
    let address := "Main Street 1$Zurich"
    (mapping.validate = .ok () ∧ rule.read? (.string address) = some (.string address))
      ∧ ¬ ∀ (mapping : Mapping) (rule : Rule) (names : List String), mapping.validate = .ok () →
          rule ∈ mapping.allRules → rule.assign = some names → names ≠ [] → rule.label = none →
          ∀ s, rule.ShowsUnder names s := by
  intro names rule mapping address
  have hvalid : mapping.validate = .ok () := by decide
  have hread : rule.read? (.string address) = some (.string address) := by decide +kernel
  refine ⟨⟨hvalid, hread⟩, fun h => ?_⟩
  obtain ⟨fields, hshown, -⟩ := h mapping rule names hvalid (by decide) rfl (by decide) rfl address
  rw [hread] at hshown
  cases hshown

end Mapping
end EntryClaims
