/-
# Claims that are null

No step of a rule makes null of anything else, and null is not let in: a value that is null has no
claim, and neither has JSON text that reads null.  But a label may stand beside null.  An object
with null under the label counts as one without the label, while an array with null in front of the
label counts as one with it, and null is its content.  So a claim is null exactly when this is all
that carries the label and no array is asked for.  The attribute of such a claim holds JSON text.
What is written is never null.
-/
import EntryClaims.Proofs.Claim.Elementwise
import EntryClaims.Proofs.Claim.Overlap

namespace EntryClaims

/-! ## Steps and null -/

namespace Step

lemma onStrings_eq_null_iff {f : String → Json} (h : ∀ s, f s ≠ .null) {value : Json} :
    onStrings f value = .null ↔ value = .null := by
  cases value with
  | string s => simp [onStrings, onString, h]
  | null | bool _ | number _ | array _ | object _ => simp [onStrings, onString]

lemma eq_null_of_assign {names : List String} {value : Json} (h : assign names value = .null) :
    value = .null := by
  cases value with
  | array items => rw [assign] at h; split at h <;> cases h
  | null | bool _ | number _ | string _ | object _ => exact h

lemma toArray_ne_null (value : Json) : toArray value ≠ .null := by
  cases value <;> simp [toArray, Json.isArray]

lemma present?_ne_some_null (value : Json) : value.present? ≠ some .null := by
  cases value <;> simp [Json.present?]

lemma gather?_eq_null_iff {items : List Json} : gather? items = some .null ↔ items = [.null] := by
  match items with
  | [] => simp [gather?]
  | [content] => simp [gather?]
  | first :: second :: rest => simp [gather?]

lemma join?_ne_null (separator : String) (value : Json) : join? separator value ≠ some .null := by
  cases value with
  | array items => rw [join?]; split <;> simp
  | null | bool _ | number _ | string _ | object _ => simp [join?]

lemma attachLabel?_ne_null (label : String) (value : Json) :
    attachLabel? label value ≠ some .null := by
  cases value with
  | array items =>
    rw [attachLabel?, Ne, gather?_eq_null_iff, List.map_eq_singleton_iff]
    simp [withLabel]
  | null | bool _ | number _ | string _ | object _ => simp [attachLabel?, withLabel]

/-! ## Labels and null -/

/-- Of the items one alone carries the label: an array with null in front of it. -/
def OnlyNull (label : String) (items : List Json) : Prop :=
  ∃ before more after, items = before ++ .array (.null :: .string label :: more) :: after
    ∧ ∀ item ∈ before ++ after, labelled? label item = none

lemma OnlyNull.exists_mem {label : String} {items : List Json} (h : OnlyNull label items) :
    ∃ behind, .array (.null :: behind) ∈ items := by
  obtain ⟨before, more, after, rfl, -⟩ := h
  exact ⟨.string label :: more, by simp⟩

/-- Strings are not null. -/
lemma OnlyNull.not_of_toClaim {label : String} {items : List Json} (h : OnlyNull label items)
    {value : AttributeValue} (hitems : value.toClaim = .array items) : False := by
  obtain ⟨behind, hmem⟩ := h.exists_mem
  cases value with
  | single text => cases hitems
  | multi texts =>
    obtain rfl : texts.map Json.string = items := Json.array.inj hitems
    simp at hmem

/-- Pieces of strings are not null. -/
lemma OnlyNull.not_of_split {label separator : String} {items : List Json}
    (h : OnlyNull label items) {value : AttributeValue}
    (hitems : split separator value.toClaim = .array items) : False := by
  obtain ⟨behind, hmem⟩ := h.exists_mem
  cases value with
  | single text =>
    have hpieces : (AttributeValue.multi (Text.split separator text)).toClaim = .array items :=
      hitems
    exact h.not_of_toClaim hpieces
  | multi texts =>
    obtain rfl := Json.array.inj hitems
    obtain ⟨item, hitem, hpieces⟩ := List.mem_map.1 hmem
    obtain ⟨text, -, rfl⟩ := List.mem_map.1 hitem
    have hnull : Json.null ∈ (Text.split separator text).map Json.string :=
      Json.array.inj hpieces ▸ List.mem_cons_self
    simp at hnull

lemma labelled?_eq_null_iff {label : String} {value : Json} :
    labelled? label value = some .null
      ↔ ∃ more, value = .array (.null :: .string label :: more) := by
  match value with
  | .array (content :: .string tag :: more) =>
    rw [labelled?]
    split
    case isTrue htag => simp [htag]
    case isFalse htag => simp [htag]
  | .object fields =>
    rw [labelled?]
    refine iff_of_false (fun h => ?_) (by simp)
    obtain ⟨found, -, hpresent⟩ := Option.bind_eq_some_iff.1 h
    exact present?_ne_some_null found hpresent
  | .string s =>
    refine iff_of_false (fun h => ?_) (by simp)
    simp only [labelled?, Option.bind_eq_bind, Option.bind_eq_some_iff] at h
    obtain ⟨⟨content, tag⟩, -, htag⟩ := h
    split at htag <;> cases htag
  | .null | .bool _ | .number _ | .array [] | .array [_]
  | .array (_ :: .null :: _) | .array (_ :: .bool _ :: _) | .array (_ :: .number _ :: _)
  | .array (_ :: .array _ :: _) | .array (_ :: .object _ :: _) =>
    simp [labelled?]

/-- Null is selected from an array in which null is all that carries the label. -/
lemma selectLabel?_eq_null_iff {label : String} {value : Json} :
    selectLabel? label value = some .null
      ↔ ∃ items, value = .array items ∧ OnlyNull label items := by
  cases value with
  | array items =>
    have hsome : selectLabel? label (.array items) = some .null ↔ OnlyNull label items := by
      rw [selectLabel?, gather?_eq_null_iff, List.filterMap_eq_cons_iff]
      simp only [labelled?_eq_null_iff, List.filterMap_eq_nil_iff]
      constructor
      · rintro ⟨before, _, after, rfl, hbefore, ⟨more, rfl⟩, hafter⟩
        exact ⟨before, more, after, rfl, List.forall_mem_append.2 ⟨hbefore, hafter⟩⟩
      · rintro ⟨before, more, after, rfl, hothers⟩
        obtain ⟨hbefore, hafter⟩ := List.forall_mem_append.1 hothers
        exact ⟨before, _, after, rfl, hbefore, ⟨more, rfl⟩, hafter⟩
    simpa using hsome
  | null | bool _ | number _ | string _ | object _ =>
    rw [selectLabel?, labelled?_eq_null_iff] <;> simp

end Step

namespace Rule

open Step (onStrings)

variable {rule : Rule} {value : Json}

/-! ## Chains and null -/

/-- What a value is taken apart into, behind the table. -/
def unpacked? (rule : Rule) (value : Json) : Option Json :=
  value.present?.bind fun present => rule.unpack? (whenSet rule.replace Step.replace present)

/-- What is shown of a value once its label is selected. -/
def finished (rule : Rule) (selected : Json) : Json :=
  let ended := onStrings (fun s => .string (rule.ending s)) selected
  if rule.array then Step.toArray ended else ended

lemma read?_eq_bind (rule : Rule) (value : Json) :
    rule.read? value = (rule.unpacked? value).bind fun unpacked =>
      (whenSet? (nonEmpty? rule.label) Step.selectLabel? unpacked).bind fun selected =>
        some (rule.finished selected) := by
  simp only [read?, unpacked?, finished, ending_eq, Option.bind_eq_bind, Option.bind_assoc]

lemma finished_eq_null_iff :
    rule.finished value = .null ↔ rule.array = false ∧ value = .null := by
  have hended : onStrings (fun s => .string (rule.ending s)) value = .null ↔ value = .null :=
    Step.onStrings_eq_null_iff fun s => by simp
  cases harray : rule.array with
  | true => simp [finished, harray, Step.toArray_ne_null]
  | false => simp [finished, harray, hended]

/-- A step that makes null of null only does so whether or not its option is set. -/
lemma eq_null_of_whenSet {α : Type} {option : Option α} {step : α → Json → Json}
    (hstep : ∀ x value, step x value = .null → value = .null)
    (h : whenSet option step value = .null) : value = .null := by
  cases option with
  | none => exact h
  | some x => exact hstep x value h

lemma eq_null_of_unpack? (h : rule.unpack? value = some .null) : value = .null := by
  rw [unpack?] at h
  cases hseparator : nonEmpty? rule.separator with
  | some separator =>
    rw [hseparator] at h
    have hsplit : Step.split separator value = .null :=
      eq_null_of_whenSet (fun _ _ => Step.eq_null_of_assign) (Option.some.inj h)
    exact (Step.onStrings_eq_null_iff fun s => by simp [Json.ofStrings]).1 hsplit
  | none =>
    rw [hseparator] at h
    cases hjson : rule.json with
    | false => simpa [hjson] using h
    | true =>
      rw [hjson, if_pos rfl] at h
      obtain ⟨parsed, -, hpresent⟩ := Option.bind_eq_some_iff.1 h
      exact absurd hpresent (Step.present?_ne_some_null parsed)

lemma unpacked?_ne_null (rule : Rule) (value : Json) : rule.unpacked? value ≠ some .null := by
  intro h
  obtain ⟨present, hpresent, hunpack⟩ := Option.bind_eq_some_iff.1 h
  obtain rfl : present = .null :=
    eq_null_of_whenSet (fun _ _ => (Step.onStrings_eq_null_iff fun s => by simp).1)
      (eq_null_of_unpack? hunpack)
  exact Step.present?_ne_some_null value hpresent

/-- Of what a value was taken apart into, null is left: it stands in an array, is all that carries
the label of the rule, and no array is made of it. -/
def LeavesNull (rule : Rule) (unpacked : Option Json) : Prop :=
  rule.array = false ∧ ∃ label items, nonEmpty? rule.label = some label
    ∧ unpacked = some (.array items) ∧ Step.OnlyNull label items

/-- A value is read as null when null is left of what it is taken apart into. -/
lemma read?_eq_null_iff (rule : Rule) (value : Json) :
    rule.read? value = some .null ↔ rule.LeavesNull (rule.unpacked? value) := by
  simp only [read?_eq_bind, Option.bind_eq_some_iff, Option.some.injEq, finished_eq_null_iff]
  constructor
  · rintro ⟨unpacked, hunpacked, _, hselected, harray, rfl⟩
    cases hlabel : nonEmpty? rule.label with
    | none =>
      rw [hlabel, whenSet?] at hselected
      exact absurd (hunpacked.trans hselected) (rule.unpacked?_ne_null value)
    | some label =>
      rw [hlabel] at hselected
      obtain ⟨items, rfl, honly⟩ := Step.selectLabel?_eq_null_iff.1 hselected
      exact ⟨harray, label, items, hlabel, hunpacked, honly⟩
  · rintro ⟨harray, label, items, hlabel, hunpacked, honly⟩
    refine ⟨.array items, hunpacked, .null, ?_, harray, rfl⟩
    rw [hlabel]
    exact Step.selectLabel?_eq_null_iff.2 ⟨items, rfl, honly⟩

lemma eq_null_of_pack? (h : rule.pack? value = some .null) : value = .null := by
  rw [pack?] at h
  cases hseparator : nonEmpty? rule.separator with
  | some separator =>
    rw [hseparator] at h
    exact absurd h (Step.join?_ne_null separator _)
  | none =>
    rw [hseparator] at h
    cases hjson : rule.json with
    | false => simpa [hjson] using h
    | true =>
      rw [hjson, if_pos rfl] at h
      cases value <;> simp [Step.serialize?] at h

/-- What is written is never null. -/
lemma write?_ne_null (rule : Rule) (value : Json) : rule.write? value ≠ some .null := by
  intro h
  simp only [write?, Option.bind_eq_bind, Option.bind_eq_some_iff, Option.some.injEq] at h
  obtain ⟨present, hpresent, labelled, hlabelled, packed, hpacked, hwritten⟩ := h
  obtain rfl : packed = .null :=
    eq_null_of_whenSet (fun _ _ => (Step.onStrings_eq_null_iff fun s => by simp).1) hwritten
  obtain rfl := eq_null_of_pack? hpacked
  cases hlabel : nonEmpty? rule.label with
  | some label =>
    rw [hlabel] at hlabelled
    exact Step.attachLabel?_ne_null label _ hlabelled
  | none =>
    rw [hlabel, whenSet?, Option.some.injEq] at hlabelled
    obtain rfl : present = .null :=
      eq_null_of_whenSet (fun _ _ => (Step.onStrings_eq_null_iff fun s => by simp).1) hlabelled
    exact Step.present?_ne_some_null value hpresent

/-- Of a stored value, null is left only by JSON text. -/
lemma read?_toClaim_eq_null_iff (rule : Rule) (stored : AttributeValue) :
    rule.read? stored.toClaim = some .null ↔
      rule.json = true ∧ nonEmpty? rule.separator = none
        ∧ rule.LeavesNull (Step.parse? (whenSet rule.replace Step.replace stored.toClaim)) := by
  rw [read?_eq_null_iff, unpacked?, present?_toClaim, Option.bind_some, replace_eq,
    AttributeValue.onStrings_toClaim]
  generalize stored.map rule.mapped = replaced
  rw [unpack?]
  cases hseparator : nonEmpty? rule.separator with
  | some separator =>
    refine iff_of_false ?_ (by simp)
    rintro ⟨-, label, items, -, hitems, honly⟩
    obtain ⟨parts, hparts⟩ := Step.exists_split_eq separator replaced
    obtain rfl : parts = items := by
      rw [Option.some.injEq, hparts] at hitems
      cases hassign : rule.assign with
      | none => simpa [hassign, whenSet] using hitems
      | some names =>
        cases names with
        | nil => simpa [hassign, whenSet, Step.assign] using hitems
        | cons name names => simp [hassign, whenSet, Step.assign] at hitems
    exact honly.not_of_split hparts
  | none =>
    cases hjson : rule.json with
    | false =>
      refine iff_of_false ?_ (by simp)
      rintro ⟨-, label, items, -, hitems, honly⟩
      exact honly.not_of_toClaim (by simpa using hitems)
    | true =>
      have hpresent : ∀ items, (Step.parse? replaced.toClaim).bind Json.present?
          = some (.array items) ↔ Step.parse? replaced.toClaim = some (.array items) := by
        intro items
        cases Step.parse? replaced.toClaim with
        | none => simp
        | some parsed => cases parsed <;> simp [Json.present?]
      simp [LeavesNull, hpresent]

end Rule

namespace Mapping

open Document (segments)
open Rule (nonEmpty? whenSet)

variable {mapping : Mapping} {record : Record} {forced : List String} {document : Document}
  {rules : List Rule}

/-! ## Claims and null -/

/-- A claim is null when the rule and the stored value that were chosen for it leave null, and no
array is forced. -/
lemma claimValue?_eq_null_iff {force : Bool} :
    claimValue? rules force record = some .null ↔
      force = false ∧ ∃ rule name stored, chosen? rules record = some (rule, name)
        ∧ record.get? name = some stored ∧ rule.json = true ∧ nonEmpty? rule.separator = none
        ∧ rule.LeavesNull (Step.parse? (whenSet rule.replace Step.replace stored.toClaim)) := by
  have hforce : ∀ value, (if force then Step.toArray value else value) = .null ↔
      force = false ∧ value = .null := fun value => by
    cases force <;> simp [Step.toArray_ne_null]
  simp only [claimValue?, Option.bind_eq_bind, Option.bind_eq_some_iff, Option.some.injEq, hforce,
    Prod.exists]
  constructor
  · rintro ⟨rule, name, hchosen, stored, hstored, value, hread, hforce, rfl⟩
    exact ⟨hforce, rule, name, stored, hchosen, hstored,
      (rule.read?_toClaim_eq_null_iff stored).1 hread⟩
  · rintro ⟨hforce, rule, name, stored, hchosen, hstored, hread⟩
    exact ⟨rule, name, hchosen, stored, hstored, _,
      (rule.read?_toClaim_eq_null_iff stored).2 hread, hforce, rfl⟩

lemma assignment?_eq_some_iff {first : String × List Rule} {claim : String} {value : Json} :
    assignment? record forced document first = some (claim, value) ↔
      first.1 = claim ∧ claimValue? first.2 (forced.contains claim) record = some value
        ∧ (document.setPath? claim value).isSome := by
  simp only [assignment?, Option.bind_eq_bind, Option.bind_eq_some_iff, Option.some.injEq,
    Prod.mk.injEq, Option.isSome_iff_exists]
  constructor
  · rintro ⟨_, hvalue, changed, hset, rfl, rfl⟩
    exact ⟨rfl, hvalue, changed, hset⟩
  · rintro ⟨rfl, hvalue, changed, hset⟩
    exact ⟨value, hvalue, changed, hset, rfl, rfl⟩

/-- What is assigned when the claims are read in their order: the value of each claim that has one
and whose way is free when its turn comes. -/
lemma mem_assignmentsFrom_iff {claims : List (String × List Rule)} {claim : String}
    {value : Json} :
    (claim, value) ∈ assignmentsFrom record forced document claims ↔
      ∃ earlier rules later, claims = earlier ++ (claim, rules) :: later
        ∧ claimValue? rules (forced.contains claim) record = some value
        ∧ ((earlier.foldl (readClaim record forced) document).setPath? claim value).isSome := by
  -- the claims behind the first are read into what the first has left
  induction claims generalizing document with
  | nil => simp [assignmentsFrom]
  | cons first rest ih =>
    rw [assignmentsFrom, List.mem_append, Option.mem_toList, assignment?_eq_some_iff, ih]
    constructor
    · rintro (⟨rfl, hvalue, hset⟩ | ⟨earlier, rules, later, rfl, hvalue, hset⟩)
      · exact ⟨[], first.2, rest, rfl, hvalue, hset⟩
      · exact ⟨first :: earlier, rules, later, rfl, hvalue, hset⟩
    · rintro ⟨earlier, rules, later, hclaims, hvalue, hset⟩
      rcases List.cons_eq_append_iff.1 hclaims with ⟨rfl, heq⟩ | ⟨earlier, rfl, rfl⟩
      · obtain ⟨rfl, rfl⟩ := List.cons.inj heq
        exact Or.inl ⟨rfl, hvalue, hset⟩
      · exact Or.inr ⟨earlier, rules, later, rfl, hvalue, hset⟩

/-- **When a claim is null.**  Whatever the rule and the value, what is written is never null, and
what is read is null exactly when the value is taken apart into an array in which null is all that
carries the label of the rule, and the rule asks for no array.  The claims of a record are made by
assignments.  Null is assigned to a claim exactly when the claim is not forced to be an array, its
way is free when its turn comes, and the rule and the attribute that are chosen for it leave null:
the attribute holds JSON text, which is not split, and it is taken apart into such an array. -/
theorem null_claim_iff (mapping : Mapping) (record : Record) (forced : List String) :
    let assignments := assignmentsFrom record forced {} mapping.toList
    (∀ (rule : Rule) (value : Json),
        rule.write? value ≠ some .null
          ∧ (rule.read? value = some .null ↔ rule.LeavesNull (rule.unpacked? value)))
      ∧ Document.assignAll? {} assignments = some (mapping.claimsOf record forced)
      ∧ ∀ claim, (claim, .null) ∈ assignments ↔
          claim ∉ forced
            ∧ ∃ earlier rules later, mapping.toList = earlier ++ (claim, rules) :: later
              ∧ ((earlier.foldl (readClaim record forced) {}).setPath? claim .null).isSome
              ∧ ∃ rule name stored, chosen? rules record = some (rule, name)
                ∧ record.get? name = some stored
                ∧ rule.json = true ∧ nonEmpty? rule.separator = none
                ∧ rule.LeavesNull
                    (Step.parse? (whenSet rule.replace Step.replace stored.toClaim)) := by
  intro assignments
  refine ⟨fun rule value => ⟨rule.write?_ne_null value, rule.read?_eq_null_iff value⟩,
    assignAll?_assignmentsFrom record forced {} mapping.toList, fun claim => ?_⟩
  rw [mem_assignmentsFrom_iff]
  simp only [claimValue?_eq_null_iff, List.contains_eq_mem, decide_eq_false_iff_not]
  constructor
  · rintro ⟨earlier, rules, later, hclaims, ⟨hforced, hchosen⟩, hset⟩
    exact ⟨hforced, earlier, rules, later, hclaims, hset, hchosen⟩
  · rintro ⟨hforced, earlier, rules, later, hclaims, hset, hchosen⟩
    exact ⟨earlier, rules, later, hclaims, ⟨hforced, hchosen⟩, hset⟩

/-- Null stands beside the label in an array, and so it is the claim. -/
theorem null_beside_label :
    let pairs : Rule := { source := .one "labeledURI", label := some "photo" }
    let value : Json := .array [.array [.null, .string "photo"]]
    let mapping : Mapping := ⟨[("picture",
      [{ source := .one "profileData", label := some "photo", json := true }])], by decide⟩
    let record : Record := ⟨[("profileData", .single "[[null,\"photo\"]]")], by decide⟩
    (pairs.read? value = some .null
        ∧ mapping.validate = .ok ()
        ∧ (mapping.claimsOf record []).getPath? "picture" = some .null)
      ∧ ¬ ∀ (rule : Rule) (value : Json), rule.read? value ≠ some .null := by
  intro pairs value mapping record
  have hread : pairs.read? value = some .null := by decide
  exact ⟨⟨hread, by decide, by decide +kernel⟩, fun h => h pairs value hread⟩

end Mapping
end EntryClaims
