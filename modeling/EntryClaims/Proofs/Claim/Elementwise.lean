/-
# Several values one by one

The steps that a rule takes with strings also take the strings in an array, and leave alone what
else stands there.  So several values are treated like each of them alone, as long as every step
finds strings.  A separator makes an array of every value: of a single one it is the array that the
steps behind it work on, but of several it stands inside an array, and lower case and suffix no
longer reach the parts.
-/
import EntryClaims.Proofs.Claim.Rereading
import EntryClaims.Proofs.Claim.Serialization

namespace EntryClaims

namespace Step

lemma onStrings_string (value : Json) : onStrings .string value = value := by
  have honString : ∀ item : Json, onString .string item = item := fun item => by cases item <;> rfl
  cases value with
  | array items => rw [onStrings, List.map_congr_left fun item _ => honString item, List.map_id']
  | _ => rfl

lemma onString_onString (f g : String → String) (value : Json) :
    onString (fun s => .string (f s)) (onString (fun s => .string (g s)) value)
      = onString (fun s => .string (f (g s))) value := by
  cases value <;> rfl

/-- Two steps with strings are one. -/
lemma onStrings_onStrings (f g : String → String) (value : Json) :
    onStrings (fun s => .string (f s)) (onStrings (fun s => .string (g s)) value)
      = onStrings (fun s => .string (f (g s))) value := by
  cases value with
  | array items =>
    rw [onStrings, onStrings, onStrings, List.map_map]
    exact congrArg Json.array (List.map_congr_left fun item _ => onString_onString f g item)
  | _ => rfl

end Step

namespace Rule

open Step (onString onStrings)

/-- A rule whose only options are a table, a separator, lower case and a suffix. -/
structure Stringwise (rule : Rule) : Prop where
  assign_eq : rule.assign = none
  label_eq : rule.label = none
  json_eq : rule.json = false
  array_eq : rule.array = false

instance (rule : Rule) : Decidable rule.Stringwise :=
  decidable_of_iff
    (rule.assign = none ∧ rule.label = none ∧ rule.json = false ∧ rule.array = false)
    ⟨fun ⟨assign, label, json, array⟩ => ⟨assign, label, json, array⟩,
      fun h => ⟨h.assign_eq, h.label_eq, h.json_eq, h.array_eq⟩⟩

/-- What lower case and suffix make of a string. -/
def ending (rule : Rule) (s : String) : String :=
  (if rule.lowercase then Text.lowercase s else s) ++ (nonEmpty? rule.suffix).getD ""

/-- The rule without lower case and suffix. -/
def withoutEnding (rule : Rule) : Rule := { rule with lowercase := false, suffix := none }

/-- What the separator, if there is one, makes of a string. -/
def apart (rule : Rule) (s : String) : Json :=
  match nonEmpty? rule.separator with
  | some separator => Json.ofStrings (Text.split separator s)
  | none => .string s

variable {rule : Rule} {value : Json} {texts : List String}

lemma replace_eq (rule : Rule) (value : Json) :
    whenSet rule.replace Step.replace value
      = onStrings (fun s => .string (rule.mapped s)) value := by
  rw [mapped]
  cases rule.replace with
  | none => exact (Step.onStrings_string value).symm
  | some table => rfl

lemma ending_eq (rule : Rule) (value : Json) :
    whenSet (nonEmpty? rule.suffix) Step.appendSuffix
        (if rule.lowercase then Step.lowercase value else value)
      = onStrings (fun s => .string (rule.ending s)) value := by
  have hlower : (if rule.lowercase then Step.lowercase value else value)
      = onStrings (fun s => .string (if rule.lowercase then Text.lowercase s else s)) value := by
    cases rule.lowercase with
    | true => rfl
    | false => exact (Step.onStrings_string value).symm
  rw [hlower]
  simp only [ending]
  cases nonEmpty? rule.suffix with
  | none => simp [whenSet]
  | some suffix => exact Step.onStrings_onStrings _ _ value

lemma Stringwise.unpack?_eq (h : rule.Stringwise) (value : Json) :
    rule.unpack? value = some (onStrings rule.apart value) := by
  have hapart : rule.apart = match nonEmpty? rule.separator with
      | some separator => fun s => Json.ofStrings (Text.split separator s)
      | none => .string := by
    funext s
    rw [apart]
    cases nonEmpty? rule.separator <;> rfl
  rw [unpack?, hapart]
  cases nonEmpty? rule.separator with
  | none => simp [h.json_eq, Step.onStrings_string]
  | some separator =>
    rw [h.assign_eq]
    rfl

/-- What is read is made of the strings of the value in three steps. -/
lemma Stringwise.read?_eq (h : rule.Stringwise) (hne : value ≠ .null) :
    rule.read? value = some (onStrings (fun s => .string (rule.ending s))
      (onStrings rule.apart (onStrings (fun s => .string (rule.mapped s)) value))) := by
  simp only [read?, Json.present?_of_ne_null hne, Option.bind_eq_bind, Option.bind_some,
    replace_eq, h.unpack?_eq, h.label_eq, ending_eq, h.array_eq]
  rfl

/-- Of a single string, the last step reaches the parts. -/
lemma Stringwise.read?_string (h : rule.Stringwise) (text : String) :
    rule.read? (.string text)
      = some (onStrings (fun s => .string (rule.ending s)) (rule.apart (rule.mapped text))) :=
  h.read?_eq (by simp)

/-- Of several strings, the last step does not reach into the arrays that the separator made. -/
lemma Stringwise.read?_ofStrings (h : rule.Stringwise) (texts : List String) :
    rule.read? (Json.ofStrings texts)
      = some (.array (texts.map fun text =>
          onString (fun s => .string (rule.ending s)) (rule.apart (rule.mapped text)))) := by
  rw [h.read?_eq (by simp [Json.ofStrings])]
  simp only [Json.ofStrings, onStrings, List.map_map]
  rfl

/-- What the rule reads from several strings is the array of what `alone` reads from each. -/
def ReadsEach (rule alone : Rule) (texts : List String) : Prop :=
  ∃ values, texts.mapM (fun text => alone.read? (.string text)) = some values
    ∧ rule.read? (Json.ofStrings texts) = some (.array values)

lemma Stringwise.readsEach_iff {alone : Rule} (h : rule.Stringwise) (halone : alone.Stringwise) :
    rule.ReadsEach alone texts ↔ ∀ text ∈ texts,
      onString (fun s => .string (rule.ending s)) (rule.apart (rule.mapped text))
        = onStrings (fun s => .string (alone.ending s)) (alone.apart (alone.mapped text)) := by
  have heach := mapM_eq_some_map fun text (_ : text ∈ texts) => halone.read?_string text
  rw [ReadsEach, heach, h.read?_ofStrings]
  simp [List.map_inj_left]

lemma apart_of_separator {separator : String} (h : nonEmpty? rule.separator = some separator)
    (s : String) : rule.apart s = Json.ofStrings (Text.split separator s) := by
  rw [apart, h]

lemma apart_of_no_separator (h : nonEmpty? rule.separator = none) (s : String) :
    rule.apart s = .string s := by
  rw [apart, h]

/-- The last step does to a string taken apart, in an array or not, the same exactly when it changes
none of the parts. -/
lemma onString_apart_iff (f : String → String) (s : String) :
    onString (fun s => .string (f s)) (rule.apart s)
        = onStrings (fun s => .string (f s)) (rule.apart s)
      ↔ ∀ separator ∈ nonEmpty? rule.separator, ∀ part ∈ Text.split separator s, f part = part := by
  cases hsep : nonEmpty? rule.separator with
  | none =>
    rw [apart_of_no_separator hsep]
    exact iff_of_true rfl (by simp)
  | some separator =>
    rw [apart_of_separator hsep]
    simp only [Option.mem_def, Option.some.injEq, forall_eq', Json.ofStrings, onString, onStrings,
      List.map_map, Json.array.injEq, List.map_inj_left, Function.comp_apply, Json.string.injEq]
    exact forall₂_congr fun part _ => eq_comm

lemma Stringwise.withoutEnding (h : rule.Stringwise) : rule.withoutEnding.Stringwise :=
  ⟨h.assign_eq, h.label_eq, h.json_eq, h.array_eq⟩

lemma ending_withoutEnding (rule : Rule) (s : String) : rule.withoutEnding.ending s = s := by
  simp [ending, Rule.withoutEnding, nonEmpty?]

/-- **When several values are read one by one.**  A rule that does nothing but put other strings by
a table, take values apart at a separator, put them into lower case and append a suffix reads
several strings like each of them alone if it has no separator.  If it has one, it reads them as it
would read each without lower case and suffix.  So it reads them one by one exactly when there is no
separator, or lower case and suffix leave all parts of the strings as they are. -/
theorem several_values_one_by_one (h : rule.Stringwise) (texts : List String) :
    rule.ReadsEach (if (nonEmpty? rule.separator).isSome then rule.withoutEnding else rule) texts
      ∧ (rule.ReadsEach rule texts ↔ ∀ separator ∈ nonEmpty? rule.separator, ∀ text ∈ texts,
          ∀ part ∈ Text.split separator (rule.mapped text), rule.ending part = part) := by
  have hown : rule.ReadsEach rule texts ↔ ∀ separator ∈ nonEmpty? rule.separator, ∀ text ∈ texts,
      ∀ part ∈ Text.split separator (rule.mapped text), rule.ending part = part := by
    rw [h.readsEach_iff h]
    simp only [onString_apart_iff]
    exact ⟨fun hall separator hsep text htext => hall text htext separator hsep,
      fun hall text htext separator hsep => hall separator hsep text htext⟩
  refine ⟨?_, hown⟩
  cases hsep : nonEmpty? rule.separator with
  | none => exact hown.2 (by simp [hsep])
  | some separator =>
    -- the strings stand in arrays of their own, which the last step passes over
    refine (h.readsEach_iff h.withoutEnding).2 fun text _ => ?_
    have hapart : rule.withoutEnding.apart (rule.withoutEnding.mapped text)
        = rule.apart (rule.mapped text) := rfl
    simp only [ending_withoutEnding, hapart, Step.onStrings_string, apart_of_separator hsep]
    rfl

/-- Of several lists of addresses none is completed; of one list every address is. -/
theorem several_values_one_by_one_of_addresses :
    let rule : Rule := { source := .one "mail", suffix := some "@x", separator := some "," }
    let texts := ["a,b", "c"]
    rule.Stringwise ∧ rule.ReadsEach rule.withoutEnding texts ∧ ¬ rule.ReadsEach rule texts := by
  intro rule texts
  have hstringwise : rule.Stringwise := by decide
  obtain ⟨hread, heach⟩ := several_values_one_by_one hstringwise texts
  refine ⟨hstringwise, hread, fun hsame => ?_⟩
  have hpart : rule.ending "a" = "a" :=
    heach.1 hsame "," rfl "a,b" (by decide) "a" (by decide)
  exact absurd hpart (by decide)

/-- A list of names is put into lower case when it is the only value, and not in an array. -/
theorem names_kept_in_capitals :
    let rule : Rule := { source := .one "cn", lowercase := true, separator := some "," }
    rule.Stringwise ∧ rule.read? (.string "A,B") = some (Json.ofStrings ["a", "b"])
      ∧ rule.read? (Json.ofStrings ["A,B"]) = some (.array [Json.ofStrings ["A", "B"]])
      ∧ ¬ rule.ReadsEach rule ["A,B"] := by
  intro rule
  have halone : rule.read? (.string "A,B") = some (Json.ofStrings ["a", "b"]) := by decide +kernel
  have harray : rule.read? (Json.ofStrings ["A,B"])
      = some (.array [Json.ofStrings ["A", "B"]]) := by
    decide +kernel
  refine ⟨by decide, halone, harray, ?_⟩
  rintro ⟨values, heach, hread⟩
  obtain rfl : [Json.ofStrings ["a", "b"]] = values := by simpa [halone] using heach
  rw [harray] at hread
  exact absurd hread (by decide)

end Rule
end EntryClaims
