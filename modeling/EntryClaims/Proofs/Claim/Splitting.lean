/-
# Splitting values and putting them together again

The pieces of a text, joined with the delimiter, are the text again, and the parts that were
assigned to names are found under the names in their order.  So a rule that does nothing but
split, assign and force an array can be undone: what it reads from an attribute is written back
as the value of the attribute, or as an array that holds nothing else, and either stores the same
strings.
-/
import EntryClaims.Claim.Mapping
import EntryClaims.Proofs.Maps
import Mathlib.Data.List.Basic
import Mathlib.Tactic.Lemma

namespace EntryClaims

/-! ## Texts -/

namespace Text

/-- Joining the pieces with the delimiter gives back what is left of the text behind the part
that is passed over. -/
lemma intercalate_cutFrom {sep : List Char} (h : sep ≠ []) (skip : Nat) (text : List Char) :
    sep.intercalate (cutFrom sep skip text) = text.drop skip := by
  -- the cut goes on behind a delimiter by passing over it, so all numbers are treated at once
  induction text generalizing skip with
  | nil => simp [cutFrom]
  | cons c cs ih =>
    cases skip with
    | succ k => rw [cutFrom, ih, List.drop_succ_cons]
    | zero =>
      rw [cutFrom, List.drop_zero]
      by_cases hprefix : sep.isPrefixOf (c :: cs) = true
      · obtain ⟨piece, pieces, hpieces⟩ :=
          List.exists_cons_of_ne_nil (cutFrom_ne_nil sep (sep.length - 1) cs)
        have hrest := ih (sep.length - 1)
        obtain ⟨first, others, rfl⟩ := List.exists_cons_of_ne_nil h
        have hsplit := List.prefix_iff_eq_append.1 (List.isPrefixOf_iff_prefix.1 hprefix)
        rw [hpieces] at hrest
        rw [if_pos hprefix, hpieces, List.intercalate_cons_cons, hrest]
        simpa using hsplit
      · rw [if_neg hprefix, intercalate_consFirst _ _ (cutFrom_ne_nil sep 0 cs), ih, List.drop_zero]

lemma intercalate_split {sep : String} (h : sep ≠ "") (text : String) :
    sep.intercalate (split sep text) = text := by
  have hne : sep.toList ≠ [] := by simpa using h
  rw [← String.toList_inj, String.toList_intercalate, split, cut, if_neg (by simpa using hne),
    List.map_map]
  simpa [Function.comp_def] using intercalate_cutFrom hne 0 text.toList

lemma split_ne_nil {sep : String} (h : sep ≠ "") (text : String) : split sep text ≠ [] := by
  have hne : sep.toList ≠ [] := by simpa using h
  rw [split, cut, if_neg (by simpa using hne)]
  simpa using cutFrom_ne_nil sep.toList 0 text.toList

end Text

lemma Json.present?_of_ne_null {value : Json} (h : value ≠ .null) :
    value.present? = some value := by
  cases value <;> first | rfl | exact absurd rfl h

namespace Step

/-! ## Joining what was split -/

lemma joinTexts_strings (separator : String) (texts : List String) :
    joinTexts separator (texts.map .string) = texts := by
  induction texts with
  | nil => rw [List.map_nil, joinTexts]
  | cons text rest ih => rw [List.map_cons, joinTexts, ih, Step.text] <;> simp

lemma join?_strings (separator : String) (texts : List String) :
    join? separator (Json.ofStrings texts) = some (.string (separator.intercalate texts)) := by
  have hnone : (!(texts.map Json.string).isEmpty && (texts.map Json.string).all Json.isArray)
      = false := by
    cases texts <;> simp [Json.isArray]
  rw [Json.ofStrings, join?, hnone, if_neg Bool.false_ne_true, joinTexts_strings]

section Separator

variable {separator : String} (h : separator ≠ "")

include h

lemma join?_pieces (text : String) :
    join? separator (Json.ofStrings (Text.split separator text)) = some (.string text) := by
  rw [join?_strings, Text.intercalate_split h]

lemma joinEach_pieces (texts : List String) :
    joinEach separator (texts.map fun text => Json.ofStrings (Text.split separator text))
      = texts.map .string := by
  induction texts with
  | nil => rw [List.map_nil, List.map_nil, joinEach]
  | cons text rest ih =>
    rw [List.map_cons, joinEach, join?_pieces h, ih, Option.toList_some, List.map_cons,
      List.singleton_append]

lemma join?_split {value : AttributeValue} (hne : value.texts ≠ []) :
    join? separator (split separator value.toClaim) = some value.toClaim := by
  cases value with
  | single text => exact join?_pieces h text
  | multi texts =>
    rw [AttributeValue.texts_multi] at hne
    have hsplit : split separator (AttributeValue.multi texts).toClaim
        = .array (texts.map fun text => Json.ofStrings (Text.split separator text)) := by
      simp [split, onStrings, onString, AttributeValue.toClaim, Json.ofStrings]
    rw [hsplit, join?, joinEach_pieces h]
    simp [hne, Json.ofStrings, Json.isArray, AttributeValue.toClaim]

/-- The pieces of a text that stand in an array are joined inside the array. -/
lemma join?_pieces_array (text : String) :
    join? separator (.array [Json.ofStrings (Text.split separator text)])
      = some (.array [.string text]) := by
  have hne : (AttributeValue.multi [text]).texts ≠ [] := List.cons_ne_nil text []
  exact join?_split h hne

end Separator

/-! ## Assigned parts -/

/-- What a part that was assigned gives back. -/
def given : Option Json → List Json
  | none | some .null => []
  | some (.array items) => items
  | some value => [value]

lemma positional_eq (names : List String) (fields : Json.Fields) :
    positional names fields = names.flatMap fun name => given (fields.lookup name) :=
  rfl

/-- The parts of the names in their order, null for a name without one: the items are matched from
the end, and with more items than names the first name has an array of the leading ones. -/
def aligned (items : List Json) (count : Nat) : List Json :=
  if count < items.length then
    .array (items.take (items.length - count + 1)) :: items.drop (items.length - count + 1)
  else List.replicate (count - items.length) .null ++ items

lemma length_aligned (items : List Json) {count : Nat} (hcount : 0 < count) :
    (aligned items count).length = count := by
  rw [aligned]
  split
  · rw [List.length_cons, List.length_drop]
    omega
  · rw [List.length_append, List.length_replicate]
    omega

lemma partAt?_bind_present? (items : List Json) {count position : Nat} (h : position < count) :
    (partAt? items count position).bind Json.present?
      = ((aligned items count)[position]?).bind Json.present? := by
  rw [partAt?, aligned]
  by_cases hlong : count < items.length
  · rw [if_pos hlong]
    cases position with
    | zero => rw [if_pos ⟨rfl, hlong⟩, List.getElem?_cons_zero]
    | succ position =>
      rw [if_neg fun hfirst => absurd hfirst.1 (Nat.succ_ne_zero position), if_neg (by omega),
        List.getElem?_cons_succ, List.getElem?_drop,
        show items.length - count + 1 + position = items.length + (position + 1) - count by omega]
  · rw [if_neg fun hfirst => hlong hfirst.2, if_neg hlong]
    by_cases hshort : items.length + position < count
    · rw [if_pos hshort, List.getElem?_append_left (by rw [List.length_replicate]; omega),
        List.getElem?_replicate_of_lt (by omega)]
      rfl
    · rw [if_neg hshort, List.getElem?_append_right (by rw [List.length_replicate]; omega),
        List.length_replicate,
        show position - (count - items.length) = items.length + position - count by omega]

/-- Names with what stands at their positions behind `front`. -/
lemma filterMap_zipIdx_append (front : List Json) {names : List String} {parts : List Json}
    (h : names.length = parts.length) :
    ((names.zipIdx front.length).filterMap fun (name, position) =>
        ((front ++ parts)[position]?.bind Json.present?).map fun part => (name, part))
      = Pairs.filterValues Json.present? (names.zip parts) := by
  -- what was passed over joins the front, so that the positions stay what they are
  induction names generalizing front parts with
  | nil => rfl
  | cons name rest ih =>
    obtain ⟨part, parts, rfl⟩ : ∃ part others, parts = part :: others :=
      List.exists_cons_of_length_pos (by simp [← h])
    have hrest := ih (front ++ [part]) (by simpa using h)
    rw [List.length_append, List.length_singleton, List.append_assoc,
      List.singleton_append] at hrest
    have hat : (front ++ part :: parts)[front.length]? = some part := by simp
    rw [List.zipIdx_cons, List.zip_cons_cons, Pairs.filterValues_cons, ← hrest,
      List.filterMap_cons]
    simp only [hat, Option.bind_some]
    cases Json.present? part <;> rfl

section Assigned

variable (items : List Json) {names : List String} (hne : names ≠ [])

include hne

lemma keys_zip_aligned : Pairs.keys (names.zip (aligned items names.length)) = names :=
  List.map_fst_zip (Nat.le_of_eq (length_aligned items (List.length_pos_iff.2 hne)).symm)

/-- Where no name occurs twice, the names are assigned the parts that stand at their positions. -/
lemma assigned_eq (hnodup : names.Nodup) :
    assigned items names
      = Pairs.filterValues Json.present? (names.zip (aligned items names.length)) := by
  have hlength := (length_aligned items (List.length_pos_iff.2 hne)).symm
  have hpairs : (names.zipIdx.filterMap fun (name, position) =>
      ((partAt? items names.length position).bind Json.present?).map fun part => (name, part))
        = Pairs.filterValues Json.present? (names.zip (aligned items names.length)) := by
    rw [← filterMap_zipIdx_append [] hlength]
    refine List.filterMap_congr fun pair hpair => ?_
    have hposition : pair.2 < names.length := by simpa using List.snd_lt_of_mem_zipIdx hpair
    simp only [List.nil_append, partAt?_bind_present? items hposition]
  have hkeys : (Pairs.keys (Pairs.filterValues Json.present?
      (names.zip (aligned items names.length)))).Nodup :=
    Pairs.nodup_keys_filterValues ((keys_zip_aligned items hne).symm ▸ hnodup)
  rw [assigned, hpairs, Pairs.putAll_eq_append hkeys, List.nil_append]

/-- What the parts that were assigned to different names give back: with more items than names the
leading items as they are, and of every other item what it gives back itself. -/
lemma positional_assigned (hnodup : names.Nodup) :
    positional names (assigned items names)
      = if names.length < items.length then
          items.take (items.length - names.length + 1)
            ++ (items.drop (items.length - names.length + 1)).flatMap fun item =>
                given item.present?
        else items.flatMap fun item => given item.present? := by
  have hkeys := keys_zip_aligned items hne
  have hparts : (names.zip (aligned items names.length)).map Prod.snd
      = aligned items names.length :=
    List.map_snd_zip (Nat.le_of_eq (length_aligned items (List.length_pos_iff.2 hne)))
  have hgiven : names.map (fun name => given ((assigned items names).lookup name))
      = (aligned items names.length).map fun part => given part.present? := by
    calc names.map (fun name => given ((assigned items names).lookup name))
        = (Pairs.keys (names.zip (aligned items names.length))).map fun name =>
            given ((assigned items names).lookup name) := by rw [hkeys]
      _ = (names.zip (aligned items names.length)).map
            ((fun part => given (Json.present? part)) ∘ Prod.snd) := by
          rw [Pairs.keys, List.map_map, assigned_eq items hne hnodup]
          refine List.map_congr_left fun pair hpair => ?_
          simp only [Function.comp_apply, Pairs.lookup_filterValues (hkeys.symm ▸ hnodup) hpair]
      _ = (aligned items names.length).map fun part => given part.present? := by
          rw [← List.map_map, hparts]
  rw [positional_eq, List.flatMap_def, hgiven, ← List.flatMap_def, aligned]
  split
  · rfl
  · have hmissing : ∀ count, (List.replicate count Json.null).flatMap
        (fun part => given part.present?) = [] := fun count =>
      List.flatMap_eq_nil_iff.2 fun part hpart => by rw [List.eq_of_mem_replicate hpart]; rfl
    rw [List.flatMap_append, hmissing, List.nil_append]

end Assigned

/-- Texts that were assigned to different names are given back. -/
lemma positional_assigned_strings (texts : List String) {names : List String} (hne : names ≠ [])
    (hnodup : names.Nodup) :
    positional names (assigned (texts.map .string) names) = texts.map .string := by
  have hgiven : ∀ texts : List String,
      (texts.map Json.string).flatMap (fun item => given item.present?) = texts.map .string := by
    intro texts
    rw [List.flatMap_map]
    exact List.map_eq_flatMap.symm
  rw [positional_assigned _ hne hnodup]
  split
  · rw [← List.map_drop, hgiven, ← List.map_take, ← List.map_append, List.take_append_drop]
  · exact hgiven texts

lemma exists_split_eq (separator : String) (value : AttributeValue) :
    ∃ items, split separator value.toClaim = .array items := by
  cases value <;> exact ⟨_, rfl⟩

lemma isArray_split (separator : String) (value : AttributeValue) :
    (split separator value.toClaim).isArray = true := by
  obtain ⟨items, hitems⟩ := exists_split_eq separator value
  rw [hitems, Json.isArray]

lemma unassign_split (names : List String) (separator : String) (value : AttributeValue) :
    unassign names (split separator value.toClaim) = split separator value.toClaim := by
  cases value <;>
    simp [unassign, split, onStrings, onString, AttributeValue.toClaim, Json.ofStrings]

/-! ## Values in arrays -/

/-- A value is shown as it is or put into an array. -/
def Shows (shown value : Json) : Prop := shown = value ∨ shown = toArray value

lemma Shows.refl (value : Json) : Shows value value := Or.inl rfl

lemma Shows.toArray {shown value : Json} (h : Shows shown value) :
    Shows (Step.toArray shown) value := by
  rcases h with rfl | rfl
  · exact Or.inr rfl
  · refine Or.inr ?_
    cases value <;> rfl

lemma Shows.trans {shown middle value : Json} (h : Shows shown middle) (h' : Shows middle value) :
    Shows shown value := by
  rcases h with rfl | rfl
  · exact h'
  · exact h'.toArray

lemma Shows.isBlank_eq {shown value : Json} (h : Shows shown value)
    (hvalue : Mapping.isBlank value = false) : Mapping.isBlank shown = false := by
  rcases h with rfl | rfl
  · exact hvalue
  · cases value <;> rfl

lemma toArray_of_isArray {value : Json} (harray : value.isArray = true) :
    Step.toArray value = value := by
  rw [Step.toArray, if_pos harray]

lemma Shows.of_isArray {shown value : Json} (h : Shows shown value)
    (harray : value.isArray = true) : shown = value := by
  rcases h with rfl | rfl
  · rfl
  · exact toArray_of_isArray harray

/-! ## Joining what was assigned -/

section Join

variable {separator : String} (h : separator ≠ "") {names : List String} (hnodup : names.Nodup)

include h hnodup

/-- The parts of a text that were assigned to different names are joined to the text. -/
lemma join?_unassign_assign (text : String) :
    join? separator (unassign names
        (assign names (split separator (AttributeValue.single text).toClaim)))
      = some (.string text) := by
  have hsplit : split separator (AttributeValue.single text).toClaim
      = .array ((Text.split separator text).map .string) := rfl
  by_cases hnames : names = []
  · -- without names nothing is assigned
    have hassign : assign names (split separator (AttributeValue.single text).toClaim)
        = split separator (AttributeValue.single text).toClaim := by
      simp [hsplit, assign, hnames]
    rw [hassign, unassign_split]
    exact join?_pieces h text
  · have hpositional := positional_assigned_strings (Text.split separator text) hnames hnodup
    simp only [hsplit, assign, hnames, List.isEmpty_iff, ↓reduceIte, unassign, hpositional]
    exact join?_pieces h text

/-- Shown in an array, they are joined to the text as well, or to an array of it. -/
lemma join?_unassign_of_shows {text : String} {shown : Json}
    (hshown : Shows shown (assign names (split separator (AttributeValue.single text).toClaim))) :
    ∃ joined, join? separator (unassign names shown) = some joined
      ∧ Shows joined (AttributeValue.single text).toClaim := by
  rcases hshown with rfl | rfl
  · exact ⟨.string text, join?_unassign_assign h hnodup text, Shows.refl _⟩
  · have hsplit : split separator (AttributeValue.single text).toClaim
        = .array ((Text.split separator text).map .string) := rfl
    by_cases hnames : names = []
    · -- what is not assigned is an array already
      refine ⟨.string text, ?_, Shows.refl _⟩
      rw [toArray, if_pos (by simp [hsplit, assign, hnames, Json.isArray]),
        join?_unassign_assign h hnodup]
    · -- the object was put into an array, and its parts are joined inside the array
      have hpositional := positional_assigned_strings (Text.split separator text) hnames hnodup
      refine ⟨.array [.string text], ?_, Or.inr rfl⟩
      simp only [hsplit, assign, hnames, List.isEmpty_iff, toArray, Json.isArray,
        Bool.false_eq_true, ↓reduceIte, unassign, List.map_cons, List.map_nil, hpositional]
      exact join?_pieces_array h text

end Join

end Step

namespace AttributeValue

lemma leavesOfAll_strings (texts : List String) : leavesOfAll (texts.map .string) = texts := by
  induction texts with
  | nil => rw [List.map_nil, leavesOfAll]
  | cons text rest ih =>
    rw [List.map_cons, leavesOfAll, ih, leaves, claimText, List.singleton_append] <;> simp

lemma texts_ne_nil_of_hasData {value : AttributeValue} (hdata : value.hasData = true) :
    value.texts ≠ [] := by
  cases value with
  | single text => exact List.cons_ne_nil text []
  | multi texts => simpa [hasData] using hdata

/-- A value that carries data is stored as it is. -/
lemma ofClaim?_toClaim {value : AttributeValue} (hdata : value.hasData = true) :
    ofClaim? value.toClaim = some value := by
  cases value with
  | single text => rfl
  | multi texts =>
    obtain ⟨text, rest, rfl⟩ :=
      List.exists_cons_of_ne_nil (show texts ≠ [] by simpa [hasData] using hdata)
    simp only [toClaim, Json.ofStrings, ofClaim?, leavesOfAll_strings]

lemma toClaim_ne_null (value : AttributeValue) : value.toClaim ≠ .null := by
  cases value <;> simp [toClaim, Json.ofStrings]

/-- In an array the value is shown as the list of its strings. -/
lemma toArray_toClaim (value : AttributeValue) :
    Step.toArray value.toClaim = (multi value.texts).toClaim := by
  cases value <;> rfl

/-- A value that carries data is stored with its strings, whether it is shown as it is or in an
array. -/
lemma ofClaim?_of_shows {value : AttributeValue} (hdata : value.hasData = true) {shown : Json}
    (h : Step.Shows shown value.toClaim) :
    ∃ stored, ofClaim? shown = some stored ∧ stored.texts = value.texts := by
  rcases h with rfl | rfl
  · exact ⟨value, ofClaim?_toClaim hdata, rfl⟩
  · have hmulti : (multi value.texts).hasData = true := by
      cases value with
      | single text => rfl
      | multi texts => exact hdata
    exact ⟨.multi value.texts, by rw [toArray_toClaim, ofClaim?_toClaim hmulti], rfl⟩

end AttributeValue

/-! ## Rules that split -/

namespace Rule

open Step (Shows toArray)

/-- A rule that does nothing but split, assign the parts to different names, and force an
array. -/
structure Splitting (rule : Rule) : Prop where
  suffix_eq : rule.suffix = none
  lowercase_eq : rule.lowercase = false
  replace_eq : rule.replace = none
  label_eq : rule.label = none
  json_eq : rule.json = false
  nodup_assign : ∀ names ∈ rule.assign, names.Nodup

instance (rule : Rule) : Decidable rule.Splitting :=
  decidable_of_iff
    (rule.suffix = none ∧ rule.lowercase = false ∧ rule.replace = none ∧ rule.label = none
      ∧ rule.json = false ∧ ∀ names ∈ rule.assign, names.Nodup)
    ⟨fun ⟨suffix, lowercase, replace, label, json, nodup⟩ =>
      ⟨suffix, lowercase, replace, label, json, nodup⟩,
      fun h => ⟨h.suffix_eq, h.lowercase_eq, h.replace_eq, h.label_eq, h.json_eq, h.nodup_assign⟩⟩

/-- The value taken apart at the separator, if there is one. -/
def parts (rule : Rule) (value : Json) : Json :=
  match nonEmpty? rule.separator with
  | some separator => whenSet rule.assign Step.assign (Step.split separator value)
  | none => value

variable {rule : Rule} {value : AttributeValue} {shown : Json}

lemma ne_empty_of_nonEmpty? {option : Option String} {text : String}
    (h : nonEmpty? option = some text) : text ≠ "" := by
  simpa using (Option.filter_eq_some_iff.1 h).2

lemma present?_toClaim (value : AttributeValue) : value.toClaim.present? = some value.toClaim :=
  Json.present?_of_ne_null (AttributeValue.toClaim_ne_null value)

lemma Splitting.read?_eq (h : rule.Splitting) (value : AttributeValue) :
    rule.read? value.toClaim = some (if rule.array then toArray (rule.parts value.toClaim)
      else rule.parts value.toClaim) := by
  have hunpack : rule.unpack? value.toClaim = some (rule.parts value.toClaim) := by
    rw [unpack?, parts]
    cases nonEmpty? rule.separator with
    | none => simp [h.json_eq]
    | some separator => rfl
  simp [read?, present?_toClaim, h.replace_eq, h.label_eq, h.suffix_eq, h.lowercase_eq, whenSet,
    whenSet?, nonEmpty?, hunpack]

lemma Splitting.read?_toClaim (h : rule.Splitting) (value : AttributeValue) :
    ∃ shown, rule.read? value.toClaim = some shown ∧ Shows shown (rule.parts value.toClaim) := by
  refine ⟨_, h.read?_eq value, ?_⟩
  split
  · exact Or.inr rfl
  · exact Or.inl rfl

lemma Splitting.write?_eq_pack? (h : rule.Splitting) (hshown : shown ≠ .null) :
    rule.write? shown = rule.pack? shown := by
  simp [write?, Json.present?_of_ne_null hshown, h.replace_eq, h.label_eq, h.suffix_eq, whenSet,
    whenSet?, nonEmpty?]

lemma parts_ne_null (rule : Rule) (value : AttributeValue) : rule.parts value.toClaim ≠ .null := by
  rw [parts]
  cases nonEmpty? rule.separator with
  | none => exact AttributeValue.toClaim_ne_null value
  | some separator =>
    obtain ⟨items, hitems⟩ := Step.exists_split_eq separator value
    cases rule.assign with
    | none => simp [whenSet, hitems]
    | some names => cases names <;> simp [whenSet, Step.assign, hitems]

/-- What is taken apart of a value that carries data is never missing. -/
lemma isBlank_parts (rule : Rule) (hdata : value.hasData = true) :
    Mapping.isBlank (rule.parts value.toClaim) = false := by
  rw [parts]
  cases nonEmpty? rule.separator with
  | none =>
    cases value with
    | single text =>
      simpa [AttributeValue.toClaim, Mapping.isBlank, AttributeValue.hasData] using hdata
    | multi texts => rfl
  | some separator =>
    obtain ⟨items, hitems⟩ := Step.exists_split_eq separator value
    cases rule.assign with
    | none => simp [whenSet, hitems, Mapping.isBlank]
    | some names => cases names <;> simp [whenSet, Step.assign, hitems, Mapping.isBlank]

/-- What was taken apart is put together again, whether it is shown as it is or in an array. -/
lemma Splitting.pack?_of_shows (h : rule.Splitting) (hne : value.texts ≠ [])
    (hsingle : rule.assign.isSome → value.isMulti = false)
    (hshown : Shows shown (rule.parts value.toClaim)) :
    ∃ packed, rule.pack? shown = some packed ∧ Shows packed value.toClaim := by
  rw [parts] at hshown
  rw [pack?]
  cases hsep : nonEmpty? rule.separator with
  | none =>
    rw [hsep] at hshown
    exact ⟨shown, by simp [h.json_eq], hshown⟩
  | some separator =>
    have hsome := ne_empty_of_nonEmpty? hsep
    cases hassign : rule.assign with
    | none =>
      simp only [hsep, hassign, whenSet] at hshown ⊢
      rw [hshown.of_isArray (Step.isArray_split separator value)]
      exact ⟨value.toClaim, Step.join?_split hsome hne, Shows.refl _⟩
    | some names =>
      rw [hassign] at hsingle
      obtain ⟨text, rfl⟩ : ∃ text, value = .single text := by
        cases value with
        | single text => exact ⟨text, rfl⟩
        | multi texts => exact absurd (hsingle rfl) (by simp [AttributeValue.isMulti])
      simp only [hsep, hassign, whenSet] at hshown ⊢
      exact Step.join?_unassign_of_shows hsome (h.nodup_assign names hassign) hshown

/-- **Splitting is undone.**  What the rule reads from an attribute that carries data, shown as
it is or in an array, is not missing, and is written back as a value with the strings of the
attribute. -/
lemma Splitting.write?_of_shows (h : rule.Splitting) (hdata : value.hasData = true)
    (hsingle : rule.assign.isSome → value.isMulti = false) {read : Json}
    (hread : rule.read? value.toClaim = some read) (hshown : Shows shown read) :
    Mapping.isBlank shown = false
      ∧ ∃ written stored, rule.write? shown = some written
          ∧ AttributeValue.ofClaim? written = some stored ∧ stored.texts = value.texts := by
  obtain ⟨parted, hparted, hshows⟩ := h.read?_toClaim value
  rw [hread, Option.some.injEq] at hparted
  have hparts : Shows shown (rule.parts value.toClaim) := hshown.trans (hparted ▸ hshows)
  have hblank := hparts.isBlank_eq (isBlank_parts rule hdata)
  have hnull : shown ≠ .null := by
    rintro rfl
    simp [Mapping.isBlank] at hblank
  obtain ⟨written, hpack, hwritten⟩ :=
    h.pack?_of_shows (AttributeValue.texts_ne_nil_of_hasData hdata) hsingle hparts
  obtain ⟨stored, hstored, htexts⟩ := AttributeValue.ofClaim?_of_shows hdata hwritten
  exact ⟨hblank, written, stored, by rw [h.write?_eq_pack? hnull, hpack], hstored, htexts⟩

end Rule
end EntryClaims
