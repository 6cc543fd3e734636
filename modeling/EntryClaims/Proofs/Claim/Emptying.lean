/-
# Claims that are stored as the empty string

A blank claim is not stored, but a claim that is not blank may come out blank when it is written.
Three steps can empty it: removing the suffix from a string that is nothing but suffixes, joining
parts that are all gone, and putting back the empty string by a table.  Afterwards only a value
without any text is left out.  So an attribute of a written record is never an empty list, and it is
the empty string exactly when one claim alone contributes to it and one of these steps has emptied
the claim.
-/
import EntryClaims.Proofs.Claim.Collecting
import EntryClaims.Proofs.Claim.Rereading
import EntryClaims.Proofs.Entry.Texts

namespace EntryClaims

/-! ## Texts that are never empty -/

namespace Binary64

lemma dropFinalZeros_ne_nil (digits : List Char) : dropFinalZeros digits ≠ [] := by
  rw [dropFinalZeros]
  split
  · exact List.cons_ne_nil _ _
  · assumption

lemma layout_ne_nil {digits : List Char} (h : digits ≠ []) (exponent : Int) :
    layout digits exponent ≠ [] := by
  obtain ⟨first, rest, rfl⟩ := List.exists_cons_of_ne_nil h
  rw [layout]
  split
  · cases rest <;> exact List.cons_ne_nil _ _
  · split
    · exact List.cons_ne_nil _ _
    · dsimp only
      split <;> simp

lemma render_ne_empty (x : Binary64) : x.render ≠ "" := by
  rw [render]
  split
  · simp
  · simp [layout_ne_nil (dropFinalZeros_ne_nil _)]

end Binary64

lemma Number.render_ne_empty (n : Number) : n.render ≠ "" := by
  cases n with
  | integer n => cases n <;> simp [render, toString, Int.repr]
  | float x => exact Binary64.render_ne_empty x

lemma Json.render_ne_empty (value : Json) : value.render ≠ "" := by
  cases value with
  | number n => exact Number.render_ne_empty n
  | bool b => cases b <;> simp [render]
  | string s => simp [render, quote]
  | null | array _ | object _ => simp [render]

/-! ## Nulls and arrays -/

lemma Json.isNull_iff {value : Json} : value.isNull = true ↔ value = .null := by
  cases value <;> simp [isNull]

lemma Json.not_isNull_of_isArray {value : Json} (h : value.isArray = true) :
    value.isNull = false := by
  cases value <;> first | rfl | cases h

/-! ## Texts with nothing in them -/

namespace Text

lemma intercalate_eq_empty_iff {separator : String} (h : separator ≠ "") {texts : List String} :
    separator.intercalate texts = "" ↔ texts = [] ∨ texts = [""] := by
  match texts with
  | [] => simp
  | [text] => simp
  | first :: second :: rest => simp [String.intercalate_cons_cons, h]

lemma intercalate_replicate_nil (sep : List Char) (count : Nat) :
    sep.intercalate (List.replicate (count + 1) []) = (List.replicate count sep).flatten := by
  induction count with
  | zero => simp
  | succ count ih =>
    rw [List.replicate_succ, List.replicate_succ, List.intercalate_cons_cons,
      ← List.replicate_succ, ih, List.nil_append, List.replicate_succ, List.flatten_cons]

lemma cutFrom_append (sep front text : List Char) :
    cutFrom sep front.length (front ++ text) = cutFrom sep 0 text := by
  induction front with
  | nil => rfl
  | cons c cs ih => rw [List.length_cons, List.cons_append, cutFrom, ih]

/-- Nothing is left of a text without the pattern when the text is the pattern over and over. -/
lemma remove_eq_nil_iff {pattern : List Char} (h : pattern ≠ []) {text : List Char} :
    remove pattern text = [] ↔ ∃ count, text = (List.replicate count pattern).flatten := by
  rw [remove, cut, if_neg (by simpa using h)]
  constructor
  · intro hflatten
    -- all pieces are empty, and joined by the pattern they are the text
    have hempty := List.eq_replicate_iff.2 ⟨rfl, List.flatten_eq_nil_iff.1 hflatten⟩
    obtain ⟨count, hcount⟩ := Nat.exists_eq_succ_of_ne_zero
      (mt List.length_eq_zero_iff.1 (cutFrom_ne_nil pattern 0 text))
    have htext := intercalate_cutFrom h 0 text
    rw [hempty, hcount, intercalate_replicate_nil, List.drop_zero] at htext
    exact ⟨count, htext.symm⟩
  · rintro ⟨count, rfl⟩
    obtain ⟨c, cs, rfl⟩ := List.exists_cons_of_ne_nil h
    induction count with
    | zero => simp [cutFrom]
    | succ count ih =>
      rw [List.replicate_succ, List.flatten_cons, List.cons_append, cutFrom, if_pos (by simp),
        List.length_cons, Nat.add_sub_cancel, cutFrom_append, List.flatten_cons, ih,
        List.nil_append]

end Text

namespace Step

lemma text_eq_empty_iff {value : Json} : text value = "" ↔ value = .string "" := by
  cases value with
  | string s => simp [text]
  | null | bool _ | number _ | array _ | object _ => simp [text, Json.render_ne_empty]

/-- A string is emptied by taking away the suffix when it is the suffix over and over. -/
lemma stripSuffix_eq_empty_iff {suffix : String} (h : suffix ≠ "") {value : Json} :
    stripSuffix suffix value = .string ""
      ↔ ∃ count, value = .string (String.join (List.replicate count suffix)) := by
  cases value with
  | string s =>
    have hne : suffix.toList ≠ [] := by simpa using h
    have hjoin : ∀ count, (String.join (List.replicate count suffix)).toList
        = (List.replicate count suffix.toList).flatten := fun count => by
      rw [String.toList_join, List.flatMap_replicate]
    simp only [stripSuffix, onStrings, onString, Json.string.injEq, ← String.toList_inj,
      String.toList_ofList, String.toList_empty, Text.remove_eq_nil_iff hne, hjoin]
  | null | bool _ | number _ | array _ | object _ => simp [stripSuffix, onStrings, onString]

/-! ## Values that are joined to nothing -/

/-- A value whose parts are all gone: the empty string, an array of nulls, or an array with nothing
but nulls beside one such value.  An array that holds just an array is joined inside, so it keeps
its item. -/
inductive Hollow : Json → Prop where
  /-- The empty string. -/
  | empty : Hollow (.string "")
  /-- An array of nulls. -/
  | nulls {items : List Json} (h : ∀ item ∈ items, item = .null) : Hollow (.array items)
  /-- An array with one item that is not null, and this is hollow. -/
  | lone {items : List Json} {item : Json} (honly : items.filter (!·.isNull) = [item])
      (hitem : Hollow item) (harray : item.isArray = true → items ≠ [item]) : Hollow (.array items)

/-- When an array is hollow: it is not an array of arrays, which are joined one by one, and at most
one item is not null, which is hollow. -/
lemma hollow_array_iff {items : List Json} :
    Hollow (.array items) ↔
      ¬ (items ≠ [] ∧ ∀ item ∈ items, item.isArray = true)
        ∧ (items.filter (!·.isNull) = []
          ∨ ∃ item, items.filter (!·.isNull) = [item] ∧ Hollow item) := by
  constructor
  · intro h
    cases h with
    | nulls hnull =>
      refine ⟨fun ⟨hne, harrays⟩ => ?_, Or.inl (List.filter_eq_nil_iff.2 fun item hitem => ?_)⟩
      · obtain ⟨item, hitem⟩ := List.exists_mem_of_ne_nil items hne
        have harray := harrays item hitem
        rw [hnull item hitem] at harray
        cases harray
      · simp [Json.isNull_iff.2 (hnull item hitem)]
    | @lone _ item honly hitem halone =>
      refine ⟨fun ⟨_, harrays⟩ => ?_, Or.inr ⟨item, honly, hitem⟩⟩
      rw [List.filter_eq_self.2 fun item hitem => by
        simp [Json.not_isNull_of_isArray (harrays item hitem)]] at honly
      exact halone (harrays item (by simp [honly])) honly
  · rintro ⟨hmixed, hnone | ⟨item, honly, hitem⟩⟩
    · exact .nulls fun item hitem =>
        Json.isNull_iff.1 (by simpa using List.filter_eq_nil_iff.1 hnone item hitem)
    · exact .lone honly hitem fun harray hitems => hmixed (by simp [hitems, harray])

lemma joinTexts_eq (separator : String) (items : List Json) :
    joinTexts separator items
      = (items.filter (!·.isNull)).map fun item => text ((join? separator item).getD item) := by
  induction items with
  | nil => rw [joinTexts]; rfl
  | cons item rest ih =>
    cases item with
    | null => rw [joinTexts, ih]; rfl
    | array nested =>
      obtain ⟨joined, hjoin⟩ : ∃ joined, join? separator (.array nested) = some joined := by
        rw [join?]
        split <;> exact ⟨_, rfl⟩
      rw [joinTexts, ih, List.filter_cons_of_pos rfl, List.map_cons, hjoin]
      rfl
    | string _ | bool _ | number _ | object _ =>
      rw [joinTexts, ih] <;> simp [Json.isNull, join?]

lemma getD_join?_eq_empty_iff {separator : String} {item : Json} :
    (join? separator item).getD item = .string "" ↔ join? separator item = some (.string "") := by
  cases hjoin : join? separator item with
  | some joined => simp
  | none =>
    cases item with
    | string s => simp [join?] at hjoin
    | null | bool _ | number _ | array _ | object _ => simp

/-- Joining gives the empty string for hollow values only. -/
lemma join?_eq_empty_iff {separator : String} (h : separator ≠ "") (value : Json) :
    join? separator value = some (.string "") ↔ Hollow value := by
  match value with
  | .string s =>
    rw [join?, Option.some.injEq, Json.string.injEq]
    exact ⟨fun hs => hs ▸ .empty, fun hs => by cases hs; rfl⟩
  | .array items =>
    have ih : ∀ item ∈ items, join? separator item = some (.string "") ↔ Hollow item :=
      fun item _ => join?_eq_empty_iff h item
    rw [hollow_array_iff, join?]
    split
    case isTrue hall => exact iff_of_false (by simp) fun hhollow => hhollow.1 (by simpa using hall)
    case isFalse hall =>
      rw [and_iff_right (by simpa using hall), Option.some.injEq, Json.string.injEq,
        Text.intercalate_eq_empty_iff h, joinTexts_eq, List.map_eq_nil_iff,
        List.map_eq_singleton_iff]
      refine or_congr_right (exists_congr fun item => and_congr_right fun honly => ?_)
      have hmem : item ∈ items := (List.mem_filter.1 (honly ▸ List.mem_singleton_self item)).1
      rw [text_eq_empty_iff, getD_join?_eq_empty_iff, ih item hmem]
  | .null | .bool _ | .number _ | .object _ =>
    exact iff_of_false (by simp [join?]) (by rintro ⟨⟩)
termination_by value

/-! ## Labels -/

/-- With a label behind it, a value is one string or several, none of them empty. -/
lemma exists_texts_of_attachLabel? {label : String} {value labelled : Json}
    (h : attachLabel? label value = some labelled) :
    ∃ texts : List String, "" ∉ texts ∧ gather? (texts.map .string) = some labelled := by
  have hlabel : ∀ value : Json, text value ++ " " ++ label ≠ "" := fun value => by simp
  cases value with
  | null => cases h
  | array items =>
    refine ⟨(items.filter (!·.isNull)).map fun item => text item ++ " " ++ label, ?_, ?_⟩
    · simp [hlabel]
    · rw [attachLabel?] at h
      rw [← h, List.map_map]
      rfl
  | bool _ | number _ | string _ | object _ =>
    exact ⟨[_], by simp, h⟩

/-- A value with a label behind it is not hollow, whatever names its parts are assigned to. -/
lemma not_hollow_of_attachLabel? {label : String} {value labelled : Json}
    (h : attachLabel? label value = some labelled) (names : Option (List String)) :
    ¬ Hollow (Rule.whenSet names unassign labelled) := by
  obtain ⟨texts, hne, hgather⟩ := exists_texts_of_attachLabel? h
  match texts with
  | [] => cases hgather
  | [only] =>
    obtain rfl : Json.string only = labelled := Option.some.inj hgather
    have hkept : Rule.whenSet names unassign (.string only) = .string only := by
      cases names <;> rfl
    rw [hkept]
    rintro ⟨⟩
    exact hne (List.mem_singleton_self "")
  | first :: second :: rest =>
    obtain rfl : Json.ofStrings (first :: second :: rest) = labelled := Option.some.inj hgather
    have hkept : Rule.whenSet names unassign (Json.ofStrings (first :: second :: rest))
        = Json.ofStrings (first :: second :: rest) := by
      cases names <;> simp [Rule.whenSet, unassign, Json.ofStrings]
    -- joined by any separator, the strings make a text
    have hspace : " " ≠ "" := by decide
    rw [hkept, ← join?_eq_empty_iff hspace, join?_strings]
    simp [String.intercalate_cons_cons]

end Step

namespace Rule

variable {rule : Rule} {shown value : Json}

/-! ## What a rule leaves of a claim -/

/-- Nothing is left of a claim before the table of its rule puts anything back. -/
inductive Empties (rule : Rule) (shown : Json) : Prop where
  /-- The claim without the suffix, its parts in the order of the names, is joined to nothing. -/
  | joined {separator : String} (hlabel : nonEmpty? rule.label = none)
      (hseparator : nonEmpty? rule.separator = some separator)
      (hparts : Step.Hollow (whenSet rule.assign Step.unassign
        (whenSet (nonEmpty? rule.suffix) Step.stripSuffix shown)))
  /-- The claim is the suffix over and over, and nothing else is done to it. -/
  | stripped {suffix : String} (hlabel : nonEmpty? rule.label = none)
      (hseparator : nonEmpty? rule.separator = none) (hjson : rule.json = false)
      (hsuffix : nonEmpty? rule.suffix = some suffix) (count : Nat)
      (hshown : shown = .string (String.join (List.replicate count suffix)))

lemma pack?_eq_empty_iff :
    rule.pack? value = some (.string "") ↔
      (∃ separator, nonEmpty? rule.separator = some separator
        ∧ Step.Hollow (whenSet rule.assign Step.unassign value))
      ∨ nonEmpty? rule.separator = none ∧ rule.json = false ∧ value = .string "" := by
  rw [pack?]
  cases hseparator : nonEmpty? rule.separator with
  | some separator => simp [Step.join?_eq_empty_iff (ne_empty_of_nonEmpty? hseparator)]
  | none =>
    cases hjson : rule.json with
    | false => simp
    | true =>
      cases value <;> simp [Step.serialize?, Json.render_ne_empty]

lemma stripped_eq_empty_iff (hblank : shown ≠ .string "") :
    whenSet (nonEmpty? rule.suffix) Step.stripSuffix shown = .string "" ↔
      ∃ suffix, nonEmpty? rule.suffix = some suffix
        ∧ ∃ count, shown = .string (String.join (List.replicate count suffix)) := by
  cases hsuffix : nonEmpty? rule.suffix with
  | none => simpa [whenSet] using hblank
  | some suffix =>
    simpa [whenSet] using Step.stripSuffix_eq_empty_iff (ne_empty_of_nonEmpty? hsuffix)

/-- Without its table, a rule writes the empty string for just the claims that it empties. -/
lemma write?_withoutTable_eq_empty_iff (hnull : shown ≠ .null) (hblank : shown ≠ .string "") :
    rule.withoutTable.write? shown = some (.string "") ↔ rule.Empties shown := by
  have hwrite : rule.withoutTable.write? shown
      = (whenSet? (nonEmpty? rule.label) Step.attachLabel?
          (whenSet (nonEmpty? rule.suffix) Step.stripSuffix shown)).bind rule.pack? := by
    show (shown.present?.bind fun present =>
      (whenSet? (nonEmpty? rule.label) Step.attachLabel?
        (whenSet (nonEmpty? rule.suffix) Step.stripSuffix present)).bind fun labelled =>
          (rule.pack? labelled).bind some) = _
    simp only [Json.present?_of_ne_null hnull, Option.bind_some, Option.bind_fun_some]
  rw [hwrite]
  cases hlabel : nonEmpty? rule.label with
  | some label =>
    refine iff_of_false (fun hempty => ?_) fun hempties => ?_
    · obtain ⟨labelled, hattach, hpack⟩ := Option.bind_eq_some_iff.1 hempty
      have hnot := Step.not_hollow_of_attachLabel? hattach
      rcases pack?_eq_empty_iff.1 hpack with ⟨_, -, hhollow⟩ | ⟨-, -, rfl⟩
      · exact hnot rule.assign hhollow
      · exact hnot none .empty
    · cases hempties with
      | joined hnone | stripped hnone => cases hlabel.symm.trans hnone
  | none =>
    rw [whenSet?, Option.bind_some, pack?_eq_empty_iff, stripped_eq_empty_iff hblank]
    constructor
    · rintro (⟨separator, hseparator, hparts⟩
        | ⟨hseparator, hjson, suffix, hsuffix, count, hshown⟩)
      · exact .joined hlabel hseparator hparts
      · exact .stripped hlabel hseparator hjson hsuffix count hshown
    · intro hempties
      cases hempties with
      | joined _ hseparator hparts => exact Or.inl ⟨_, hseparator, hparts⟩
      | stripped _ hseparator hjson hsuffix count hshown =>
        exact Or.inr ⟨hseparator, hjson, _, hsuffix, count, hshown⟩

lemma unmapped_eq_empty_iff {text : String} :
    rule.unmapped text = "" ↔
      (∃ table, rule.replace = some table ∧ Step.keyOf? table text = some "")
        ∨ text = "" ∧ rule.unmapped "" = "" := by
  rw [unmapped]
  cases rule.replace with
  | none => simp
  | some table =>
    by_cases htext : text = ""
    · subst htext
      cases hkey : Step.keyOf? table "" <;> simp [Step.unmapped, hkey]
    · cases hkey : Step.keyOf? table text <;> simp [Step.unmapped, hkey, htext]

lemma unreplaced_eq_empty_iff :
    whenSet rule.replace Step.unreplace value = .string "" ↔
      ∃ text, value = .string text ∧ rule.unmapped text = "" := by
  have hstring : ∀ text, whenSet rule.replace Step.unreplace (.string text)
      = .string (rule.unmapped text) := fun text => by
    rw [unmapped]
    cases rule.replace <;> rfl
  cases value with
  | string text => rw [hstring]; simp
  | null | bool _ | number _ | array _ | object _ =>
    cases hreplace : rule.replace <;> simp [whenSet, Step.unreplace, Step.onStrings, Step.onString]

/-- A rule writes the empty string for a claim when its table puts it back for what is written
without the table, or when the claim is emptied and the table puts nothing else back. -/
lemma write?_eq_empty_iff (hnull : shown ≠ .null) (hblank : shown ≠ .string "") :
    rule.write? shown = some (.string "") ↔
      (∃ table text, rule.replace = some table ∧ Step.keyOf? table text = some ""
          ∧ rule.withoutTable.write? shown = some (.string text))
        ∨ rule.Empties shown ∧ rule.unmapped "" = "" := by
  rw [write?_eq_map, Option.map_eq_some_iff, ← write?_withoutTable_eq_empty_iff hnull hblank]
  constructor
  · rintro ⟨written, hwrite, hunreplaced⟩
    obtain ⟨text, rfl, htext⟩ := unreplaced_eq_empty_iff.1 hunreplaced
    rcases unmapped_eq_empty_iff.1 htext with ⟨table, htable, hkey⟩ | ⟨rfl, hkept⟩
    · exact Or.inl ⟨table, text, htable, hkey, hwrite⟩
    · exact Or.inr ⟨hwrite, hkept⟩
  · have hunreplaced : ∀ {text}, rule.unmapped text = "" →
        whenSet rule.replace Step.unreplace (.string text) = .string "" :=
      fun h => unreplaced_eq_empty_iff.2 ⟨_, rfl, h⟩
    rintro (⟨table, text, htable, hkey, hwrite⟩ | ⟨hwrite, hkept⟩)
    · exact ⟨_, hwrite, hunreplaced (unmapped_eq_empty_iff.2 (Or.inl ⟨table, htable, hkey⟩))⟩
    · exact ⟨_, hwrite, hunreplaced hkept⟩

end Rule

/-! ## Values without data -/

namespace AttributeValue

variable {written : Json} {value : AttributeValue}

/-- A value that stores a claim is no empty list. -/
lemma texts_ne_nil_of_ofClaim? (h : ofClaim? written = some value) : value.texts ≠ [] := by
  cases written with
  | null => cases h
  | array items =>
    rw [ofClaim?] at h
    split at h
    case h_1 => cases h
    case h_2 hleaves =>
      obtain rfl := Option.some.inj h
      exact hleaves
  | bool _ | number _ | string _ | object _ =>
    obtain rfl := Option.some.inj h
    exact List.cons_ne_nil _ _

lemma ofClaim?_eq_empty_iff : ofClaim? written = some (.single "") ↔ written = .string "" := by
  cases written with
  | null => simp [ofClaim?]
  | array items =>
    rw [ofClaim?]
    split <;> simp
  | bool _ | number _ | string _ | object _ =>
    simp [ofClaim?, claimText, Json.render_ne_empty]

end AttributeValue

namespace Mapping

variable {mapping : Mapping} {document : Document} {claim name : String} {rules : List Rule}
  {value : AttributeValue}

/-- What was collected has no data only where the empty string is all that was contributed, and
contributed once; where several values are, the first leaves a text in the list. -/
lemma collected_without_data_iff {values : List AttributeValue}
    (h : ∀ value ∈ values, value.texts ≠ []) :
    collected values = some value ∧ value.hasData = false
      ↔ value = .single "" ∧ values = [.single ""] := by
  match values with
  | [] => simp [collected]
  | [only] =>
    have honly := h only (List.mem_singleton_self only)
    rw [collected, Option.some.injEq, List.singleton_inj]
    constructor
    · rintro ⟨rfl, hdata⟩
      have hempty := (AttributeValue.hasData_eq_false_iff.1 hdata).resolve_left fun hnone =>
        honly (by rw [hnone, AttributeValue.texts_multi])
      exact ⟨hempty, hempty⟩
    · rintro ⟨rfl, rfl⟩
      exact ⟨rfl, rfl⟩
  | first :: second :: rest =>
    refine iff_of_false ?_ (by simp)
    rintro ⟨hcollected, hdata⟩
    obtain rfl := Option.some.inj hcollected
    rw [ValueSet.addAll_eq_append] at hdata
    simp [AttributeValue.hasData, h first List.mem_cons_self] at hdata

lemma texts_ne_nil_of_mem_valuesFor (h : value ∈ mapping.valuesFor document name) :
    value.texts ≠ [] := by
  obtain ⟨⟨target, stored⟩, hmem, rfl⟩ := List.mem_map.1 h
  obtain ⟨claim, rules, -, hcontribution⟩ := mem_contributions.1 (List.mem_filter.1 hmem).1
  obtain ⟨-, -, -, written, -, -, -, -, -, -, hstored⟩ := contribution?_eq_some_iff.1 hcontribution
  exact AttributeValue.texts_ne_nil_of_ofClaim? hstored

/-- **When a written attribute has no data.**  Whatever the mapping and the document, an attribute
of the written record has no data exactly when a single claim contributes to it and contributes the
empty string, and then it is the empty string; it is never an empty list.  A claim contributes the
empty string exactly when it is not blank itself and its first rule leaves nothing of it.  Either
the table of the rule puts the empty string back for what is written without the table.  Or the
table puts nothing else back for the empty string, no label is put behind the claim, and the claim
without the suffix is joined to nothing or, if it is not joined and not written as JSON text either,
is the suffix over and over. -/
theorem stored_without_data (mapping : Mapping) (document : Document) (name : String) :
    (∀ value, (mapping.recordOf document).get? name = some value ∧ value.hasData = false
        ↔ value = .single "" ∧ mapping.valuesFor document name = [.single ""])
      ∧ ∀ claim rules, contribution? document claim rules = some (name, .single "") ↔
        ∃ rule rest shown, rules = rule :: rest ∧ rule.source.root? = some name
          ∧ document.getPath? claim = some shown ∧ shown ≠ .null ∧ shown ≠ .string ""
          ∧ ((∃ table text, rule.replace = some table ∧ Step.keyOf? table text = some ""
                ∧ rule.withoutTable.write? shown = some (.string text))
              ∨ rule.Empties shown ∧ rule.unmapped "" = "") := by
  refine ⟨fun value => ?_, fun claim rules => ?_⟩
  · rw [recordOf_eq_foldl, get?_foldl_collect]
    exact collected_without_data_iff fun value => texts_ne_nil_of_mem_valuesFor
  · rw [contribution?_eq_some_iff]
    constructor
    · rintro ⟨rule, rest, shown, written, hrules, hroot, hshown, hnull, hblank, hwrite, hstored⟩
      obtain rfl := AttributeValue.ofClaim?_eq_empty_iff.1 hstored
      exact ⟨rule, rest, shown, hrules, hroot, hshown, hnull, hblank,
        (Rule.write?_eq_empty_iff hnull hblank).1 hwrite⟩
    · rintro ⟨rule, rest, shown, hrules, hroot, hshown, hnull, hblank, hempty⟩
      exact ⟨rule, rest, shown, _, hrules, hroot, hshown, hnull, hblank,
        (Rule.write?_eq_empty_iff hnull hblank).2 hempty, rfl⟩

/-- Of an address that is only the suffix nothing is left, and the mapping is accepted. -/
theorem domain_alone_stored_empty :
    let mapping : Mapping :=
      ⟨[("sub", [{ source := .one "uid", suffix := some "@example.org" }])], by decide⟩
    let document : Document := ⟨[("sub", .string "@example.org")]⟩
    (mapping.validate = .ok () ∧ (mapping.recordOf document).get? "uid" = some (.single "")
        ∧ (AttributeValue.single "").hasData = false)
      ∧ ¬ ∀ (mapping : Mapping) (document : Document), mapping.validate = .ok () →
          Record.Filled (mapping.recordOf document) := by
  intro mapping document
  have hvalid : mapping.validate = .ok () := by decide
  have hget : (mapping.recordOf document).get? "uid" = some (.single "") := by decide
  refine ⟨⟨hvalid, hget, rfl⟩, fun hfilled => ?_⟩
  have hdata := (hfilled mapping document hvalid).get? hget
  cases hdata

end Mapping
end EntryClaims
