/-
# Several values under names

A rule that splits a value and assigns the parts to names is made for one value.  Of several values
each is split on its own, and then it is the values that are matched with the names, not their
parts: a name gets all parts of a value, and the first name an array of values when there are more
values than names.  Put together again, the parts of different names stand side by side, with
nothing left that tells where a value ends.  So the values come back as a single one, joined with
the separator, unless there is at most one name to hold them all.
-/
import EntryClaims.Proofs.Claim.Splitting

namespace EntryClaims

/-- A rule whose only options are a separator and the names that the parts are assigned to. -/
def Rule.parting (source : Source) (separator : String) (names : List String) : Rule :=
  { source, separator := some separator, assign := some names }

namespace Step

variable {separator : String} {names texts whole cut : List String}

/-- The parts of a text in an array. -/
def pieces (separator text : String) : Json := Json.ofStrings (Text.split separator text)

lemma split_multi (separator : String) (texts : List String) :
    split separator (AttributeValue.multi texts).toClaim
      = .array (texts.map (pieces separator)) := by
  simp [split, onStrings, onString, AttributeValue.toClaim, Json.ofStrings, pieces]

/-- Assigned to names, the leading values stay apart when there are more values than names; of all
others only the parts are left, one after the other. -/
lemma positional_assigned_pieces (separator : String) (texts : List String) (hne : names ≠ [])
    (hnodup : names.Nodup) :
    let apart := if names.length < texts.length then texts.length - names.length + 1 else 0
    positional names (assigned (texts.map (pieces separator)) names)
      = (texts.take apart).map (pieces separator)
        ++ ((texts.drop apart).flatMap (Text.split separator)).map .string := by
  intro apart
  have hgiven : ∀ texts : List String,
      (texts.map (pieces separator)).flatMap (fun item => given item.present?)
        = (texts.flatMap (Text.split separator)).map .string := by
    intro texts
    rw [List.flatMap_map, List.map_flatMap]
    rfl
  rw [positional_assigned _ hne hnodup, List.length_map]
  simp only [apart]
  split
  · rw [← List.map_take, ← List.map_drop, hgiven]
  · rw [hgiven, List.take_zero, List.drop_zero, List.map_nil, List.nil_append]

section Join

variable (h : separator ≠ "")

include h

lemma joinTexts_pieces_append (texts : List String) (items : List Json) :
    joinTexts separator (texts.map (pieces separator) ++ items)
      = texts ++ joinTexts separator items := by
  induction texts with
  | nil => rfl
  | cons text rest ih =>
    have hjoin : join? separator (.array ((Text.split separator text).map .string))
        = some (.string text) := join?_pieces h text
    rw [List.map_cons, List.cons_append, pieces, Json.ofStrings, joinTexts, hjoin, ih]
    rfl

lemma intercalate_flatMap_split (texts : List String) :
    separator.intercalate (texts.flatMap (Text.split separator))
      = separator.intercalate texts := by
  induction texts with
  | nil => rfl
  | cons text rest ih =>
    rw [List.flatMap_cons]
    by_cases hrest : rest = []
    · rw [hrest, List.flatMap_nil, List.append_nil, Text.intercalate_split h,
        String.intercalate_singleton]
    · have hparts : rest.flatMap (Text.split separator) ≠ [] := by
        obtain ⟨next, others, rfl⟩ := List.exists_cons_of_ne_nil hrest
        simp [Text.split_ne_nil h]
      rw [String.intercalate_append_of_ne_nil (Text.split_ne_nil h text) hparts, ih,
        Text.intercalate_split h, String.intercalate_cons_of_ne_nil hrest]

/-- Some values that were kept apart and the parts of others are joined to one text. -/
lemma join?_pieces_append (whole : List String) (hcut : cut ≠ []) :
    join? separator (.array (whole.map (pieces separator)
        ++ (cut.flatMap (Text.split separator)).map .string))
      = some (.string (separator.intercalate (whole ++ cut))) := by
  have hparts : cut.flatMap (Text.split separator) ≠ [] := by
    obtain ⟨text, rest, rfl⟩ := List.exists_cons_of_ne_nil hcut
    simp [Text.split_ne_nil h]
  have hall : (whole.map (pieces separator)
      ++ (cut.flatMap (Text.split separator)).map Json.string).all Json.isArray = false := by
    obtain ⟨part, parts, heq⟩ := List.exists_cons_of_ne_nil hparts
    simp [heq, Json.isArray]
  have hjoin : separator.intercalate (whole ++ cut.flatMap (Text.split separator))
      = separator.intercalate (whole ++ cut) := by
    by_cases hwhole : whole = []
    · rw [hwhole, List.nil_append, List.nil_append, intercalate_flatMap_split h]
    · rw [String.intercalate_append_of_ne_nil hwhole hparts, intercalate_flatMap_split h,
        String.intercalate_append_of_ne_nil hwhole hcut]
  rw [join?, hall, Bool.and_false, if_neg Bool.false_ne_true, joinTexts_pieces_append h,
    joinTexts_strings, hjoin]

/-- What becomes of several values that were assigned to names and put together again. -/
lemma join?_unassign_assign_multi (hnodup : names.Nodup) (hmany : 2 ≤ texts.length) :
    join? separator (unassign names
        (assign names (split separator (AttributeValue.multi texts).toClaim)))
      = some (if names.length ≤ 1 then (AttributeValue.multi texts).toClaim
          else .string (separator.intercalate texts)) := by
  have hne : (AttributeValue.multi texts).texts ≠ [] :=
    List.ne_nil_of_length_pos (Nat.lt_of_lt_of_le Nat.zero_lt_two hmany)
  have hwhole := join?_split h hne
  by_cases hnames : names = []
  · have hassign : assign names (split separator (AttributeValue.multi texts).toClaim)
        = split separator (AttributeValue.multi texts).toClaim := by
      simp [split_multi, assign, hnames]
    rw [hassign, unassign_split, hwhole, hnames, List.length_nil, if_pos (Nat.zero_le 1)]
  have hpositional := positional_assigned_pieces separator texts hnames hnodup
  have hassign : unassign names
      (assign names (split separator (AttributeValue.multi texts).toClaim))
        = .array (positional names (assigned (texts.map (pieces separator)) names)) := by
    simp [split_multi, assign, hnames, unassign]
  have hpos : 0 < names.length := List.length_pos_iff.2 hnames
  rw [hassign, hpositional]
  by_cases hone : names.length ≤ 1
  · -- the only name holds all values
    have hlength : names.length = 1 := Nat.le_antisymm hone hpos
    rw [if_pos hone, ← hwhole, split_multi, hlength, if_pos (by omega),
      List.take_of_length_le (by omega), List.drop_of_length_le (by omega)]
    simp
  · rw [if_neg hone, join?_pieces_append h, List.take_append_drop]
    refine List.ne_nil_of_length_pos ?_
    rw [List.length_drop]
    split <;> omega

end Join

end Step

namespace Rule

section Parting

variable {separator : String} {names : List String} (source : Source)

lemma splitting_parting (separator : String) (hnodup : names.Nodup) :
    (parting source separator names).Splitting :=
  ⟨rfl, rfl, rfl, rfl, rfl, by simpa [parting] using hnodup⟩

variable (h : separator ≠ "")

include h

lemma nonEmpty?_separator_parting :
    nonEmpty? (parting source separator names).separator = some separator := by
  simp [parting, nonEmpty?, h]

lemma parts_parting (value : Json) :
    (parting source separator names).parts value
      = Step.assign names (Step.split separator value) := by
  rw [parts, nonEmpty?_separator_parting source h]
  rfl

lemma pack?_parting (shown : Json) :
    (parting source separator names).pack? shown
      = Step.join? separator (Step.unassign names shown) := by
  rw [pack?, nonEmpty?_separator_parting source h]
  rfl

end Parting

/-- **Several values are joined to one.**  A rule that splits at a separator and assigns the parts
to different names reads several values as a claim that is stored as these values when there is at
most one name.  With two names or more, it is stored as a single value: the values joined with the
separator. -/
theorem stored_of_several_values (source : Source) {separator : String} (h : separator ≠ "")
    {names : List String} (hnodup : names.Nodup) {texts : List String} (hmany : 2 ≤ texts.length) :
    let rule := parting source separator names
    ((rule.read? (AttributeValue.multi texts).toClaim).bind rule.write?).bind
        AttributeValue.ofClaim?
      = some (if names.length ≤ 1 then .multi texts
          else .single (separator.intercalate texts)) := by
  intro rule
  have hsplitting : rule.Splitting := splitting_parting source separator hnodup
  have hparts : rule.parts (AttributeValue.multi texts).toClaim
      = Step.assign names (Step.split separator (AttributeValue.multi texts).toClaim) :=
    parts_parting source h _
  have hread : rule.read? (AttributeValue.multi texts).toClaim
      = some (rule.parts (AttributeValue.multi texts).toClaim) :=
    hsplitting.read?_eq _
  have hwrite : rule.write? (rule.parts (AttributeValue.multi texts).toClaim)
      = some (if names.length ≤ 1 then (AttributeValue.multi texts).toClaim
          else .string (separator.intercalate texts)) := by
    rw [hsplitting.write?_eq_pack? (parts_ne_null rule _), pack?_parting source h, hparts,
      Step.join?_unassign_assign_multi h hnodup hmany]
  have hdata : (AttributeValue.multi texts).hasData = true := by
    have hne : texts ≠ [] := List.ne_nil_of_length_pos (Nat.lt_of_lt_of_le Nat.zero_lt_two hmany)
    simpa [AttributeValue.hasData] using hne
  rw [hread, Option.bind_some, hwrite, Option.bind_some]
  split
  · exact AttributeValue.ofClaim?_toClaim hdata
  · rfl

/-- Two postal addresses that were taken apart line by line are one address of all lines when the
lines have names, and two when the lines of an address share a name. -/
theorem stored_of_several_values_of_addresses :
    let texts := ["Main Street 1$Zurich", "Side Street 2$Bern"]
    let named := parting (.one "postalAddress") "$" ["street", "town"]
    let unnamed := parting (.one "postalAddress") "$" ["lines"]
    ((named.read? (AttributeValue.multi texts).toClaim).bind named.write?).bind
          AttributeValue.ofClaim?
        = some (.single "Main Street 1$Zurich$Side Street 2$Bern")
      ∧ ((unnamed.read? (AttributeValue.multi texts).toClaim).bind unnamed.write?).bind
          AttributeValue.ofClaim?
        = some (.multi texts) :=
  ⟨stored_of_several_values _ (by decide) (by decide) (by decide),
    stored_of_several_values _ (by decide) (by decide) (by decide)⟩

/-- The two addresses are not stored again as they were. -/
theorem two_addresses_joined :
    let texts := ["Main Street 1$Zurich", "Side Street 2$Bern"]
    let rule := parting (.one "postalAddress") "$" ["street", "town"]
    ((rule.read? (AttributeValue.multi texts).toClaim).bind rule.write?).bind
      AttributeValue.ofClaim? ≠ some (.multi texts) := by
  decide

end Rule
end EntryClaims
