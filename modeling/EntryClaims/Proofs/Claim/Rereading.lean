/-
# Reading what was written for what was read

A table may put one string for several others, and then writing cannot know which of them was read:
it takes the first.  But reading that one again gives the same string, since the table puts a string
for the first of those that it puts it for.  What else a rule does that takes a value apart and
shows it in an array is undone without loss.  So what is written for a claim that was read from an
attribute may hold other strings than the attribute, but it is read as the same claim.
-/
import EntryClaims.Proofs.Claim.Splitting

namespace EntryClaims

/-! ## Tables -/

namespace Step

variable {table : OrderedMap String} {s key : String}

/-- What the table puts for a string: another one, or the string itself if it is not listed. -/
def mapped (table : OrderedMap String) (s : String) : String := (table.get? s).getD s

/-- What is put back for a string: the first one that the table puts it for, or else the string
itself. -/
def unmapped (table : OrderedMap String) (s : String) : String := (keyOf? table s).getD s

lemma get?_of_keyOf? (h : keyOf? table s = some key) : table.get? key = some s := by
  obtain ⟨⟨found, value⟩, hfind, rfl⟩ := Option.map_eq_some_iff.1 h
  obtain rfl : value = s := by simpa using List.find?_some hfind
  exact OrderedMap.get?_eq_some_iff.2 (List.mem_of_find?_eq_some hfind)

lemma get?_ne_of_keyOf?_eq_none (h : keyOf? table s = none) (other : String) :
    table.get? other ≠ some s := by
  rw [keyOf?, Option.map_eq_none_iff, List.find?_eq_none] at h
  intro hother
  exact h _ (OrderedMap.get?_eq_some_iff.1 hother) (beq_self_eq_true s)

/-- What the table has put is put again, whichever string was put back for it. -/
lemma mapped_unmapped_mapped (table : OrderedMap String) (s : String) :
    mapped table (unmapped table (mapped table s)) = mapped table s := by
  cases hkey : keyOf? table (mapped table s) with
  | some key => rw [unmapped, hkey, Option.getD_some, mapped, get?_of_keyOf? hkey, Option.getD_some]
  | none =>
    -- the table puts nothing for the string, or it would have put it for this one
    have hself : mapped table s = s := by
      cases hget : table.get? s with
      | none => rw [mapped, hget, Option.getD_none]
      | some other =>
        refine absurd hget (get?_ne_of_keyOf?_eq_none ?_ s)
        rwa [mapped, hget, Option.getD_some] at hkey
    rw [unmapped, hkey, Option.getD_none, hself, hself]

end Step

/-! ## Values with other strings -/

namespace AttributeValue

/-- The value with every string turned into another. -/
def map (f : String → String) : AttributeValue → AttributeValue
  | .single text => .single (f text)
  | .multi texts => .multi (texts.map f)

variable {f g : String → String} {value : AttributeValue}

@[simp] lemma texts_map (f : String → String) (value : AttributeValue) :
    (value.map f).texts = value.texts.map f := by
  cases value <;> rfl

@[simp] lemma isMulti_map (f : String → String) (value : AttributeValue) :
    (value.map f).isMulti = value.isMulti := by
  cases value <;> rfl

lemma map_map (f g : String → String) (value : AttributeValue) :
    (value.map g).map f = value.map (f ∘ g) := by
  cases value <;> simp [map]

lemma map_eq_self (h : ∀ text ∈ value.texts, f text = text) : value.map f = value := by
  cases value with
  | single text => rw [map, h text List.mem_cons_self]
  | multi texts =>
    rw [texts_multi] at h
    rw [map, List.map_congr_left h, List.map_id']

/-- Treating the strings of a claim is treating those of the value it shows. -/
lemma onStrings_toClaim (f : String → String) (value : AttributeValue) :
    Step.onStrings (fun s => .string (f s)) value.toClaim = (value.map f).toClaim := by
  cases value with
  | single text => rfl
  | multi texts => simp [Step.onStrings, Step.onString, toClaim, Json.ofStrings, map]

end AttributeValue

namespace Rule

open Step (toArray)

variable {rule : Rule} {value : AttributeValue} {shown : Json}

/-! ## Rules without a table -/

/-- Without a separator a value is written as it was read. -/
lemma Splitting.write?_toClaim (h : rule.Splitting) (hsep : nonEmpty? rule.separator = none)
    (value : AttributeValue) : rule.write? value.toClaim = some value.toClaim := by
  rw [h.write?_eq_pack? (AttributeValue.toClaim_ne_null value), pack?, hsep]
  simp [h.json_eq]

/-- What was taken apart at a separator is written as it was. -/
lemma Splitting.write?_parts (h : rule.Splitting) {separator : String}
    (hsep : nonEmpty? rule.separator = some separator) (hne : value.texts ≠ [])
    (hassign : rule.assign.isSome → rule.array = false ∧ value.isMulti = false) :
    rule.write? (if rule.array then toArray (rule.parts value.toClaim)
      else rule.parts value.toClaim) = some value.toClaim := by
  have hsome := ne_empty_of_nonEmpty? hsep
  cases hnames : rule.assign with
  | none =>
    have hparts : rule.parts value.toClaim = Step.split separator value.toClaim := by
      simp only [parts, hsep, hnames, whenSet]
    have harray : (rule.parts value.toClaim).isArray = true := by
      rw [hparts, Step.isArray_split]
    rw [Step.toArray_of_isArray harray, ite_self, h.write?_eq_pack? (parts_ne_null rule value),
      pack?, hsep, hnames, hparts]
    exact Step.join?_split hsome hne
  | some names =>
    obtain ⟨hnone, hsingle⟩ := hassign (by rw [hnames, Option.isSome_some])
    obtain ⟨text, rfl⟩ : ∃ text, value = .single text := by
      cases value with
      | single text => exact ⟨text, rfl⟩
      | multi texts => simp [AttributeValue.isMulti] at hsingle
    have hparts : rule.parts (AttributeValue.single text).toClaim
        = Step.assign names (Step.split separator (AttributeValue.single text).toClaim) := by
      simp only [parts, hsep, hnames, whenSet]
    rw [hnone, if_neg Bool.false_ne_true, h.write?_eq_pack? (parts_ne_null rule _), pack?, hsep,
      hnames, hparts]
    exact Step.join?_unassign_assign hsome (h.nodup_assign names hnames) text

/-- What a rule without a table reads is written as a value with the same strings, which is read as
the same claim. -/
lemma Splitting.exists_write?_read? (h : rule.Splitting) (hne : value.texts ≠ [])
    (hassign : rule.assign.isSome → rule.array = false ∧ value.isMulti = false) :
    ∃ (shown : Json) (written : AttributeValue), rule.read? value.toClaim = some shown
      ∧ rule.write? shown = some written.toClaim ∧ rule.read? written.toClaim = some shown
      ∧ written.texts = value.texts := by
  cases hsep : nonEmpty? rule.separator with
  | some separator =>
    exact ⟨_, value, h.read?_eq value, h.write?_parts hsep hne hassign, h.read?_eq value, rfl⟩
  | none =>
    have hparts : ∀ value : AttributeValue, rule.parts value.toClaim = value.toClaim :=
      fun value => by rw [parts, hsep]
    cases harray : rule.array with
    | false =>
      have hread : rule.read? value.toClaim = some value.toClaim := by
        rw [h.read?_eq, harray, hparts, if_neg Bool.false_ne_true]
      exact ⟨_, value, hread, h.write?_toClaim hsep value, hread, rfl⟩
    | true =>
      -- the array that was forced is written as a list
      have hread : ∀ value : AttributeValue,
          rule.read? value.toClaim = some (AttributeValue.multi value.texts).toClaim := by
        intro value
        rw [h.read?_eq, harray, hparts, if_pos rfl, AttributeValue.toArray_toClaim]
      exact ⟨_, .multi value.texts, hread value, h.write?_toClaim hsep _, hread _, rfl⟩

/-! ## Rules with a table -/

/-- The rule without its table. -/
def withoutTable (rule : Rule) : Rule := { rule with replace := none }

/-- What the table of the rule, if there is one, puts for a string. -/
def mapped (rule : Rule) : String → String := rule.replace.elim id Step.mapped

/-- What the table of the rule, if there is one, puts back for a string. -/
def unmapped (rule : Rule) : String → String := rule.replace.elim id Step.unmapped

lemma mapped_unmapped_mapped (rule : Rule) (s : String) :
    rule.mapped (rule.unmapped (rule.mapped s)) = rule.mapped s := by
  rw [mapped, unmapped]
  cases rule.replace with
  | none => rfl
  | some table => exact Step.mapped_unmapped_mapped table s

lemma map_id (value : AttributeValue) : value.map id = value :=
  AttributeValue.map_eq_self fun _ _ => rfl

/-- A rule reads what it reads without its table from the strings that the table puts. -/
lemma read?_eq_withoutTable (rule : Rule) (value : AttributeValue) :
    rule.read? value.toClaim = rule.withoutTable.read? (value.map rule.mapped).toClaim := by
  have hreplace : whenSet rule.replace Step.replace value.toClaim
      = (value.map rule.mapped).toClaim := by
    rw [mapped]
    cases rule.replace with
    | none => exact congrArg AttributeValue.toClaim (map_id value).symm
    | some table => exact AttributeValue.onStrings_toClaim (Step.mapped table) value
  simp only [read?, present?_toClaim, Option.bind_eq_bind, Option.bind_some, hreplace]
  rfl

/-- The table of a rule is the last that is applied in writing. -/
lemma write?_eq_map (rule : Rule) (shown : Json) :
    rule.write? shown
      = (rule.withoutTable.write? shown).map (whenSet rule.replace Step.unreplace) := by
  simp only [write?, Option.bind_eq_bind, Option.map_bind, Function.comp_def, Option.map_some]
  rfl

/-- A rule writes what it writes without its table, with the strings that the table puts back. -/
lemma write?_eq_withoutTable {written : AttributeValue}
    (h : rule.withoutTable.write? shown = some written.toClaim) :
    rule.write? shown = some (written.map rule.unmapped).toClaim := by
  rw [write?_eq_map, h, Option.map_some, unmapped]
  cases rule.replace with
  | none => exact congrArg (fun value => some value.toClaim) (map_id written).symm
  | some table =>
    exact congrArg some (AttributeValue.onStrings_toClaim (Step.unmapped table) written)

/-- **Reading, writing and reading again.**  Let a rule do nothing but put other strings by a table,
take values apart at a separator, assign the parts to different names, and force an array, which it
does not do with assigned parts.  What it reads from strings, one alone where parts are assigned,
can be written, and what is written is read as the same claim.  Without a table the strings that
are written are those that were read, in their order. -/
theorem read_write_read (h : rule.withoutTable.Splitting) (hne : value.texts ≠ [])
    (hassign : rule.assign.isSome → rule.array = false ∧ value.isMulti = false) :
    ∃ (shown : Json) (written : AttributeValue), rule.read? value.toClaim = some shown
      ∧ rule.write? shown = some written.toClaim ∧ rule.read? written.toClaim = some shown
      ∧ (rule.replace = none → written.texts = value.texts) := by
  have hmapped : (value.map rule.mapped).texts ≠ [] := by simpa using hne
  obtain ⟨shown, middle, hread, hwrite, hreread, htexts⟩ :=
    h.exists_write?_read? hmapped (by rwa [AttributeValue.isMulti_map])
  have hagain : (middle.map rule.unmapped).map rule.mapped = middle := by
    rw [AttributeValue.map_map]
    refine AttributeValue.map_eq_self fun text htext => ?_
    rw [htexts, AttributeValue.texts_map, List.mem_map] at htext
    obtain ⟨stored, -, rfl⟩ := htext
    exact rule.mapped_unmapped_mapped stored
  refine ⟨shown, middle.map rule.unmapped, ?_, write?_eq_withoutTable hwrite, ?_, fun hnone => ?_⟩
  · rw [read?_eq_withoutTable, hread]
  · rw [read?_eq_withoutTable, hagain, hreread]
  · simp [htexts, mapped, unmapped, hnone]

/-- One string is put for two others, and is itself replaced.  The first of the two is written for
the second, and the claim is the same. -/
theorem read_write_read_of_chained_table :
    let table : OrderedMap String := ⟨[("m", "x,y"), ("n", "x,y"), ("x,y", "z")], by decide⟩
    let rule : Rule := { source := .one "code", replace := some table, separator := some ",",
                         array := true }
    let read := AttributeValue.multi ["n", "x,y", "k"]
    let written := AttributeValue.multi ["m", "x,y", "k"]
    let shown := Json.array [Json.ofStrings ["x", "y"], Json.ofStrings ["z"], Json.ofStrings ["k"]]
    rule.withoutTable.Splitting ∧ rule.read? read.toClaim = some shown
      ∧ rule.write? shown = some written.toClaim ∧ rule.read? written.toClaim = some shown := by
  intro table rule read written shown
  have hsplitting : rule.withoutTable.Splitting := by decide
  have hread : rule.read? read.toClaim = some shown := by decide
  have hwrite : rule.write? shown = some written.toClaim := by decide
  have hne : read.texts ≠ [] := by decide
  obtain ⟨shown', written', hread', hwrite', hreread, -⟩ :=
    read_write_read hsplitting hne fun hassign => by simp [rule] at hassign
  obtain rfl : shown' = shown := Option.some.inj (hread'.symm.trans hread)
  have hwritten : written'.toClaim = written.toClaim := Option.some.inj (hwrite'.symm.trans hwrite)
  exact ⟨hsplitting, hread, hwrite, hwritten ▸ hreread⟩

end Rule
end EntryClaims
