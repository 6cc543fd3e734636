/-
# What an update through labels does to other labels

Several claims may share one attribute, each selecting the strings that end in its own label.  A
claim shows only its share, but an update compares the attribute as a whole: what the claims of a
payload write to it is all that is wanted there.  A string with another label therefore outlasts
the update only if the payload writes it as well, or writes nothing to where the entry stores the
attribute.  A claim that only selects a label writes nothing but strings that end in this label,
so a payload of such claims never writes a string with a label it does not supply.
-/
import EntryClaims.Proofs.Claim.Alignment
import EntryClaims.Proofs.Claim.Splitting
import EntryClaims.Proofs.Claim.Writing
import EntryClaims.Proofs.Entry.Keeping

namespace EntryClaims

/-- A rule whose only option is a label to select. -/
def Rule.labelled (source : Source) (label : String) : Rule := { source, label := some label }

/-! ## What a label writes -/

namespace Step

lemma ofClaim?_gather? {texts : List String} {stored : AttributeValue}
    (h : (gather? (texts.map .string)).bind AttributeValue.ofClaim? = some stored) :
    stored.texts = texts := by
  match texts with
  | [] => simp [gather?] at h
  | [text] =>
    simp only [List.map_cons, List.map_nil, gather?, Option.bind_some, AttributeValue.ofClaim?,
      Option.some.injEq] at h
    subst h
    rfl
  | first :: second :: rest =>
    have hleaves := AttributeValue.leavesOfAll_strings (first :: second :: rest)
    simp only [List.map_cons] at h hleaves
    simp only [gather?, Option.bind_some, AttributeValue.ofClaim?, hleaves,
      Option.some.injEq] at h
    subst h
    rfl

/-- With a label behind them, values are stored as strings that end in the label. -/
lemma exists_content_of_attachLabel? {label : String} {value : Json} {stored : AttributeValue}
    (h : (attachLabel? label value).bind AttributeValue.ofClaim? = some stored) :
    ∀ text ∈ stored.texts, ∃ content, text = content ++ " " ++ label := by
  intro text htext
  cases value with
  | array items =>
    have hlabelled : ∀ items : List Json, items.map (withLabel label)
        = (items.map fun item => Step.text item ++ " " ++ label).map .string := by
      intro items
      rw [List.map_map]
      rfl
    rw [attachLabel?, hlabelled] at h
    rw [ofClaim?_gather? h] at htext
    obtain ⟨item, -, rfl⟩ := List.mem_map.1 htext
    exact ⟨Step.text item, rfl⟩
  | null => simp [attachLabel?] at h
  | bool _ | number _ | string _ | object _ =>
    simp only [attachLabel?, withLabel, Option.bind_some, AttributeValue.ofClaim?,
      Option.some.injEq] at h
    subst h
    exact ⟨_, List.mem_singleton.1 htext⟩

end Step

namespace Mapping

open Record (applyAll changes textsOf dataTexts)
open SynonymTable (resolve)

variable {mapping : Mapping} {payload : Document} {existing : Record}
  {protectedKeys : List String} {claim key name text label : String} {rules : List Rule}
  {value : AttributeValue}

lemma write?_labelled (source : Source) (hlabel : label ≠ "") (value : Json) :
    (Rule.labelled source label).write? value = value.present?.bind (Step.attachLabel? label) := by
  have hset : Rule.nonEmpty? (some label) = some label := by simp [Rule.nonEmpty?, hlabel]
  have hattach : ∀ present, Rule.whenSet? (Rule.nonEmpty? (some label)) Step.attachLabel? present
      = Step.attachLabel? label present := fun present => by rw [hset]; rfl
  have hpack : ∀ written, (Rule.labelled source label).pack? written = some written :=
    fun _ => rfl
  show (value.present?.bind fun present =>
    (Rule.whenSet? (Rule.nonEmpty? (some label)) Step.attachLabel? present).bind fun written =>
      ((Rule.labelled source label).pack? written).bind some) = _
  simp only [hattach, hpack, Option.bind_fun_some]

/-- A claim that only selects a label contributes nothing but strings that end in the label. -/
lemma exists_content_of_contribution? {source : Source} (hlabel : label ≠ "")
    (hrule : rules.head? = some (.labelled source label))
    (h : contribution? payload claim rules = some (key, value)) :
    ∀ text ∈ value.texts, ∃ content, text = content ++ " " ++ label := by
  simp only [contribution?, hrule, Option.bind_eq_bind, Option.bind_eq_some_iff, Option.some.injEq,
    exists_eq_left', write?_labelled source hlabel, Prod.mk.injEq] at h
  obtain ⟨shown, -, written, ⟨present, -, hwritten⟩, stored, hstored, target, -, -, rfl⟩ := h
  exact Step.exists_content_of_attachLabel? (by rw [hwritten, Option.bind_some, hstored])

/-! ## Which strings are kept -/

/-- Claims of the payload are written to `key`, which is not protected, and the entry stores the
value for it under `name`. -/
structure Reaches (mapping : Mapping) (payload : Document) (existing : Record)
    (protectedKeys : List String) (key name : String) : Prop where
  written : ∃ value, (key, value) ∈ mapping.contributions payload
  managed : key ∉ protectedKeys
  stored : resolve mapping.synonyms key existing = name

/-- A single string is written to `key`, and the entry has a single one under another name. -/
structure Bypasses (mapping : Mapping) (payload : Document) (existing : Record)
    (key name : String) : Prop where
  key_ne : key ≠ name
  written : ∀ value ∈ (mapping.recordOf payload).get? key, value.isMulti = false
  held : ∀ value ∈ existing.get? name, value.isMulti = false

/-- A string is kept when whatever reaches it writes it too or bypasses it. -/
lemma mem_textsOf_update_iff (hheld : text ∈ dataTexts existing name) :
    text ∈ textsOf (applyAll existing (changes existing (mapping.recordOf payload)
        mapping.synonyms protectedKeys)) name ↔
      ∀ key, mapping.Reaches payload existing protectedKeys key name →
        (∃ value, (key, value) ∈ mapping.contributions payload ∧ text ∈ value.texts)
          ∨ mapping.Bypasses payload existing key name := by
  rw [Record.mem_textsOf_applyAll_changes_iff (rooted_synonyms mapping) hheld]
  constructor
  · intro h key hreach
    obtain ⟨wanted, hget⟩ := Option.isSome_iff_exists.1 (contains_recordOf.2 hreach.written)
    rcases h key wanted hget hreach.managed hreach.stored with hwanted | ⟨hne, hsingle, hsingles⟩
    · exact Or.inl ((mem_texts_iff hget).1 hwanted)
    · refine Or.inr ⟨hne, fun value hvalue => ?_, hsingles⟩
      obtain rfl : wanted = value := Option.some.inj (hget.symm.trans hvalue)
      exact hsingle
  · intro h key wanted hget hmanaged hstored
    rcases h key ⟨exists_contribution hget, hmanaged, hstored⟩ with hwritten | hbypass
    · exact Or.inl ((mem_texts_iff hget).2 hwritten)
    · exact Or.inr ⟨hbypass.key_ne, hbypass.written wanted hget, hbypass.held⟩

/-- **Exactly when a labelled string is kept.**  The changes of an update do to the record what they
do to the entry of a directory that admits them.  A string with a label that an attribute of the
entry holds is still there after the update exactly when every managed key that the payload is
written to, and that the entry stores under this attribute, is written this very string as well,
or has a single string put under the key while the attribute's single one stays behind.  Where
only claims that select labels are written there, and the string ends in none of their labels, it
is kept exactly when nothing is written there, such bypassing strings apart. -/
theorem labelled_string_kept_iff (mapping : Mapping) (payload : Document) (existing : Record)
    (protectedKeys : List String) {name content tag : String}
    (hheld : content ++ " " ++ tag ∈ textsOf existing name) :
    let text := content ++ " " ++ tag
    let asked := changes existing (mapping.recordOf payload) mapping.synonyms protectedKeys
    let final := applyAll existing asked
    (∀ (memory : Memory) (dn : String), memory.entry? dn = some existing → memory.Admits asked →
        memory.LeadsTo dn asked final)
      ∧ (text ∈ textsOf final name ↔
          ∀ key, mapping.Reaches payload existing protectedKeys key name →
            (∃ value, (key, value) ∈ mapping.contributions payload ∧ text ∈ value.texts)
              ∨ mapping.Bypasses payload existing key name)
      ∧ ((∀ key, mapping.Reaches payload existing protectedKeys key name →
            ∀ claim rules value, (claim, rules) ∈ mapping.toList →
              contribution? payload claim rules = some (key, value) →
                ∃ source label, label ≠ "" ∧ rules.head? = some (.labelled source label)
                  ∧ ∀ other, text ≠ other ++ " " ++ label) →
          (text ∈ textsOf final name ↔
            ∀ key, mapping.Reaches payload existing protectedKeys key name →
              mapping.Bypasses payload existing key name)) := by
  intro text asked final
  have hne : text ≠ "" := by simp [text]
  have hkept : text ∈ textsOf final name ↔ _ :=
    mem_textsOf_update_iff (Record.mem_dataTexts_of_ne hne hheld)
  refine ⟨?_, hkept, ?_⟩
  · intro memory dn hentry hadmits
    exact Memory.leadsTo_applyAll hentry hadmits
  · intro hlabels
    refine hkept.trans (forall_congr' fun key => imp_congr_right fun hreach => or_iff_right ?_)
    rintro ⟨value, hvalue, htext⟩
    obtain ⟨claim, rules, hmem, hcontribution⟩ := mem_contributions.1 hvalue
    obtain ⟨source, label, hlabel, hrule, hother⟩ :=
      hlabels key hreach claim rules value hmem hcontribution
    obtain ⟨other, heq⟩ := exists_content_of_contribution? hlabel hrule hcontribution text htext
    exact hother other heq

/-- A new picture is stored and the profile is supplied again, so the profile's string is kept. -/
theorem profile_kept_when_supplied :
    let mapping : Mapping := ⟨[("picture", [.labelled (.one "labeledURI") "photo"]),
      ("profile", [.labelled (.one "labeledURI") "profile"])], by decide⟩
    let existing : Record :=
      ⟨[("labeledURI", .multi ["https://b profile", "https://b.png photo"])], by decide⟩
    let payload : Document :=
      ⟨[("picture", .string "https://c.png"), ("profile", .string "https://b")]⟩
    let final := applyAll existing (changes existing (mapping.recordOf payload)
      mapping.synonyms ["dn"])
    "https://b" ++ " " ++ "profile" ∈ textsOf existing "labeledURI"
      ∧ "https://b" ++ " " ++ "profile" ∈ textsOf final "labeledURI" := by
  intro mapping existing payload final
  have hheld : "https://b" ++ " " ++ "profile" ∈ textsOf existing "labeledURI" := by decide
  refine ⟨hheld, (labelled_string_kept_iff mapping payload existing ["dn"] hheld).2.1.2 ?_⟩
  intro key hreach
  have hkeys : (mapping.recordOf payload).keys = ["labeledURI"] := by decide
  have hkey := OrderedMap.mem_keys_iff.2 (contains_recordOf.2 hreach.written)
  obtain rfl : key = "labeledURI" := by simpa [hkeys] using hkey
  exact Or.inl ⟨.single "https://b profile", by decide, by decide⟩

/-- A new picture alone is stored, and the profile that shares its attribute is gone. -/
theorem profile_lost_with_new_picture :
    let mapping : Mapping := ⟨[("picture", [.labelled (.one "labeledURI") "photo"]),
      ("profile", [.labelled (.one "labeledURI") "profile"])], by decide⟩
    let existing : Record :=
      ⟨[("labeledURI", .multi ["https://b profile", "https://b.png photo"])], by decide⟩
    let payload : Document := ⟨[("picture", .string "https://c.png")]⟩
    let final := applyAll existing (changes existing (mapping.recordOf payload)
      mapping.synonyms ["dn"])
    payload.getPath? "profile" = none
      ∧ "https://b" ++ " " ++ "profile" ∈ textsOf existing "labeledURI"
      ∧ "https://b" ++ " " ++ "profile" ∉ textsOf final "labeledURI" := by
  decide

end Mapping
end EntryClaims
