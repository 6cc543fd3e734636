/-
# Attributes that hold JSON text

A rule may read an attribute as JSON text.  Several values are read one by one, and give an array;
an array is written item by item, and gives several values.  So a single text that holds an array is
read as the same claim as the texts of its items, and it is these that are written.  Every other
text comes back as it was.
-/
import EntryClaims.Proofs.Claim.Serialization
import EntryClaims.Proofs.Claim.Splitting

namespace EntryClaims
namespace Step

/-- The texts of values, each of which is read back, are read as the values. -/
lemma parse?_texts {items : List Json} (h : ∀ item ∈ items, Json.parse? item.render = some item) :
    parse? (Json.ofStrings (items.map Json.render)) = some (.array items) := by
  have hitems : (items.map fun item => Json.string item.render).mapM parseString? = some items :=
    mapM_map_eq_some _ parseString? fun item hitem => by rw [parseString?, h item hitem]
  rw [Json.ofStrings, parse?, List.map_map]
  exact congrArg (Option.map Json.array) hitems

lemma serialize?_array (items : List Json) :
    serialize? (.array items) = some (Json.ofStrings (items.map Json.render)) := by
  rw [serialize?, Json.ofStrings, List.map_map]
  rfl

end Step

namespace Rule

/-- A rule whose only option is that the attribute holds JSON text. -/
def jsonText (source : Source) : Rule := { source, json := true }

variable (source : Source) {value : Json}

lemma read?_jsonText (hne : value ≠ .null) :
    (jsonText source).read? value = (Step.parse? value).bind Json.present? := by
  simp [read?, Json.present?_of_ne_null hne, jsonText, unpack?, whenSet, whenSet?, nonEmpty?]

lemma write?_jsonText (hne : value ≠ .null) :
    (jsonText source).write? value = Step.serialize? value := by
  simp [write?, Json.present?_of_ne_null hne, jsonText, pack?, whenSet, whenSet?, nonEmpty?]

/-- **What becomes of JSON text.**  A text that holds an array is stored again as the texts of its
items, and any other text as it was.  For the array is read like several values that hold the texts
of its items. -/
theorem stored_of_json_text (hne : value ≠ .null)
    (hparse : Json.parse? value.render = some value) :
    let rule := jsonText source
    let text := Json.string value.render
    (rule.read? text).bind rule.write?
        = some (match value with
          | .array items => Json.ofStrings (items.map Json.render)
          | _ => text)
      ∧ ((rule.read? text).bind rule.write? = some text ↔ value.isArray = false)
      ∧ ∀ items, value = .array items → (∀ item ∈ items, Json.parse? item.render = some item) →
          rule.read? (Json.ofStrings (items.map Json.render)) = rule.read? text := by
  intro rule text
  have hread : rule.read? text = some value := by
    rw [read?_jsonText source (by simp [text]), Step.parse?, hparse, Option.bind_some,
      Json.present?_of_ne_null hne]
  rw [hread, Option.bind_some, write?_jsonText source hne]
  cases value with
  | null => exact absurd rfl hne
  | array items =>
    refine ⟨Step.serialize?_array items, ?_, ?_⟩
    · rw [Step.serialize?_array]
      simp [Json.ofStrings, text, Json.isArray]
    · rintro others heq hothers
      obtain rfl : items = others := by simpa using heq
      rw [read?_jsonText source (by simp [Json.ofStrings]), Step.parse?_texts hothers]
      rfl
  | _ => exact ⟨rfl, iff_of_true rfl rfl, fun items heq => by simp at heq⟩

/-- Settings come back as they were, with the array that they hold. -/
theorem stored_of_json_text_of_settings :
    let rule := jsonText (.one "profileData")
    let value := Json.object [("theme", .string "dark\n"),
      ("tags", .array [.string "a", .null, .number (.integer (-7))])]
    let text := Json.string value.render
    Json.parse? value.render = some value ∧ (rule.read? text).bind rule.write? = some text := by
  intro rule value text
  have hparse : Json.parse? value.render = some value := by decide +kernel
  exact ⟨hparse, ((stored_of_json_text (.one "profileData") (by simp [value]) hparse).2.1).2 rfl⟩

/-- An array of one number is stored as the text of the number, without the brackets. -/
theorem array_stored_without_brackets :
    let rule := jsonText (.one "profileData")
    let value := Json.array [.number (.integer 1)]
    let text := Json.string "[1]"
    value ≠ .null ∧ value.render = "[1]" ∧ Json.parse? "[1]" = some value
      ∧ (rule.read? text).bind rule.write? = some (Json.ofStrings ["1"])
      ∧ (rule.read? text).bind rule.write? ≠ some text := by
  decide +kernel

end Rule
end EntryClaims
