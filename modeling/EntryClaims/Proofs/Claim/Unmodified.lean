/-
# Saving unmodified claims

Where every claim has at most one rule, and the rules do nothing that cannot be undone, the
claims of an entry lead back to the entry.  Each claim contributes to the root of its rule the
strings of the attribute that it was read from.  That attribute is the one under which the entry
stores the value for the root, so nothing is left to change.
-/
import EntryClaims.Proofs.Claim.Alignment
import EntryClaims.Proofs.Claim.Reading
import EntryClaims.Proofs.Claim.Splitting
import EntryClaims.Proofs.Claim.Writing
import EntryClaims.Proofs.Entry.Convergence

namespace EntryClaims
namespace Mapping

open Record (Filled textsOf)
open SynonymTable (resolve)

/-- A mapping that can be undone: no claim path continues another, a claim has at most one rule,
two rules list the same names or have none in common, and the rules only split, assign and force
arrays. -/
structure Undoable (mapping : Mapping) : Prop where
  unnested : mapping.Unnested
  aligned : mapping.Aligned
  length_le_one : ∀ pair ∈ mapping.toList, pair.2.length ≤ 1
  splitting : ∀ rule ∈ mapping.allRules, rule.Splitting

instance (mapping : Mapping) : Decidable mapping.Undoable :=
  decidable_of_iff
    (mapping.Unnested ∧ mapping.Aligned ∧ (∀ pair ∈ mapping.toList, pair.2.length ≤ 1)
      ∧ ∀ rule ∈ mapping.allRules, rule.Splitting)
    ⟨fun ⟨unnested, aligned, length, splitting⟩ => ⟨unnested, aligned, length, splitting⟩,
      fun h => ⟨h.unnested, h.aligned, h.length_le_one, h.splitting⟩⟩

/-- Parts are assigned to names only where the entry stores one string. -/
def AssignsSingles (mapping : Mapping) (entry : Record) : Prop :=
  ∀ rule ∈ mapping.allRules, rule.assign.isSome →
    ∀ name ∈ rule.source.firstWithData? entry, ∀ value ∈ entry.get? name, value.isMulti = false

instance (mapping : Mapping) (entry : Record) : Decidable (mapping.AssignsSingles entry) :=
  inferInstanceAs (Decidable (∀ rule ∈ mapping.allRules, rule.assign.isSome →
    ∀ name ∈ rule.source.firstWithData? entry, ∀ value ∈ entry.get? name, value.isMulti = false))

variable {mapping : Mapping} {entry : Record} {forced : List String} {claim : String} {rule : Rule}

/-- A claim whose only rule finds no data is not shown. -/
lemma claimValue?_singleton_of_none (hfirst : rule.source.firstWithData? entry = none)
    (force : Bool) : claimValue? [rule] force entry = none := by
  simp [claimValue?, chosen?, hfirst]

/-- A claim with one rule shows what the rule reads from the first attribute with data. -/
lemma claimValue?_singleton {name : String} {value : AttributeValue} {read : Json}
    (hfirst : rule.source.firstWithData? entry = some name) (hget : entry.get? name = some value)
    (hread : rule.read? value.toClaim = some read) (force : Bool) :
    ∃ shown, claimValue? [rule] force entry = some shown ∧ Step.Shows shown read := by
  refine ⟨if force then Step.toArray read else read, ?_, ?_⟩
  · simp [claimValue?, chosen?, hfirst, hget, hread]
  · split
    · exact Or.inr rfl
    · exact Or.inl rfl

/-! ## What the claims of an entry contribute -/

section Undoable

variable (h : mapping.Undoable) (hassign : mapping.AssignsSingles entry)

include h

lemma Undoable.eq_singleton {rules : List Rule} (hmem : (claim, rules) ∈ mapping.toList)
    (hrule : rule ∈ rules) : rules = [rule] := by
  have hlength := h.length_le_one (claim, rules) hmem
  obtain ⟨first, rest, rfl⟩ := List.exists_cons_of_ne_nil (List.ne_nil_of_mem hrule)
  have hrest : rest = [] := by simpa using hlength
  rw [hrest, List.mem_singleton] at hrule
  rw [hrest, hrule]

lemma Undoable.contribution?_of_none (hmem : (claim, [rule]) ∈ mapping.toList)
    (hfirst : rule.source.firstWithData? entry = none) :
    contribution? (mapping.claimsOf entry forced) claim [rule] = none := by
  simp [contribution?, getPath?_claimsOf h.unnested hmem, claimValue?_singleton_of_none hfirst]

include hassign

/-- A claim of the entry contributes, to the root of its rule, the strings of the attribute that
it was read from. -/
lemma Undoable.contribution?_of_some (hmem : (claim, [rule]) ∈ mapping.toList) {name root : String}
    (hfirst : rule.source.firstWithData? entry = some name)
    (hroot : rule.source.root? = some root) :
    ∃ stored, contribution? (mapping.claimsOf entry forced) claim [rule] = some (root, stored)
      ∧ stored.texts = textsOf entry name := by
  have hrule : rule ∈ mapping.allRules := mem_allRules hmem (List.mem_singleton_self rule)
  have hsplitting := h.splitting rule hrule
  obtain ⟨value, hget, hdata⟩ : ∃ value, entry.get? name = some value ∧ value.hasData = true := by
    have hhas := Source.hasData_of_firstWithData? hfirst
    rw [Record.hasData, Option.any_eq_true] at hhas
    exact hhas
  obtain ⟨read, hread, -⟩ := hsplitting.read?_toClaim value
  obtain ⟨shown, hclaim, hshows⟩ :=
    claimValue?_singleton hfirst hget hread (forced.contains claim)
  obtain ⟨hblank, written, stored, hwritten, hstored, htexts⟩ := hsplitting.write?_of_shows hdata
    (fun hassigned => hassign rule hrule hassigned name hfirst value hget) hread hshows
  have hpath : ((mapping.claimsOf entry forced).getPath? claim).filter (!isBlank ·)
      = some shown := by
    rw [getPath?_claimsOf h.unnested hmem, hclaim, Option.filter_some_pos (by rw [hblank]; rfl)]
  refine ⟨stored, ?_, by rw [htexts, Record.textsOf_of_get? hget]⟩
  simp [contribution?, hpath, hwritten, hstored, hroot]

/-- Every contribution of the claims of the entry comes about in this way. -/
lemma Undoable.exists_origin {rules : List Rule} (hmem : (claim, rules) ∈ mapping.toList)
    {target : String} {stored : AttributeValue}
    (hgiven : contribution? (mapping.claimsOf entry forced) claim rules = some (target, stored)) :
    ∃ rule ∈ mapping.allRules, rule.source.root? = some target
      ∧ ∃ name, rule.source.firstWithData? entry = some name
        ∧ stored.texts = textsOf entry name := by
  cases rules with
  | nil => simp [contribution?] at hgiven
  | cons rule rest =>
    obtain rfl : rest = [] := by simpa using h.eq_singleton hmem List.mem_cons_self
    have hrule : rule ∈ mapping.allRules := mem_allRules hmem (List.mem_singleton_self rule)
    cases hfirst : rule.source.firstWithData? entry with
    | none => simp [h.contribution?_of_none hmem hfirst] at hgiven
    | some name =>
      obtain ⟨root, hroot⟩ := Source.exists_root?
        (List.ne_nil_of_mem (Source.mem_names_of_firstWithData? hfirst))
      obtain ⟨given, hsome, htexts⟩ := h.contribution?_of_some hassign hmem hfirst hroot
      rw [hgiven, Option.some.injEq, Prod.mk.injEq] at hsome
      obtain ⟨rfl, rfl⟩ := hsome
      exact ⟨rule, hrule, hroot, name, hfirst, htexts⟩

end Undoable

/-! ## The saved record -/

/-- The record that stores the claims has under each key the strings of the attribute under which
the entry stores the value for the key. -/
lemma Undoable.same_textsOf_resolve (h : mapping.Undoable) (hassign : mapping.AssignsSingles entry)
    (hentry : Filled entry) {key : String} {wanted : AttributeValue}
    (hget : (mapping.recordOf (mapping.claimsOf entry forced)).get? key = some wanted) :
    ValueSet.Same wanted.texts (textsOf entry (resolve mapping.synonyms key entry)) := by
  refine same_of_forall_contribution hget fun stored hstored => ?_
  obtain ⟨claim, rules, hmem, hgiven⟩ := mem_contributions.1 hstored
  obtain ⟨rule, hrule, hroot, name, hfirst, htexts⟩ := h.exists_origin hassign hmem hgiven
  have hresolve : resolve mapping.synonyms key entry = name := by
    rw [h.aligned.resolve_root hrule hroot hentry, hfirst, Option.getD_some]
  rw [hresolve, htexts]

/-- **Saving unmodified claims changes nothing.**  The record that stores the claims of an entry
has, under the root of every rule that finds data, the strings of the attribute that the rule
reads; and it leaves nothing to change in the entry, whichever claims are forced to be arrays and
whichever attributes are protected. -/
theorem changes_of_unmodified_claims (h : mapping.Undoable) (hassign : mapping.AssignsSingles entry)
    (hentry : Filled entry) (forced protectedKeys : List String) :
    let saved := mapping.recordOf (mapping.claimsOf entry forced)
    (∀ rule ∈ mapping.allRules, ∀ name ∈ rule.source.firstWithData? entry,
        ∀ root ∈ rule.source.root?,
          ∃ wanted, saved.get? root = some wanted
            ∧ ValueSet.Same wanted.texts (textsOf entry name))
      ∧ Record.changes entry saved mapping.synonyms protectedKeys = [] := by
  intro saved
  constructor
  · intro rule hrule name hfirst root hroot
    obtain ⟨⟨claim, rules⟩, hmem, hrules⟩ := List.mem_flatMap.1 hrule
    obtain rfl := h.eq_singleton hmem hrules
    obtain ⟨stored, hgiven, -⟩ := h.contribution?_of_some hassign hmem hfirst hroot
    have hthere : saved.contains root = true :=
      contains_recordOf.2 ⟨stored, mem_contributions.2 ⟨claim, [rule], hmem, hgiven⟩⟩
    obtain ⟨wanted, hget⟩ := Option.isSome_iff_exists.1 hthere
    refine ⟨wanted, hget, ?_⟩
    have hsame := h.same_textsOf_resolve hassign hentry hget
    rwa [h.aligned.resolve_root hrule hroot hentry, Option.mem_def.1 hfirst,
      Option.getD_some] at hsame
  · rw [Record.changes_eq_nil_iff]
    intro pair hpair _
    rw [Record.changesFor_eq_nil_iff, hentry.dataTexts_eq]
    have hget := OrderedMap.get?_eq_some_iff.2 hpair
    exact (h.same_textsOf_resolve hassign hentry hget).symm

/-- An address is split and assigned, and two claims share an attribute that the entry stores
under a synonym. -/
theorem changes_of_unmodified_address :
    let address : Rule :=
      { source := .one "postal", separator := some "$", assign := some ["street", "city"] }
    let mapping : Mapping := ⟨[("address", [address]),
      ("login.name", [.plain (.synonyms ["uid", "userid"])]),
      ("login.all", [{ source := .synonyms ["uid", "userid"], array := true }])], by decide⟩
    let entry : Record := ⟨[("userid", .multi ["bob", "rob"]),
      ("postal", .single "1 Elm$Flat 2$York"), ("mail", .single "b@x")], by decide⟩
    let saved := mapping.recordOf (mapping.claimsOf entry ["address"])
    mapping.Undoable ∧ Filled entry ∧ mapping.AssignsSingles entry
      ∧ saved = ⟨[("postal", .multi ["1 Elm$Flat 2$York"]), ("uid", .multi ["bob", "rob"])],
          by decide⟩
      ∧ Record.changes entry saved mapping.synonyms [] = [] := by
  intro address mapping entry saved
  have hundoable : mapping.Undoable := by decide
  have hentry : Filled entry := by decide
  have hassign : mapping.AssignsSingles entry := by decide
  refine ⟨hundoable, hentry, hassign, by decide, ?_⟩
  exact (changes_of_unmodified_claims hundoable hassign hentry ["address"] []).2

end Mapping
end EntryClaims
