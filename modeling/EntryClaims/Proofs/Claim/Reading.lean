/-
# What the claims of a record are

When no claim path continues another, the claims of a record can be read off one by one: reading
the other claims neither blocks the way of a claim nor disturbs what was put there.  The value
of a claim depends only on the attributes that its rules name.
-/
import EntryClaims.Claim.Mapping
import EntryClaims.Proofs.Claim.Paths
import EntryClaims.Proofs.Entry.Families
import Mathlib.Tactic.ByContra

namespace EntryClaims
namespace Mapping

open Document (segments getIn setIn Forked passable)

/-- No claim path continues another. -/
def Unnested (mapping : Mapping) : Prop := (mapping.keys.map segments).Pairwise Forked

instance (mapping : Mapping) : Decidable mapping.Unnested :=
  inferInstanceAs (Decidable ((mapping.keys.map segments).Pairwise Forked))

variable {record other : Record} {forced : List String} {document : Document}

/-- A claim can still be assigned along the names: nothing is there, and nothing blocks the
way. -/
structure Free (document : Document) (names : List String) : Prop where
  absent : getIn names (.object document.claims) = none
  way_passable : ∀ way rest, way ++ rest = names → rest ≠ [] →
    passable (getIn way (.object document.claims)) = true

lemma free_empty {names : List String} (h : names ≠ []) : Free {} names where
  absent := Document.getIn_of_no_fields h
  way_passable := fun way _ _ _ => Document.passable_of_no_fields way

/-- Reading a claim leaves the document as it is, or assigns the value of the claim. -/
lemma readClaim_cases (record : Record) (forced : List String) (document : Document)
    (claim : String × List Rule) :
    readClaim record forced document claim = document
      ∨ ∃ value updated, claimValue? claim.2 (forced.contains claim.1) record = some value
          ∧ setIn (segments claim.1) value document.claims = some updated
          ∧ readClaim record forced document claim = ⟨updated⟩ := by
  rw [readClaim]
  cases claimValue? claim.2 (forced.contains claim.1) record with
  | none => exact Or.inl rfl
  | some value =>
    simp only [Document.setPath?]
    cases hset : setIn (segments claim.1) value document.claims with
    | none => exact Or.inl rfl
    | some updated => exact Or.inr ⟨value, updated, rfl, hset, rfl⟩

/-- Reading a claim whose path forks from the names changes nothing along them. -/
lemma getIn_readClaim_of_forked {claim : String × List Rule} {names : List String}
    (hforked : Forked (segments claim.1) names) :
    getIn names (.object (readClaim record forced document claim).claims)
      = getIn names (.object document.claims) := by
  rcases readClaim_cases record forced document claim with heq | ⟨value, updated, -, hset, heq⟩
  · rw [heq]
  · rw [heq]
    exact Document.getIn_setIn_of_forked hset hforked

lemma Free.readClaim {claim : String × List Rule} {names : List String}
    (h : Free document names) (hforked : Forked (segments claim.1) names) :
    Free (readClaim record forced document claim) names where
  absent := by rw [getIn_readClaim_of_forked hforked, h.absent]
  way_passable := by
    intro way rest hway hrest
    by_cases hfork : Forked (segments claim.1) way
    · rw [getIn_readClaim_of_forked hfork]
      exact h.way_passable way rest hway hrest
    · -- the way belongs to both paths, so an assignment leaves an object there
      have hnot : ¬ segments claim.1 <+: way := fun hprefix =>
        hforked.1 (hway ▸ hprefix.trans (List.prefix_append way rest))
      have hon : way <+: segments claim.1 := by
        by_contra hprefix
        exact hfork ⟨hnot, hprefix⟩
      obtain ⟨next, behind, hnext⟩ := Document.exists_next hon hnot
      rcases readClaim_cases record forced document claim with
        heq | ⟨value, updated, -, hset, heq⟩
      · rw [heq]
        exact h.way_passable way rest hway hrest
      · rw [← hnext] at hset
        obtain ⟨earlier, inner, hfound, -⟩ := Document.getIn_setIn_way hset
        rw [heq, hfound, passable]

/-- Along a free path reading the claim puts its value, or nothing. -/
lemma getIn_readClaim_self {claim : String × List Rule}
    (h : Free document (segments claim.1)) :
    getIn (segments claim.1) (.object (readClaim record forced document claim).claims)
      = claimValue? claim.2 (forced.contains claim.1) record := by
  rw [readClaim]
  cases claimValue? claim.2 (forced.contains claim.1) record with
  | none => exact h.absent
  | some value =>
    obtain ⟨fields, hset⟩ :
        ∃ fields, setIn (segments claim.1) value document.claims = some fields :=
      Document.exists_setIn h.way_passable
    simp only [Document.setPath?, hset, Option.map_some, Option.getD_some]
    exact Document.getIn_setIn (Text.splitAt_ne_nil '.' claim.1) hset

lemma getIn_foldl_readClaim_of_forked {claims : List (String × List Rule)} {names : List String}
    (hforked : ∀ claim ∈ claims, Forked (segments claim.1) names) :
    getIn names (.object (claims.foldl (readClaim record forced) document).claims)
      = getIn names (.object document.claims) := by
  induction claims generalizing document with
  | nil => rfl
  | cons claim rest ih =>
    rw [List.foldl_cons, ih fun c hc => hforked c (List.mem_cons_of_mem _ hc),
      getIn_readClaim_of_forked (hforked claim List.mem_cons_self)]

/-- Along free paths that fork from each other, each claim is found with its value. -/
lemma getIn_foldl_readClaim {claims : List (String × List Rule)} {claim : String × List Rule}
    (hforked : (claims.map fun c => segments c.1).Pairwise Forked)
    (hfree : ∀ c ∈ claims, Free document (segments c.1)) (hmem : claim ∈ claims) :
    getIn (segments claim.1) (.object (claims.foldl (readClaim record forced) document).claims)
      = claimValue? claim.2 (forced.contains claim.1) record := by
  induction claims generalizing document with
  | nil => simp at hmem
  | cons first rest ih =>
    rw [List.map_cons, List.pairwise_cons] at hforked
    have hfirst : ∀ c ∈ rest, Forked (segments first.1) (segments c.1) := fun c hc =>
      hforked.1 _ (List.mem_map_of_mem hc)
    rw [List.foldl_cons]
    rcases List.mem_cons.1 hmem with rfl | hrest
    · -- the later claims leave alone what the claim has put
      rw [getIn_foldl_readClaim_of_forked fun c hc => (hfirst c hc).symm,
        getIn_readClaim_self (hfree claim List.mem_cons_self)]
    · refine ih hforked.2 (fun c hc => ?_) hrest
      exact (hfree c (List.mem_cons_of_mem _ hc)).readClaim (hfirst c hc)

/-- **Each claim is read on its own.**  At the path of a claim stands what the rules of the claim
read from the record. -/
lemma getPath?_claimsOf {mapping : Mapping} (hunnested : mapping.Unnested) {claim : String}
    {rules : List Rule} (hmem : (claim, rules) ∈ mapping.toList) :
    (mapping.claimsOf record forced).getPath? claim
      = claimValue? rules (forced.contains claim) record := by
  rw [Unnested, OrderedMap.keys, Pairs.keys, List.map_map] at hunnested
  have hfree : ∀ c ∈ mapping.toList, Free {} (segments c.1) := fun c _ =>
    free_empty (Text.splitAt_ne_nil '.' c.1)
  exact getIn_foldl_readClaim hunnested hfree hmem

/-! ## The attributes that count -/

lemma chosen?_congr {rules : List Rule}
    (h : ∀ rule ∈ rules, ∀ name ∈ rule.source.names, record.get? name = other.get? name) :
    chosen? rules record = chosen? rules other := by
  induction rules with
  | nil => rfl
  | cons rule rest ih =>
    have hrest := ih fun r hr => h r (List.mem_cons_of_mem _ hr)
    have hrule : rule.source.firstWithData? record = rule.source.firstWithData? other :=
      List.find?_congr fun name hname => by
        rw [Record.hasData, Record.hasData, h rule List.mem_cons_self name hname]
    simp only [chosen?, List.findSome?_cons, hrule] at hrest ⊢
    rw [hrest]

lemma mem_of_chosen? {rules : List Rule} {rule : Rule} {name : String}
    (h : chosen? rules record = some (rule, name)) :
    rule ∈ rules ∧ rule.source.firstWithData? record = some name := by
  obtain ⟨found, hfound, hmap⟩ := List.exists_of_findSome?_eq_some h
  obtain ⟨first, hfirst, heq⟩ := Option.map_eq_some_iff.1 hmap
  cases heq
  exact ⟨hfound, hfirst⟩

/-- Records that agree on every attribute that the rules name show the same claim. -/
lemma claimValue?_congr {rules : List Rule} {force : Bool}
    (h : ∀ rule ∈ rules, ∀ name ∈ rule.source.names, record.get? name = other.get? name) :
    claimValue? rules force record = claimValue? rules force other := by
  rw [claimValue?, claimValue?, chosen?_congr h]
  cases hchosen : chosen? rules other with
  | none => rfl
  | some choice =>
    obtain ⟨rule, name⟩ := choice
    obtain ⟨hrule, hfirst⟩ := mem_of_chosen? hchosen
    have hget := h rule hrule name (Source.mem_names_of_firstWithData? hfirst)
    simp [hget]

end Mapping
end EntryClaims
