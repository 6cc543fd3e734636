/-
# What a record shows

When no claim path continues another, the claims of a record can be foretold from the mapping
alone.  At each claim path stands what the first rule with data reads from its first synonym with
data.  Apart from the claims there are only the objects that lead to them: whatever is found was
put there for some claim, or is an object on the way to one that has a value.  So nothing but the
attributes that the mapping names counts, and the order of the claims decides no more than the
order of the names in the objects.
-/
import EntryClaims.Proofs.Claim.Reading
import Mathlib.Data.List.Basic

namespace EntryClaims

/-- The item is the first in the list that passes the test. -/
def FirstWith {α : Type} (test : α → Prop) (items : List α) (item : α) : Prop :=
  ∃ before after, items = before ++ item :: after ∧ test item ∧ ∀ passed ∈ before, ¬ test passed

namespace Document

/-- Nothing stands behind the value: it is no object, or an object without names. -/
def Leaf (value : Json) : Prop := ∀ fields, value = .object fields → fields = []

/-- The documents differ at most in the order of the names in their objects: along all names they
show the same, or two objects with the same names, none of which comes twice. -/
def SameUpToOrder (document other : Document) : Prop :=
  ∀ names, getIn names (.object document.claims) = getIn names (.object other.claims)
    ∨ ∃ fields others, getIn names (.object document.claims) = some (.object fields)
        ∧ getIn names (.object other.claims) = some (.object others)
        ∧ (Pairs.keys fields).Nodup ∧ (Pairs.keys fields).Perm (Pairs.keys others)

/-- Behind an object its names lead to its fields. -/
lemma getIn_append_singleton {names : List String} {value : Json} {fields : Json.Fields}
    (h : getIn names value = some (.object fields)) (name : String) :
    getIn (names ++ [name]) value = fields.lookup name := by
  rw [getIn_append, h, Option.bind_some, getIn_cons_object]
  cases fields.lookup name with
  | none => rfl
  | some found => rw [Option.bind_some, getIn_nil]

end Document

namespace Mapping

open Document (segments getIn setIn Forked Leaf SameUpToOrder)

variable {mapping reordered : Mapping} {record other : Record} {forced : List String}
  {document : Document} {names : List String} {found : Json}

/-! ## The rule and the synonym that are chosen -/

/-- The stored value is what a claim is read from, and the rule what it is read through: the rule
is the first that has a synonym with data, and the value that of its first such synonym. -/
structure Selects (rules : List Rule) (record : Record) (rule : Rule) (stored : AttributeValue) :
    Prop where
  rule_first : FirstWith (fun r => ∃ name ∈ r.source.names, Record.hasData record name = true)
    rules rule
  stored_first : ∃ name,
    FirstWith (fun n => Record.hasData record n = true) rule.source.names name
      ∧ record.get? name = some stored

lemma firstWithData?_eq_some_of_firstWith {source : Source} {name : String}
    (h : FirstWith (fun n => Record.hasData record n = true) source.names name) :
    source.firstWithData? record = some name := by
  obtain ⟨before, after, hnames, hdata, hbefore⟩ := h
  refine List.find?_eq_some_iff_append.2 ⟨hdata, before, after, hnames, fun passed hmem => ?_⟩
  simpa using hbefore passed hmem

lemma firstWithData?_eq_none {source : Source}
    (h : ∀ name ∈ source.names, Record.hasData record name = false) :
    source.firstWithData? record = none :=
  List.find?_eq_none.2 fun name hname => by simp [h name hname]

/-- The value of a claim is read through the selected rule, and put into an array if the claim is
forced to be one. -/
lemma claimValue?_of_selects {rules : List Rule} {rule : Rule} {stored : AttributeValue}
    (h : Selects rules record rule stored) (force : Bool) :
    claimValue? rules force record = (rule.read? stored.toClaim).map fun value =>
      if force = true ∧ value.isArray = false then .array [value] else value := by
  obtain ⟨⟨before, after, hrules, -, hbefore⟩, name, hfirst, hget⟩ := h
  have hchosen : chosen? rules record = some (rule, name) := by
    refine List.findSome?_eq_some_iff.2 ⟨before, rule, after, hrules, ?_, fun passed hmem => ?_⟩
    · rw [firstWithData?_eq_some_of_firstWith hfirst, Option.map_some]
    · rw [firstWithData?_eq_none, Option.map_none]
      intro name hname
      simpa using fun hdata => hbefore passed hmem ⟨name, hname, hdata⟩
  simp only [claimValue?, hchosen, hget, Option.bind_eq_bind, Option.bind_some]
  cases rule.read? stored.toClaim with
  | none => rfl
  | some value => cases force <;> cases harray : value.isArray <;> simp [Step.toArray, harray]

/-- A claim whose rules find no data has no value. -/
lemma claimValue?_eq_none {rules : List Rule} (force : Bool)
    (h : ∀ rule ∈ rules, ∀ name ∈ rule.source.names, Record.hasData record name = false) :
    claimValue? rules force record = none := by
  have hchosen : chosen? rules record = none :=
    List.findSome?_eq_none_iff.2 fun rule hrule => by
      rw [firstWithData?_eq_none (h rule hrule), Option.map_none]
  simp [claimValue?, hchosen]

/-- Of all claims only those with rules that name an attribute ask for it. -/
lemma claimsOf_congr
    (h : ∀ claim rules, (claim, rules) ∈ mapping.toList → ∀ rule ∈ rules,
      ∀ name ∈ rule.source.names, other.get? name = record.get? name) :
    mapping.claimsOf other forced = mapping.claimsOf record forced := by
  refine List.foldl_ext _ _ _ fun document claim hclaim => ?_
  rw [readClaim, readClaim, claimValue?_congr (h claim.1 claim.2 hclaim)]

/-! ## Where values stand -/

/-- The names lead to a claim that has a value, if there are names at all. -/
def Leads (record : Record) (forced : List String) (claims : List (String × List Rule))
    (names : List String) : Prop :=
  names = [] ∨ ∃ claim ∈ claims,
    (claimValue? claim.2 (forced.contains claim.1) record).isSome ∧ names <+: segments claim.1

/-- How the value found along the names has come about: it stands at the path of a claim or behind
it, or it is an object on the way to a claim that has a value. -/
inductive Placed (record : Record) (forced : List String) (claims : List (String × List Rule))
    (names : List String) (found : Json) : Prop where
  /-- The value belongs to a claim. -/
  | within {claim : String × List Rule} (mem : claim ∈ claims)
      (behind : segments claim.1 <+: names)
  /-- The value is an object that leads to a claim. -/
  | above {fields : Json.Fields} (object : found = .object fields)
      (nodup : (Pairs.keys fields).Nodup) (leads : Leads record forced claims names)

/-- All values in the document are in their places. -/
def Orderly (record : Record) (forced : List String) (claims : List (String × List Rule))
    (document : Document) : Prop :=
  ∀ names found, getIn names (.object document.claims) = some found →
    Placed record forced claims names found

lemma orderly_empty (record : Record) (forced : List String)
    (claims : List (String × List Rule)) : Orderly record forced claims {} := by
  intro names found hfound
  cases names with
  | nil =>
    rw [Document.getIn_nil, Option.some.injEq] at hfound
    exact .above hfound.symm List.nodup_nil (Or.inl rfl)
  | cons name rest => simp [Document.getIn_of_no_fields] at hfound

/-- Assigning the value of a claim leaves an object on the way to it, with the fields that were
there. -/
lemma Orderly.placed_of_setIn {claims : List (String × List Rule)} {name : String}
    {rest : List String} {value : Json} {updated : Json.Fields}
    (h : Orderly record forced claims document) (hleads : Leads record forced claims names)
    (hset : setIn (names ++ name :: rest) value document.claims = some updated)
    (hfound : getIn names (.object updated) = some found) :
    Placed record forced claims names found := by
  obtain ⟨earlier, inner, hobject, hearlier⟩ := Document.getIn_setIn_way hset
  rw [hobject, Option.some.injEq] at hfound
  rcases hearlier with rfl | hearlier
  · have hnodup : (Pairs.keys ([] : Json.Fields)).Nodup := List.nodup_nil
    exact .above hfound.symm (Pairs.nodup_keys_put hnodup name inner) hleads
  · cases h names _ hearlier with
    | within mem behind => exact .within mem behind
    | above object nodup leads =>
      cases object
      exact .above hfound.symm (Pairs.nodup_keys_put nodup name inner) hleads

lemma Orderly.readClaim {claims : List (String × List Rule)} {claim : String × List Rule}
    (h : Orderly record forced claims document) (hmem : claim ∈ claims) :
    Orderly record forced claims (readClaim record forced document claim) := by
  intro names found hfound
  by_cases hbehind : segments claim.1 <+: names
  · exact .within hmem hbehind
  by_cases hway : names <+: segments claim.1
  · rcases readClaim_cases record forced document claim with
      heq | ⟨value, updated, hvalue, hset, heq⟩
    · rw [heq] at hfound
      exact h names found hfound
    · have hleads : Leads record forced claims names :=
        Or.inr ⟨claim, hmem, by rw [hvalue, Option.isSome_some], hway⟩
      obtain ⟨name, rest, hnext⟩ := Document.exists_next hway hbehind
      rw [← hnext] at hset
      rw [heq] at hfound
      exact h.placed_of_setIn hleads hset hfound
  · rw [getIn_readClaim_of_forked ⟨hbehind, hway⟩] at hfound
    exact h names found hfound

lemma Orderly.foldl_readClaim {claims part : List (String × List Rule)}
    (h : Orderly record forced claims document) (hpart : part ⊆ claims) :
    Orderly record forced claims (part.foldl (Mapping.readClaim record forced) document) := by
  induction part generalizing document with
  | nil => exact h
  | cons claim rest ih =>
    rw [List.cons_subset] at hpart
    exact ih (h.readClaim hpart.1) hpart.2

/-- All that a record shows is in its place. -/
lemma orderly_claimsOf (mapping : Mapping) (record : Record) (forced : List String) :
    Orderly record forced mapping.toList (mapping.claimsOf record forced) :=
  (orderly_empty record forced mapping.toList).foldl_readClaim (List.Subset.refl _)

/-- Behind the path of a claim stands what stands in its value. -/
lemma getIn_claimsOf_append (hunnested : mapping.Unnested) {claim : String × List Rule}
    (hmem : claim ∈ mapping.toList) (rest : List String) :
    getIn (segments claim.1 ++ rest) (.object (mapping.claimsOf record forced).claims)
      = (claimValue? claim.2 (forced.contains claim.1) record).bind (getIn rest) := by
  rw [Document.getIn_append]
  exact congrArg (·.bind (getIn rest)) (getPath?_claimsOf hunnested hmem)

/-- On the way to a claim that has a value, the rest of the way leads on. -/
lemma isSome_bind_getIn_of_way (hunnested : mapping.Unnested) {claim : String × List Rule}
    (hmem : claim ∈ mapping.toList)
    (hvalue : (claimValue? claim.2 (forced.contains claim.1) record).isSome) {rest : List String}
    (hway : names ++ rest = segments claim.1) :
    ((getIn names (.object (mapping.claimsOf record forced).claims)).bind (getIn rest)).isSome := by
  rw [← Document.getIn_append, hway]
  exact (congrArg Option.isSome (getPath?_claimsOf hunnested hmem)).trans hvalue

/-- A leaf belongs to a claim. -/
lemma exists_claim_of_leaf (hunnested : mapping.Unnested) (hne : names ≠ [])
    (hfound : getIn names (.object (mapping.claimsOf record forced).claims) = some found)
    (hleaf : Leaf found) : ∃ claim ∈ mapping.keys, segments claim <+: names := by
  cases orderly_claimsOf _ _ _ _ _ hfound with
  | within mem behind => exact ⟨_, OrderedMap.mem_keys_of_mem mem, behind⟩
  | above object nodup leads =>
    obtain ⟨claim, hmem, hvalue, rest, hway⟩ := leads.resolve_left hne
    refine ⟨claim.1, OrderedMap.mem_keys_of_mem hmem, ?_⟩
    by_cases hnil : rest = []
    · have hwhole : segments claim.1 = names := by rw [← hway, hnil, List.append_nil]
      exact hwhole ▸ List.prefix_rfl
    · -- an object without names leads to no claim
      obtain rfl := hleaf _ object
      have honward := isSome_bind_getIn_of_way hunnested hmem hvalue hway
      rw [hfound, object, Option.bind_some, Document.getIn_of_no_fields hnil] at honward
      simp at honward

/-! ## The order of the claims -/

lemma Unnested.of_perm (h : mapping.Unnested) (hperm : reordered.toList.Perm mapping.toList) :
    reordered.Unnested :=
  (((hperm.map Prod.fst).map segments).pairwise_iff fun hforked => hforked.symm).2 h

/-- Where a claim is, every order of the claims shows the same. -/
lemma getIn_claimsOf_of_perm (hunnested : mapping.Unnested)
    (hperm : reordered.toList.Perm mapping.toList) {claim : String × List Rule}
    (hmem : claim ∈ mapping.toList) (hbehind : segments claim.1 <+: names) :
    getIn names (.object (reordered.claimsOf record forced).claims)
      = getIn names (.object (mapping.claimsOf record forced).claims) := by
  obtain ⟨rest, rfl⟩ := hbehind
  rw [getIn_claimsOf_append hunnested hmem,
    getIn_claimsOf_append (hunnested.of_perm hperm) (hperm.mem_iff.2 hmem)]

/-- What is found among the claims of a record is found in every order of the claims. -/
lemma isSome_getIn_claimsOf_of_perm (hunnested : mapping.Unnested)
    (hperm : reordered.toList.Perm mapping.toList)
    (h : (getIn names (.object (mapping.claimsOf record forced).claims)).isSome) :
    (getIn names (.object (reordered.claimsOf record forced).claims)).isSome := by
  obtain ⟨found, hfound⟩ := Option.isSome_iff_exists.1 h
  cases orderly_claimsOf _ _ _ _ _ hfound with
  | within mem behind => rwa [getIn_claimsOf_of_perm hunnested hperm mem behind]
  | above object nodup leads =>
    rcases leads with rfl | ⟨claim, hmem, hvalue, rest, hway⟩
    · rw [Document.getIn_nil, Option.isSome_some]
    · exact Option.isSome_of_isSome_bind
        (isSome_bind_getIn_of_way (hunnested.of_perm hperm) (hperm.mem_iff.2 hmem) hvalue hway)

/-- What stands at no claim and behind none is an object in which no name comes twice. -/
lemma exists_object_of_outside
    (houtside : ∀ claim ∈ mapping.toList, ¬ segments claim.1 <+: names)
    (hfound : getIn names (.object (mapping.claimsOf record forced).claims) = some found) :
    ∃ fields, found = .object fields ∧ (Pairs.keys fields).Nodup := by
  cases orderly_claimsOf _ _ _ _ _ hfound with
  | within mem behind => exact absurd behind (houtside _ mem)
  | above object nodup leads => exact ⟨_, object, nodup⟩

/-- Claims in another order are the same claims, with the names in objects in another order. -/
lemma sameUpToOrder_of_perm (hunnested : mapping.Unnested)
    (hperm : reordered.toList.Perm mapping.toList) :
    SameUpToOrder (reordered.claimsOf record forced) (mapping.claimsOf record forced) := by
  intro names
  have hsome : ∀ names, (getIn names (.object (reordered.claimsOf record forced).claims)).isSome
      ↔ (getIn names (.object (mapping.claimsOf record forced).claims)).isSome := fun names =>
    ⟨isSome_getIn_claimsOf_of_perm (hunnested.of_perm hperm) hperm.symm,
      isSome_getIn_claimsOf_of_perm hunnested hperm⟩
  by_cases hclaim : ∃ claim ∈ mapping.toList, segments claim.1 <+: names
  · obtain ⟨claim, hmem, hbehind⟩ := hclaim
    exact Or.inl (getIn_claimsOf_of_perm hunnested hperm hmem hbehind)
  -- away from the claims there are only objects, and they have the same names
  have houtside : ∀ claim ∈ mapping.toList, ¬ segments claim.1 <+: names :=
    fun claim hmem hbehind => hclaim ⟨claim, hmem, hbehind⟩
  cases hfound : getIn names (.object (mapping.claimsOf record forced).claims) with
  | none =>
    left
    rw [← Option.not_isSome_iff_eq_none, hsome names, hfound]
    simp
  | some found =>
    have hthere := (hsome names).2 (by rw [hfound, Option.isSome_some])
    obtain ⟨found', hfound'⟩ := Option.isSome_iff_exists.1 hthere
    obtain ⟨fields, rfl, hnodup⟩ := exists_object_of_outside houtside hfound
    obtain ⟨others, rfl, hnodup'⟩ := exists_object_of_outside
      (fun claim hmem => houtside claim (hperm.mem_iff.1 hmem)) hfound'
    refine Or.inr ⟨others, fields, hfound', rfl, hnodup', ?_⟩
    refine (List.perm_ext_iff_of_nodup hnodup' hnodup).2 fun name => ?_
    rw [Pairs.mem_keys_iff_lookup, Pairs.mem_keys_iff_lookup,
      ← Document.getIn_append_singleton hfound', ← Document.getIn_append_singleton hfound]
    exact hsome (names ++ [name])

/-- **The claims of a record.**  Let no claim path continue another.  At the path of a claim stands
what the first rule with data reads from the value of its first synonym with data, in an array of
its own if the claim is forced and the value is no array; nothing stands there if no rule has data
or the rule reads nothing.  Every leaf stands at the path of a claim or behind it.  Attributes that
the mapping does not name and the order of the attributes do not count, and the order of the claims
changes only the order of the names. -/
theorem claimsOf_shows (mapping : Mapping) (hunnested : mapping.Unnested) (record : Record)
    (forced : List String) :
    let shown := mapping.claimsOf record forced
    (∀ claim rules, (claim, rules) ∈ mapping.toList →
        (∀ rule stored, Selects rules record rule stored →
          shown.getPath? claim = (rule.read? stored.toClaim).map fun value =>
            if claim ∈ forced ∧ value.isArray = false then .array [value] else value)
        ∧ ((∀ rule ∈ rules, ∀ name ∈ rule.source.names, Record.hasData record name = false) →
            shown.getPath? claim = none))
      ∧ (∀ names found, names ≠ [] → getIn names (.object shown.claims) = some found →
          Leaf found → ∃ claim ∈ mapping.keys, segments claim <+: names)
      ∧ (∀ other : Record, (∀ claim rules, (claim, rules) ∈ mapping.toList → ∀ rule ∈ rules,
            ∀ name ∈ rule.source.names, other.get? name = record.get? name) →
          mapping.claimsOf other forced = shown)
      ∧ (∀ other : Record, other.toList.Perm record.toList →
          mapping.claimsOf other forced = shown)
      ∧ ∀ reordered : Mapping, reordered.toList.Perm mapping.toList →
          SameUpToOrder (reordered.claimsOf record forced) shown := by
  intro shown
  refine ⟨fun claim rules hmem => ⟨fun rule stored hselects => ?_, fun hnone => ?_⟩,
    fun names found hne hfound hleaf => exists_claim_of_leaf hunnested hne hfound hleaf,
    fun other hagree => claimsOf_congr hagree, fun other hperm => ?_,
    fun reordered hperm => sameUpToOrder_of_perm hunnested hperm⟩
  · rw [getPath?_claimsOf hunnested hmem, claimValue?_of_selects hselects]
    simp
  · rw [getPath?_claimsOf hunnested hmem, claimValue?_eq_none _ hnone]
  · refine claimsOf_congr fun claim rules _ rule _ name _ => Option.ext fun value => ?_
    rw [OrderedMap.get?_eq_some_iff, OrderedMap.get?_eq_some_iff]
    exact hperm.mem_iff

/-- The name is read from the second synonym because the first is empty, the town becomes an array
because it is forced, and what the mapping does not name leaves no trace. -/
theorem claimsOf_shows_of_bob :
    let mapping : Mapping := ⟨[("name", [.plain (.synonyms ["displayName", "cn"])]),
      ("address.town", [.plain (.one "town"), .plain (.one "l")]),
      ("address.country", [.plain (.one "c")])], by decide⟩
    let reordered : Mapping := ⟨[("address.country", [.plain (.one "c")]),
      ("name", [.plain (.synonyms ["displayName", "cn"])]),
      ("address.town", [.plain (.one "town"), .plain (.one "l")])], by decide⟩
    let record : Record := ⟨[("displayName", .single ""), ("cn", .single "Bob"),
      ("l", .single "Bern"), ("c", .single "CH"), ("mail", .single "b@x")], by decide⟩
    let shown := mapping.claimsOf record ["address.town"]
    mapping.Unnested ∧ shown.getPath? "name" = some (.string "Bob")
      ∧ shown.getPath? "address.town" = some (.array [.string "Bern"])
      ∧ mapping.claimsOf (record.erase "mail") ["address.town"] = shown
      ∧ SameUpToOrder (reordered.claimsOf record ["address.town"]) shown
      ∧ reordered.claimsOf record ["address.town"] ≠ shown := by
  intro mapping reordered record shown
  have hunnested : mapping.Unnested := by decide
  obtain ⟨hvalues, -, hagree, -, horder⟩ :=
    claimsOf_shows mapping hunnested record ["address.town"]
  have hname := (hvalues "name" _ (by decide)).1 (.plain (.synonyms ["displayName", "cn"]))
    (.single "Bob") ⟨⟨[], [], rfl, ⟨"cn", by decide, by decide⟩, by simp⟩,
      "cn", ⟨["displayName"], [], rfl, by decide, by decide⟩, rfl⟩
  have htown := (hvalues "address.town" _ (by decide)).1 (.plain (.one "l"))
    (.single "Bern") ⟨⟨[.plain (.one "town")], [], rfl, ⟨"l", by decide, by decide⟩, by decide⟩,
      "l", ⟨[], [], rfl, by decide, by simp⟩, rfl⟩
  have hunmapped : ∀ pair ∈ mapping.toList, ∀ rule ∈ pair.2, ∀ name ∈ rule.source.names,
      name ≠ "mail" := by decide
  refine ⟨hunnested, hname.trans (by decide), htown.trans (by decide), ?_,
    horder reordered (by decide), by decide⟩
  exact hagree _ fun claim rules hmem rule hrule name hname =>
    OrderedMap.get?_erase_of_ne (hunmapped (claim, rules) hmem rule hrule name hname) record

end Mapping
end EntryClaims
