/-
# Saving claims and reading them back

Here every rule is without options and every attribute name is declared once, so that no two
rules have a name in common.  A claim that is supplied is written to the root of its first rule,
and the changes settle it under a name of that rule.  This name is the first with data, so the
claim is read from there.  A claim that is withheld has no attribute in common with the supplied
ones, and is read from the same values as before.  A directory makes these changes one after the
other, and it gets to the end of them unless one of them gives the entry another name.
-/
import EntryClaims.Proofs.Claim.Alignment
import EntryClaims.Proofs.Claim.Reading
import EntryClaims.Proofs.Claim.Splitting
import EntryClaims.Proofs.Claim.Writing
import EntryClaims.Proofs.Entry.Convergence
import Mathlib.Data.List.Pairwise

namespace EntryClaims

/-! ## What a document says about a claim -/

namespace Document

/-- The document supplies a claim: the claim shows a value that is data throughout. -/
def Supplies (document : Document) (claim : String) (value : AttributeValue) : Prop :=
  document.getPath? claim = some value.toClaim ∧ value.Solid

instance (document : Document) (claim : String) (value : AttributeValue) :
    Decidable (document.Supplies claim value) :=
  inferInstanceAs (Decidable (document.getPath? claim = some value.toClaim ∧ value.Solid))

/-- The document withholds a claim: the claim is absent, null or empty. -/
def Withholds (document : Document) (claim : String) : Prop :=
  document.getPath? claim ∈ [none, some .null, some (.string ""), some (.array [])]

instance (document : Document) (claim : String) : Decidable (document.Withholds claim) :=
  inferInstanceAs (Decidable
    (document.getPath? claim ∈ [none, some .null, some (.string ""), some (.array [])]))

variable {document : Document} {claim : String} {value other : AttributeValue}

lemma Supplies.unique (h : document.Supplies claim value) (h' : document.Supplies claim other) :
    value = other := by
  have hclaim : value.toClaim = other.toClaim := Option.some.inj (h.1.symm.trans h'.1)
  have hstored := AttributeValue.ofClaim?_toClaim h.2.hasData
  rw [hclaim, AttributeValue.ofClaim?_toClaim h'.2.hasData, Option.some.injEq] at hstored
  exact hstored.symm

lemma Supplies.not_withholds (h : document.Supplies claim value) : ¬ document.Withholds claim := by
  have hdata := h.2.hasData
  rw [Withholds, h.1]
  cases value with
  | single text => simpa [AttributeValue.toClaim, AttributeValue.hasData] using hdata
  | multi texts =>
    simpa [AttributeValue.toClaim, Json.ofStrings, AttributeValue.hasData] using hdata

end Document

namespace Mapping

open Document (Supplies Withholds)
open Record (Solid applyAll changes managedKeys Settled)
open SynonymTable (resolve namesFor Apart)

/-! ## Mappings without options -/

/-- The names of all attributes that the rules name. -/
def declaredNames (mapping : Mapping) : List String :=
  mapping.toList.flatMap fun pair => pair.2.flatMap fun rule => rule.source.names

lemma mem_declaredNames {mapping : Mapping} {claim : String} {rules : List Rule} {rule : Rule}
    {name : String} (hmem : (claim, rules) ∈ mapping.toList) (hrule : rule ∈ rules)
    (hname : name ∈ rule.source.names) : name ∈ mapping.declaredNames :=
  List.mem_flatMap.2 ⟨_, hmem, List.mem_flatMap.2 ⟨rule, hrule, hname⟩⟩

/-- A mapping without options: no claim path continues another, every claim has a rule, every
rule names an attribute and does nothing more, and no attribute name occurs twice. -/
structure Plain (mapping : Mapping) : Prop where
  unnested : mapping.Unnested
  rules_ne_nil : ∀ pair ∈ mapping.toList, pair.2 ≠ []
  names_ne_nil : ∀ rule ∈ mapping.allRules, rule.source.names ≠ []
  eq_plain : ∀ rule ∈ mapping.allRules, rule = .plain rule.source
  nodup_names : mapping.declaredNames.Nodup

instance (mapping : Mapping) : Decidable mapping.Plain :=
  decidable_of_iff
    (mapping.Unnested ∧ (∀ pair ∈ mapping.toList, pair.2 ≠ [])
      ∧ (∀ rule ∈ mapping.allRules, rule.source.names ≠ [])
      ∧ (∀ rule ∈ mapping.allRules, rule = .plain rule.source) ∧ mapping.declaredNames.Nodup)
    ⟨fun ⟨unnested, rules, names, plain, nodup⟩ => ⟨unnested, rules, names, plain, nodup⟩,
      fun h => ⟨h.unnested, h.rules_ne_nil, h.names_ne_nil, h.eq_plain, h.nodup_names⟩⟩

lemma eq_of_nodup_flatMap {α : Type} {f : α → List String} {items : List α}
    (h : (items.flatMap f).Nodup) {item other : α} (hitem : item ∈ items) (hother : other ∈ items)
    {name : String} (hname : name ∈ f item) (hname' : name ∈ f other) : item = other := by
  have hsymm : Std.Symm (Function.onFun List.Disjoint f) :=
    ⟨fun _ _ hdisjoint => List.disjoint_symm hdisjoint⟩
  by_cases heq : item = other
  · exact heq
  · exact absurd hname' ((List.nodup_flatMap.1 h).2.forall hitem hother heq hname)

section Plain

variable {mapping : Mapping} (h : mapping.Plain)

include h

lemma Plain.aligned : mapping.Aligned := by
  intro rule hrule other hother
  by_cases heq : rule = other
  · exact Or.inl (by rw [heq])
  · have hnodup : (mapping.allRules.flatMap fun rule => rule.source.names).Nodup := by
      rw [allRules, List.flatMap_assoc]
      exact h.nodup_names
    exact Or.inr fun name hname hname' =>
      heq (eq_of_nodup_flatMap hnodup hrule hother hname hname')

/-- An attribute name belongs to one claim. -/
lemma Plain.claim_eq {claim other : String} {rules others : List Rule}
    (hclaim : (claim, rules) ∈ mapping.toList) (hother : (other, others) ∈ mapping.toList)
    {rule rule' : Rule} (hrule : rule ∈ rules) (hrule' : rule' ∈ others) {name : String}
    (hname : name ∈ rule.source.names) (hname' : name ∈ rule'.source.names) : claim = other := by
  have hpair : (claim, rules) = (other, others) :=
    eq_of_nodup_flatMap h.nodup_names hclaim hother (List.mem_flatMap.2 ⟨rule, hrule, hname⟩)
      (List.mem_flatMap.2 ⟨rule', hrule', hname'⟩)
  exact congrArg Prod.fst hpair

/-- Every claim has a first rule, with a root. -/
lemma Plain.exists_root {claim : String} {rules : List Rule}
    (hmem : (claim, rules) ∈ mapping.toList) :
    ∃ rule rest root, rules = rule :: rest ∧ rule ∈ mapping.allRules
      ∧ rule.source.root? = some root := by
  obtain ⟨rule, rest, rfl⟩ := List.exists_cons_of_ne_nil (h.rules_ne_nil _ hmem)
  have hrule : rule ∈ mapping.allRules := mem_allRules hmem List.mem_cons_self
  obtain ⟨root, hroot⟩ := Source.exists_root? (h.names_ne_nil rule hrule)
  exact ⟨rule, rest, root, rfl, hrule, hroot⟩

end Plain

/-! ## What is contributed -/

variable {mapping : Mapping} {payload : Document} {claim : String} {rules : List Rule}
  {value stored : AttributeValue}

/-- The value that a rule without options stores for a claim. -/
def storedValue? (document : Document) (claim : String) : Option AttributeValue :=
  ((document.getPath? claim).filter (!isBlank ·)).bind AttributeValue.ofClaim?

lemma storedValue?_of_withholds (h : payload.Withholds claim) :
    storedValue? payload claim = none := by
  simp only [Withholds, List.mem_cons, List.not_mem_nil, or_false] at h
  rcases h with hget | hget | hget | hget <;> rw [storedValue?, hget] <;> rfl

/-- A claim that is supplied does not count as missing. -/
lemma filter_isBlank_of_supplies (h : payload.Supplies claim value) :
    (payload.getPath? claim).filter (!isBlank ·) = some value.toClaim := by
  have hblank : isBlank value.toClaim = false := by
    have hdata := h.2.hasData
    cases value with
    | single text => simpa [AttributeValue.toClaim, isBlank, AttributeValue.hasData] using hdata
    | multi texts => rfl
  rw [h.1, Option.filter_some_pos (by rw [hblank]; rfl)]

lemma storedValue?_of_supplies (h : payload.Supplies claim value) :
    storedValue? payload claim = some value := by
  rw [storedValue?, filter_isBlank_of_supplies h, Option.bind_some,
    AttributeValue.ofClaim?_toClaim h.2.hasData]

lemma contribution?_cons {rule : Rule} (hplain : rule = .plain rule.source) (rest : List Rule)
    {root : String} (hroot : rule.source.root? = some root) :
    contribution? payload claim (rule :: rest)
      = (storedValue? payload claim).map fun stored => (root, stored) := by
  have hwrite : ∀ value : Json, rule.write? value = value.present? := by
    intro value
    rw [hplain]
    cases value <;> rfl
  rw [storedValue?]
  cases hget : (payload.getPath? claim).filter (!isBlank ·) with
  | none => simp [contribution?, hget]
  | some value =>
    have hpresent : value.present? = some value := by
      have hblank := (Option.filter_eq_some_iff.1 hget).2
      exact Json.present?_of_ne_null fun hnull => by simp [hnull, isBlank] at hblank
    simp only [contribution?, List.head?_cons, Option.bind_eq_bind, Option.bind_some, hget,
      hwrite, hpresent, hroot]
    cases AttributeValue.ofClaim? value <;> rfl

/-- A supplied claim contributes its value to the root of its first rule, and nothing else is
contributed. -/
lemma Plain.contribution?_iff (h : mapping.Plain) (hmem : (claim, rules) ∈ mapping.toList)
    (hpayload : payload.Withholds claim ∨ ∃ value, payload.Supplies claim value)
    {target : String} :
    contribution? payload claim rules = some (target, stored) ↔
      payload.Supplies claim stored
        ∧ ∃ rule, rules.head? = some rule ∧ rule.source.root? = some target := by
  obtain ⟨rule, rest, root, rfl, hrule, hroot⟩ := h.exists_root hmem
  have hhead : (∃ first, (rule :: rest).head? = some first ∧ first.source.root? = some target)
      ↔ root = target := by
    simp [hroot]
  rw [contribution?_cons (h.eq_plain rule hrule) rest hroot, hhead]
  rcases hpayload with hwithheld | ⟨value, hsupplied⟩
  · rw [storedValue?_of_withholds hwithheld]
    exact iff_of_false (by simp) fun hboth => hboth.1.not_withholds hwithheld
  · rw [storedValue?_of_supplies hsupplied, Option.map_some, Option.some.injEq, Prod.mk.injEq,
      and_comm]
    refine and_congr_left fun _ => ?_
    constructor
    · rintro rfl
      exact hsupplied
    · exact hsupplied.unique

section Saved

variable (h : mapping.Plain)
  (hpayload : ∀ claim ∈ mapping.keys,
    payload.Withholds claim ∨ ∃ value, payload.Supplies claim value)

include h hpayload

lemma Plain.mem_contributions {target : String} :
    (target, stored) ∈ mapping.contributions payload ↔
      ∃ claim rules, (claim, rules) ∈ mapping.toList ∧ payload.Supplies claim stored
        ∧ ∃ rule, rules.head? = some rule ∧ rule.source.root? = some target := by
  rw [Mapping.mem_contributions]
  refine exists_congr fun claim => exists_congr fun rules => and_congr_right fun hmem => ?_
  exact h.contribution?_iff hmem (hpayload claim (OrderedMap.mem_keys_of_mem hmem))

lemma Plain.solid_recordOf : Solid (mapping.recordOf payload) := by
  refine Mapping.solid_recordOf fun contribution hmem => ?_
  obtain ⟨target, stored⟩ := contribution
  obtain ⟨claim, rules, -, hsupplied, -⟩ := (h.mem_contributions hpayload).1 hmem
  exact hsupplied.2

/-- An attribute of the saved record is the root of the first rule of a supplied claim. -/
lemma Plain.exists_origin {key : String} (hkey : key ∈ (mapping.recordOf payload).keys) :
    ∃ claim rules rule value, (claim, rules) ∈ mapping.toList ∧ rule ∈ rules
      ∧ rule.source.root? = some key ∧ payload.Supplies claim value := by
  obtain ⟨stored, hstored⟩ := contains_recordOf.1 (OrderedMap.mem_keys_iff.1 hkey)
  obtain ⟨claim, rules, hmem, hsupplied, rule, hhead, hroot⟩ :=
    (h.mem_contributions hpayload).1 hstored
  exact ⟨claim, rules, rule, stored, hmem, List.mem_of_mem_head? hhead, hroot, hsupplied⟩

/-- The names for different attributes of the saved record never overlap. -/
lemma Plain.apart_synonyms (protectedKeys : List String) :
    Apart mapping.synonyms (managedKeys (mapping.recordOf payload) protectedKeys) := by
  intro key hkey other hother hne name hname hname'
  obtain ⟨claim, rules, rule, value, hmem, hrule, hroot, -⟩ :=
    h.exists_origin hpayload (List.mem_filter.1 hkey).1
  obtain ⟨claim', rules', rule', value', hmem', hrule', hroot', -⟩ :=
    h.exists_origin hpayload (List.mem_filter.1 hother).1
  rw [h.aligned.mem_namesFor_root (mem_allRules hmem hrule) hroot] at hname
  rw [h.aligned.mem_namesFor_root (mem_allRules hmem' hrule') hroot'] at hname'
  -- rules with the same names have the same root
  rcases h.aligned rule (mem_allRules hmem hrule) rule' (mem_allRules hmem' hrule')
    with hnames | hapart
  · rw [Source.root?, hnames, ← Source.root?, hroot', Option.some.injEq] at hroot
    exact hne hroot.symm
  · exact hapart name hname hname'

/-- A directory admits the changes when it admits a change of every declared attribute. -/
lemma Plain.admits_changes {memory : Memory}
    (hadmits : ∀ name ∈ mapping.declaredNames, name ∉ memory.refused ∧ name ≠ dnAttribute)
    (existing : Record) (protectedKeys : List String) :
    memory.Admits
      (changes existing (mapping.recordOf payload) mapping.synonyms protectedKeys) := by
  refine Record.admits_changes fun key hkey name hname => ?_
  obtain ⟨claim, rules, rule, value, hmem, hrule, hroot, -⟩ :=
    h.exists_origin hpayload (List.mem_filter.1 hkey).1
  rw [h.aligned.mem_namesFor_root (mem_allRules hmem hrule) hroot] at hname
  exact hadmits name (mem_declaredNames hmem hrule hname)

/-- The saved record has the supplied strings of a claim under the root of its first rule. -/
lemma Plain.exists_wanted {rule : Rule} {rest : List Rule} {root : String}
    (hmem : (claim, rule :: rest) ∈ mapping.toList) (hroot : rule.source.root? = some root)
    (hsupplied : payload.Supplies claim value) :
    ∃ wanted, (mapping.recordOf payload).get? root = some wanted
      ∧ ValueSet.Same wanted.texts value.texts := by
  have hgiven : (root, value) ∈ mapping.contributions payload :=
    (h.mem_contributions hpayload).2 ⟨claim, rule :: rest, hmem, hsupplied, rule, rfl, hroot⟩
  obtain ⟨wanted, hget⟩ := Option.isSome_iff_exists.1 (contains_recordOf.2 ⟨value, hgiven⟩)
  refine ⟨wanted, hget, same_of_forall_contribution hget fun stored hstored => ?_⟩
  obtain ⟨other, rules, hother, hsupplied', rule', hhead, hroot'⟩ :=
    (h.mem_contributions hpayload).1 hstored
  -- only one claim declares the root, so nothing else is contributed to it
  obtain rfl : claim = other := h.claim_eq hmem hother List.mem_cons_self
    (List.mem_of_mem_head? hhead) (List.mem_of_mem_head? hroot) (List.mem_of_mem_head? hroot')
  rw [hsupplied'.unique hsupplied]

end Saved

/-! ## Reading back -/

/-- The claim of a plain rule shows the value of the attribute that the rule reads, as it is or
as the list of its strings. -/
lemma claimValue?_cons {record : Record} {rule : Rule} {name : String}
    (hplain : rule = .plain rule.source) (rest : List Rule)
    (hfirst : rule.source.firstWithData? record = some name) (hget : record.get? name = some value)
    (force : Bool) :
    ∃ shown : AttributeValue, claimValue? (rule :: rest) force record = some shown.toClaim
      ∧ shown.texts = value.texts := by
  have hread : rule.read? value.toClaim = some value.toClaim := by
    rw [hplain]
    cases value <;> rfl
  have hchosen : chosen? (rule :: rest) record = some (rule, name) := by
    simp [chosen?, hfirst]
  cases force with
  | false => exact ⟨value, by simp [claimValue?, hchosen, hget, hread], rfl⟩
  | true =>
    refine ⟨.multi value.texts, ?_, rfl⟩
    simp [claimValue?, hchosen, hget, hread, AttributeValue.toArray_toClaim]

section Final

variable (h : mapping.Plain) {existing : Record} (hexisting : Solid existing)
  (hpayload : ∀ claim ∈ mapping.keys,
    payload.Withholds claim ∨ ∃ value, payload.Supplies claim value)
  {protectedKeys : List String}

include h hexisting hpayload

/-- After the changes a supplied claim shows the supplied strings. -/
lemma Plain.getPath?_of_supplies (hprotected : ∀ name ∈ mapping.declaredNames, name ∉ protectedKeys)
    (hmem : (claim, rules) ∈ mapping.toList) (hsupplied : payload.Supplies claim value)
    (forced : List String) :
    ∃ shown : AttributeValue,
      (mapping.claimsOf (applyAll existing (changes existing (mapping.recordOf payload)
          mapping.synonyms protectedKeys)) forced).getPath? claim = some shown.toClaim
        ∧ ValueSet.Same shown.texts value.texts := by
  have hdesired := h.solid_recordOf hpayload
  have hapart := h.apart_synonyms hpayload protectedKeys
  have hfinal : Solid (applyAll existing (changes existing (mapping.recordOf payload)
      mapping.synonyms protectedKeys)) := Record.solid_applyAll_changes hexisting hdesired
  obtain ⟨rule, rest, root, rfl, hrule, hroot⟩ := h.exists_root hmem
  obtain ⟨wanted, hwanted, hsame⟩ := h.exists_wanted hpayload hmem hroot hsupplied
  have hmanaged : root ∉ protectedKeys := hprotected root
    (mem_declaredNames hmem List.mem_cons_self (List.mem_of_mem_head? hroot))
  -- the changes settle the value under a name of the rule, and the rule reads it from there
  obtain ⟨stored, hstored, hsettled⟩ := Record.settled_applyAll_changes hexisting hdesired
    (rooted_synonyms mapping) hapart hwanted hmanaged
  have hfirst := h.aligned.firstWithData?_eq hrule hroot hfinal.filled
    (Record.contains_of_get? hstored)
  obtain ⟨shown, hshown, htexts⟩ := claimValue?_cons (h.eq_plain rule hrule) rest hfirst hstored
    (forced.contains claim)
  refine ⟨shown, by rw [getPath?_claimsOf h.unnested hmem, hshown], ?_⟩
  rw [htexts]
  exact hsettled.trans hsame

omit hexisting in
/-- After the changes a withheld claim shows what it showed before. -/
lemma Plain.getPath?_of_withholds (hmem : (claim, rules) ∈ mapping.toList)
    (hwithheld : payload.Withholds claim) (forced : List String) :
    (mapping.claimsOf (applyAll existing (changes existing (mapping.recordOf payload)
        mapping.synonyms protectedKeys)) forced).getPath? claim
      = (mapping.claimsOf existing forced).getPath? claim := by
  rw [getPath?_claimsOf h.unnested hmem, getPath?_claimsOf h.unnested hmem]
  refine claimValue?_congr fun rule hrule name hname => ?_
  refine Record.get?_applyAll_changes fun key hkey hname' => ?_
  -- a name for a saved attribute belongs to a supplied claim, which the withheld one is not
  obtain ⟨other, others, rule', value, hmem', hrule', hroot', hsupplied⟩ :=
    h.exists_origin hpayload (List.mem_filter.1 hkey).1
  rw [h.aligned.mem_namesFor_root (mem_allRules hmem' hrule') hroot'] at hname'
  obtain rfl : claim = other := h.claim_eq hmem hmem' hrule hrule' hname hname'
  exact hsupplied.not_withholds hwithheld

end Final

/-- **What is saved is read back, and nothing else moves.**  Let a directory have the entry and
admit the changes for the saved record, so that it refuses none of them and none of them is a change
of the name.  Made one after the other, they all succeed.  Then every supplied claim shows exactly
the supplied strings, and every withheld claim shows what it showed before. -/
theorem saved_claims_read_back (h : mapping.Plain) {protectedKeys : List String}
    (hprotected : ∀ name ∈ mapping.declaredNames, name ∉ protectedKeys) {existing : Record}
    (hexisting : Solid existing)
    (hpayload : ∀ claim ∈ mapping.keys,
      payload.Withholds claim ∨ ∃ value, payload.Supplies claim value) (forced : List String)
    {memory : Memory} {dn : String} (hentry : memory.entry? dn = some existing)
    (hadmits : memory.Admits
      (changes existing (mapping.recordOf payload) mapping.synonyms protectedKeys)) :
    let asked := changes existing (mapping.recordOf payload) mapping.synonyms protectedKeys
    ∃ final, memory.LeadsTo dn asked final
      ∧ (∀ claim ∈ mapping.keys, ∀ value, payload.Supplies claim value →
          ∃ shown : AttributeValue,
            (mapping.claimsOf final forced).getPath? claim = some shown.toClaim
              ∧ ValueSet.Same shown.texts value.texts)
      ∧ ∀ claim ∈ mapping.keys, payload.Withholds claim →
          (mapping.claimsOf final forced).getPath? claim
            = (mapping.claimsOf existing forced).getPath? claim := by
  intro asked
  refine ⟨applyAll existing asked, Memory.leadsTo_applyAll hentry hadmits, ?_, ?_⟩
  · intro claim hclaim value hsupplied
    obtain ⟨rules, hget⟩ := Option.isSome_iff_exists.1 (OrderedMap.mem_keys_iff.1 hclaim)
    exact h.getPath?_of_supplies hexisting hpayload hprotected
      (OrderedMap.get?_eq_some_iff.1 hget) hsupplied forced
  · intro claim hclaim hwithheld
    obtain ⟨rules, hget⟩ := Option.isSome_iff_exists.1 (OrderedMap.mem_keys_iff.1 hclaim)
    exact h.getPath?_of_withholds hpayload (OrderedMap.get?_eq_some_iff.1 hget) hwithheld forced

/-- A new login goes to the root of its family, the old one stays behind under a synonym, and
the mail, which is withheld, is still read through the second rule. -/
theorem saved_login_read_back :
    let mapping : Mapping := ⟨[("login", [.plain (.synonyms ["uid", "userid"])]),
      ("contact.mail", [.plain (.one "mail"), .plain (.one "email")]),
      ("contact.phone", [.plain (.one "phone")])], by decide⟩
    let existing : Record := ⟨[("dn", .single "cn=bob"), ("userid", .single "bob"),
      ("email", .single "b@x"), ("phone", .multi ["1", "2"])], by decide⟩
    let payload : Document := ⟨[("login", .string "rob"),
      ("contact", .object [("mail", .null), ("phone", .array [.string "2", .string "3"])])]⟩
    let memory : Memory := { entries := [existing], refused := ["cn"] }
    let asked := changes existing (mapping.recordOf payload) mapping.synonyms ["dn"]
    mapping.Plain ∧ (∀ name ∈ mapping.declaredNames, name ∉ ["dn"]) ∧ Solid existing
      ∧ (∀ claim ∈ mapping.keys, payload.Withholds claim ∨ ∃ value, payload.Supplies claim value)
      ∧ memory.entry? "cn=bob" = some existing ∧ memory.Admits asked
      ∧ asked = [⟨"uid", .replace, ["rob"]⟩, ⟨"phone", .add, ["3"]⟩, ⟨"phone", .delete, ["1"]⟩]
      ∧ ∃ final, memory.LeadsTo "cn=bob" asked final
          ∧ (mapping.claimsOf final []).getPath? "contact.mail"
              = (mapping.claimsOf existing []).getPath? "contact.mail" := by
  intro mapping existing payload memory asked
  have hmapping : mapping.Plain := by decide
  have hprotected : ∀ name ∈ mapping.declaredNames, name ∉ ["dn"] := by decide
  have hexisting : Solid existing := by decide
  have hpayload : ∀ claim ∈ mapping.keys,
      payload.Withholds claim ∨ ∃ value, payload.Supplies claim value := by
    intro claim hclaim
    have hkeys : mapping.keys = ["login", "contact.mail", "contact.phone"] := rfl
    rw [hkeys] at hclaim
    simp only [List.mem_cons, List.not_mem_nil, or_false] at hclaim
    rcases hclaim with rfl | rfl | rfl
    · exact Or.inr ⟨.single "rob", by decide⟩
    · exact Or.inl (by decide)
    · exact Or.inr ⟨.multi ["2", "3"], by decide⟩
  have hentry : memory.entry? "cn=bob" = some existing := by decide
  have hadmits : memory.Admits asked :=
    hmapping.admits_changes hpayload (by decide) existing ["dn"]
  obtain ⟨final, hleads, -, hwithheld⟩ :=
    saved_claims_read_back hmapping hprotected hexisting hpayload [] hentry hadmits
  exact ⟨hmapping, hprotected, hexisting, hpayload, hentry, hadmits, by decide, final, hleads,
    hwithheld "contact.mail" (by decide) (by decide)⟩

/-- Where a claim is written to the name itself, the entry gets the new name.  The change behind it
then finds no entry of the old one, and the other claim still shows what it showed before. -/
theorem saved_claim_lost_after_rename :
    let mapping : Mapping :=
      ⟨[("entry", [.plain (.one "dn")]), ("name", [.plain (.one "cn")])], by decide⟩
    let existing : Record := ⟨[("dn", .single "uid=bob"), ("cn", .single "Bob")], by decide⟩
    let renamed : Record := ⟨[("dn", .single "uid=rob"), ("cn", .single "Bob")], by decide⟩
    let payload : Document := ⟨[("entry", .string "uid=rob"), ("name", .string "Rob")]⟩
    let memory : Memory := { entries := [existing] }
    let after : Memory := { entries := [renamed] }
    let asked := changes existing (mapping.recordOf payload) mapping.synonyms []
    mapping.Plain ∧ (∀ name ∈ mapping.declaredNames, name ∉ []) ∧ Solid existing
      ∧ payload.Supplies "entry" (.single "uid=rob") ∧ payload.Supplies "name" (.single "Rob")
      ∧ memory.entry? "uid=bob" = some existing
      ∧ asked = [⟨"dn", .replace, ["uid=rob"]⟩, ⟨"cn", .replace, ["Rob"]⟩]
      ∧ memory.modify "uid=bob" ⟨"dn", .replace, ["uid=rob"]⟩ = .ok after
      ∧ after.modify "uid=bob" ⟨"cn", .replace, ["Rob"]⟩ = .error (.entryNotFound "uid=bob")
      ∧ (∀ final, ¬ memory.LeadsTo "uid=bob" asked final)
      ∧ (mapping.claimsOf renamed []).getPath? "name" = some (.string "Bob") := by
  intro mapping existing renamed payload memory after asked
  have hentry : memory.entry? "uid=bob" = some existing := by decide
  have hasked : asked = [⟨"dn", .replace, ["uid=rob"]⟩, ⟨"cn", .replace, ["Rob"]⟩] := by decide
  have hmade : memory.modify "uid=bob" ⟨"dn", .replace, ["uid=rob"]⟩ = .ok after :=
    Memory.modify_eq_ok_iff.2 ⟨by decide, existing, hentry, by decide⟩
  have hfails : after.modify "uid=bob" ⟨"cn", .replace, ["Rob"]⟩
      = .error (.entryNotFound "uid=bob") :=
    Memory.modify_eq_error (by decide) (by decide)
  have hnowhere : ∀ final, ¬ memory.LeadsTo "uid=bob" asked final := by
    intro final
    rw [hasked]
    exact Memory.not_leadsTo_of_error hmade hfails
  exact ⟨by decide, by decide, by decide, by decide, by decide, hentry, hasked, hmade, hfails,
    hnowhere, by decide⟩

end Mapping
end EntryClaims
