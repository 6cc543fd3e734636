/-
# Claims whose paths overlap

A mapping may list a claim whose path goes on behind that of another claim.  The claims are assigned
in their order, and an assignment is refused only where its way is blocked: at its own path it takes
the place of whatever stands there, and of all that was put behind it.  So a claim that was assigned
need not be there in the end.  What decides are the later assignments that concern its path.  One at
the path or behind it leaves something there, and one in front of it leaves there what its own value
has there, which may be nothing.
-/
import EntryClaims.Proofs.Claim.Lens
import EntryClaims.Proofs.Claim.Reading

namespace EntryClaims
namespace Document

variable {document changed final : Document} {path other : String} {value : Json}
  {assignments : List (String × Json)}

/-! ## One assignment -/

/-- The assignment leaves something at the path: it is made there or behind it, or in front of it
with a value that has something there. -/
def Provides (assignment : String × Json) (path : String) : Prop :=
  assignment.1 = path ∨ (∃ rest, assignment.1 = path ++ "." ++ rest)
    ∨ ∃ rest, path = assignment.1 ++ "." ++ rest ∧ (getIn (segments rest) assignment.2).isSome

/-- The assignment leaves nothing at the path: it is made in front of it with a value that has
nothing there. -/
def Removes (assignment : String × Json) (path : String) : Prop :=
  ∃ rest, path = assignment.1 ++ "." ++ rest ∧ getIn (segments rest) assignment.2 = none

section Assigned

variable (h : document.setPath? path value = some changed)

include h

lemma isSome_of_provides (hprovides : Provides (path, value) other) :
    (changed.getPath? other).isSome := by
  rcases hprovides with rfl | ⟨rest, rfl⟩ | ⟨rest, rfl, hrest⟩
  · rw [getPath?_setPath? h, Option.isSome_some]
  · obtain ⟨fields, hfields⟩ := exists_object_of_setPath? h
    rw [hfields, Option.isSome_some]
  · rwa [getPath?_append_of_setPath? h]

lemma getPath?_of_removes (hremoves : Removes (path, value) other) :
    changed.getPath? other = none := by
  obtain ⟨rest, rfl, hrest⟩ := hremoves
  rw [getPath?_append_of_setPath? h, hrest]

/-- An assignment that neither leaves something at a path nor removes it from there does not
concern the path. -/
lemma getPath?_of_untouched (hprovides : ¬ Provides (path, value) other)
    (hremoves : ¬ Removes (path, value) other) :
    changed.getPath? other = document.getPath? other := by
  refine getPath?_of_setPath?_of_apart h (fun heq => hprovides (Or.inl heq.symm))
    (fun rest heq => hprovides (Or.inr (Or.inl ⟨rest, heq⟩))) fun rest heq => ?_
  cases hrest : getIn (segments rest) value with
  | none => exact hremoves ⟨rest, heq, hrest⟩
  | some found =>
    exact hprovides (Or.inr (Or.inr ⟨rest, heq, by rw [hrest, Option.isSome_some]⟩))

end Assigned

/-! ## Assignments one after the other -/

/-- The document after the assignments were made one after the other; `none` when one of them is
refused. -/
def assignAll? (document : Document) (assignments : List (String × Json)) : Option Document :=
  assignments.foldlM (fun document assignment => document.setPath? assignment.1 assignment.2)
    document

lemma assignAll?_cons (document : Document) (assignment : String × Json)
    (rest : List (String × Json)) :
    document.assignAll? (assignment :: rest)
      = (document.setPath? assignment.1 assignment.2).bind fun changed =>
          changed.assignAll? rest := rfl

lemma assignAll?_append (document : Document) (earlier later : List (String × Json)) :
    document.assignAll? (earlier ++ later)
      = (document.assignAll? earlier).bind fun changed => changed.assignAll? later :=
  List.foldlM_append

/-- Whatever one of the assignments removes from the path, a later one provides again. -/
def Recovers (assignments : List (String × Json)) (path : String) : Prop :=
  ∀ before remover after, assignments = before ++ remover :: after → Removes remover path →
    ∃ provider ∈ after, Provides provider path

lemma recovers_nil (path : String) : Recovers [] path := by
  intro before remover after heq
  simp at heq

lemma recovers_cons {assignment : String × Json} :
    Recovers (assignment :: assignments) path ↔
      (Removes assignment path → ∃ provider ∈ assignments, Provides provider path)
        ∧ Recovers assignments path := by
  constructor
  · intro h
    refine ⟨h [] assignment assignments rfl, fun before remover after heq => ?_⟩
    exact h (assignment :: before) remover after (by rw [heq, List.cons_append])
  · rintro ⟨hfirst, hrest⟩ before remover after heq
    rcases List.cons_eq_append_iff.1 heq with ⟨-, heq⟩ | ⟨before, -, heq⟩
    · obtain ⟨rfl, rfl⟩ := List.cons.inj heq
      exact hfirst
    · exact hrest before remover after heq

/-- After some assignments a path shows something exactly when it did so before or one of them has
put something there, and nothing was removed from there for good. -/
lemma isSome_getPath?_of_assignAll? (h : document.assignAll? assignments = some final) :
    (final.getPath? path).isSome ↔
      ((document.getPath? path).isSome ∨ ∃ provider ∈ assignments, Provides provider path)
        ∧ Recovers assignments path := by
  induction assignments generalizing document with
  | nil =>
    obtain rfl : document = final := Option.some.inj h
    simp [recovers_nil]
  | cons assignment rest ih =>
    rw [assignAll?_cons, Option.bind_eq_some_iff] at h
    obtain ⟨changed, hset, hrest⟩ := h
    rw [ih hrest, recovers_cons, List.exists_mem_cons_iff]
    by_cases hprovides : Provides assignment path
    · have hthere := isSome_of_provides hset hprovides
      have hkeeps : ¬ Removes assignment path := fun hremoves => by
        rw [getPath?_of_removes hset hremoves] at hthere
        simp at hthere
      simp [hthere, hprovides, hkeeps]
    · by_cases hremoves : Removes assignment path
      · rw [getPath?_of_removes hset hremoves]
        simp only [Option.isSome_none, Bool.false_eq_true, false_or, hprovides, hremoves,
          forall_const]
        exact ⟨fun ⟨hlater, hrecovers⟩ => ⟨Or.inr hlater, hlater, hrecovers⟩, fun h => h.2⟩
      · rw [getPath?_of_untouched hset hprovides hremoves]
        simp [hprovides, hremoves]

end Document

namespace Mapping

open Document (segments Provides Removes Recovers)

variable {record : Record} {forced : List String} {document : Document}

/-! ## What reading a record assigns -/

/-- The assignment that reading a claim makes; `none` when the claim has no value or its way is
blocked. -/
def assignment? (record : Record) (forced : List String) (document : Document)
    (claim : String × List Rule) : Option (String × Json) := do
  let value ← claimValue? claim.2 (forced.contains claim.1) record
  let _ ← document.setPath? claim.1 value
  some (claim.1, value)

/-- The assignments that are made when the claims are read into the document in their order. -/
def assignmentsFrom (record : Record) (forced : List String) :
    Document → List (String × List Rule) → List (String × Json)
  | _, [] => []
  | document, claim :: rest =>
    (assignment? record forced document claim).toList
      ++ assignmentsFrom record forced (readClaim record forced document claim) rest

/-- Reading a claim makes its assignment, if it has one. -/
lemma assignAll?_assignment? (record : Record) (forced : List String) (document : Document)
    (claim : String × List Rule) :
    document.assignAll? (assignment? record forced document claim).toList
      = some (readClaim record forced document claim) := by
  rw [assignment?, readClaim]
  cases claimValue? claim.2 (forced.contains claim.1) record with
  | none => rfl
  | some value =>
    cases hset : document.setPath? claim.1 value with
    | none => simp [hset, Document.assignAll?]
    | some changed => simp [hset, Document.assignAll?]

lemma assignAll?_assignmentsFrom (record : Record) (forced : List String) (document : Document)
    (claims : List (String × List Rule)) :
    document.assignAll? (assignmentsFrom record forced document claims)
      = some (claims.foldl (readClaim record forced) document) := by
  induction claims generalizing document with
  | nil => rfl
  | cons claim rest ih =>
    rw [assignmentsFrom, Document.assignAll?_append, assignAll?_assignment?, Option.bind_some, ih,
      List.foldl_cons]

lemma exists_claim_of_mem_assignmentsFrom {claims : List (String × List Rule)}
    {assignment : String × Json} (h : assignment ∈ assignmentsFrom record forced document claims) :
    ∃ claim ∈ claims, claim.1 = assignment.1 := by
  induction claims generalizing document with
  | nil => simp [assignmentsFrom] at h
  | cons claim rest ih =>
    rw [assignmentsFrom, List.mem_append, Option.mem_toList] at h
    rcases h with hfirst | hrest
    · refine ⟨claim, List.mem_cons_self, ?_⟩
      simp only [assignment?, Option.bind_eq_bind, Option.bind_eq_some_iff,
        Option.some.injEq] at hfirst
      obtain ⟨value, -, changed, -, rfl⟩ := hfirst
      rfl
    · obtain ⟨other, hother, heq⟩ := ih hrest
      exact ⟨other, List.mem_cons_of_mem claim hother, heq⟩

/-- Where no later claim is in front of a path, nothing is removed from there. -/
lemma recovers_of_none_in_front {claims : List (String × List Rule)} {path : String}
    (h : ∀ claim ∈ claims, ∀ rest, path ≠ claim.1 ++ "." ++ rest) :
    Recovers (assignmentsFrom record forced document claims) path := by
  rintro before remover after heq ⟨rest, hpath, -⟩
  have hmem : remover ∈ assignmentsFrom record forced document claims := by rw [heq]; simp
  obtain ⟨claim, hclaim, hname⟩ := exists_claim_of_mem_assignmentsFrom hmem
  exact absurd (hname ▸ hpath) (h claim hclaim rest)

/-- **What becomes of an assigned claim.**  Let a claim have been assigned when its turn came.  The
later assignments, none of which is refused, make the claims of the record of what was there then.
The claim is found among them exactly when whatever one of these assignments, made in front of its
path, removes from there is provided again by a still later one; so it is found when no later claim
has a path in front of its own. -/
theorem found_iff_recovers (mapping : Mapping) (record : Record) (forced : List String)
    {earlier later : List (String × List Rule)} {claim : String} {rules : List Rule} {value : Json}
    (hclaim : mapping.toList = earlier ++ (claim, rules) :: later)
    (hvalue : claimValue? rules (forced.contains claim) record = some value)
    (hset : ((earlier.foldl (readClaim record forced) {}).setPath? claim value).isSome) :
    let reached := (earlier ++ [(claim, rules)]).foldl (readClaim record forced) {}
    let after := assignmentsFrom record forced reached later
    reached.assignAll? after = some (mapping.claimsOf record forced)
      ∧ (((mapping.claimsOf record forced).getPath? claim).isSome ↔ Recovers after claim)
      ∧ ((∀ other ∈ later, ∀ rest, claim ≠ other.1 ++ "." ++ rest) →
          ((mapping.claimsOf record forced).getPath? claim).isSome) := by
  intro reached after
  have hall : reached.assignAll? after = some (mapping.claimsOf record forced) := by
    rw [assignAll?_assignmentsFrom, claimsOf, hclaim, List.append_cons, List.foldl_append]
  obtain ⟨changed, hchanged⟩ := Option.isSome_iff_exists.1 hset
  have hreached : reached = changed := by
    simp only [reached, List.foldl_append, List.foldl_cons, List.foldl_nil, readClaim, hvalue,
      hchanged, Option.getD_some]
  have hthere : (reached.getPath? claim).isSome := by
    rw [hreached, Document.getPath?_setPath? hchanged, Option.isSome_some]
  have hfound : ((mapping.claimsOf record forced).getPath? claim).isSome
      ↔ Recovers after claim := by
    rw [Document.isSome_getPath?_of_assignAll? hall]
    simp [hthere]
  exact ⟨hall, hfound, fun hnone => hfound.2 (recovers_of_none_in_front hnone)⟩

/-- The address has no street and takes away the one that was read before it, but the name of the
street is read last and makes a street again. -/
theorem found_iff_recovers_of_street_name :
    let address : Rule := { source := .one "postalAddress", separator := some "$",
                            assign := some ["street", "locality"] }
    let street := ("address.street", [Rule.plain (.one "street")])
    let later := [("address", [address]), ("address.street.name", [.plain (.one "streetName")])]
    let mapping : Mapping := ⟨street :: later, by decide⟩
    let record : Record := ⟨[("street", .single "Main Street"), ("postalAddress", .single "Bern"),
      ("streetName", .single "Main")], by decide⟩
    let town : Json := .object [("locality", .string "Bern")]
    Removes ("address", town) "address.street"
      ∧ assignmentsFrom record [] ([street].foldl (readClaim record []) {}) later
        = [("address", town), ("address.street.name", .string "Main")]
      ∧ ((mapping.claimsOf record []).getPath? "address.street").isSome := by
  intro address street later mapping record town
  have hremoves : Removes ("address", town) "address.street" := ⟨"street", by decide, by decide⟩
  have hafter : assignmentsFrom record [] ([street].foldl (readClaim record []) {}) later
      = [("address", town), ("address.street.name", .string "Main")] := by decide
  have hrecovers :
      Recovers (assignmentsFrom record [] ([street].foldl (readClaim record []) {}) later)
        "address.street" := by
    have hname : Provides ("address.street.name", .string "Main") "address.street" :=
      Or.inr (Or.inl ⟨"name", by decide⟩)
    have hkeeps : ¬ Removes ("address.street.name", .string "Main") "address.street" := by
      rintro ⟨rest, heq, -⟩
      simpa using congrArg String.toList heq
    rw [hafter, Document.recovers_cons, Document.recovers_cons]
    exact ⟨fun _ => ⟨_, List.mem_singleton_self _, hname⟩, fun h => absurd h hkeeps,
      Document.recovers_nil _⟩
  have hclaim : mapping.toList = [] ++ street :: later := rfl
  have hvalue : claimValue? [.plain (.one "street")] false record
      = some (.string "Main Street") := by decide
  have hset : (({} : Document).setPath? "address.street" (.string "Main Street")).isSome := by
    decide
  exact ⟨hremoves, hafter,
    (found_iff_recovers mapping record [] hclaim hvalue hset).2.1.2 hrecovers⟩

/-- An address that is a text takes the place of the one that the locality was put into, and the
locality is gone. -/
theorem locality_lost_under_address :
    let mapping : Mapping := ⟨[("address.locality", [.plain (.one "l")]),
      ("address", [.plain (.one "postalAddress")])], by decide⟩
    let record : Record :=
      ⟨[("l", .single "Zurich"), ("postalAddress", .single "Main Street 1")], by decide⟩
    mapping.validate = .ok ()
      ∧ claimValue? [.plain (.one "l")] false record = some (.string "Zurich")
      ∧ (({} : Document).setPath? "address.locality" (.string "Zurich")).isSome
      ∧ (mapping.claimsOf record []).getPath? "address.locality" = none :=
  ⟨by rfl, by decide, by decide, by decide⟩

end Mapping
end EntryClaims
