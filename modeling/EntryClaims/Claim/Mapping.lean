/-
# Mappings between records and claim documents

A mapping lists, for each claim path, the rules the claim may be read through, tried in
order.  Reading a record takes, for each claim, the first rule whose attribute carries data;
writing a document sends each claim through its first rule to the root of its attribute, and
claims that share an attribute are collected into one list of values.
-/
import EntryClaims.Claim.Chain
import EntryClaims.Claim.Document
import EntryClaims.Directory.Error
import EntryClaims.Entry.Synonyms
import EntryClaims.Entry.ValueSet

namespace EntryClaims

/-- The rules for each claim path, in order. -/
abbrev Mapping := OrderedMap (List Rule)

namespace Mapping

/-- The rules for a claim path; none when the claim is not mapped. -/
def rules (mapping : Mapping) (claim : String) : List Rule := (mapping.get? claim).getD []

/-! ## Validity -/

/-- What is wrong with a claim path: it is empty, or one of its names is. -/
def pathProblem? (claim : String) : Option Error :=
  if claim.isEmpty || (Document.segments claim).any String.isEmpty then
    some (.invalidMapping ("malformed claim path '" ++ claim ++ "'"))
  else none

/-- What is wrong with a rule: it names no attribute, names an empty one, or assigns parts
without splitting. -/
def ruleProblem? (claim : String) (rule : Rule) : Option Error :=
  if rule.source.names.isEmpty || rule.source.names.any String.isEmpty then
    some (.invalidMapping ("claim '" ++ claim ++ "' has an empty attribute name"))
  else if rule.assign.isSome && rule.separator.isNone then
    some (.invalidMapping ("claim '" ++ claim ++ "' uses assign without separator"))
  else none

/-- The first thing that is wrong with a claim. -/
def claimProblem? (claim : String) (rules : List Rule) : Option Error :=
  (pathProblem? claim).or (rules.findSome? (ruleProblem? claim))

/-- Check that every claim has a proper path and proper rules.  A claim without rules is
allowed; it is never mapped. -/
def validate (mapping : Mapping) : Except Error Unit :=
  match mapping.toList.findSome? fun (claim, rules) => claimProblem? claim rules with
  | none => .ok ()
  | some problem => .error problem

/-! ## From records to claims -/

/-- The first rule whose attribute carries data, with the name that does. -/
def chosen? (rules : List Rule) (record : Record) : Option (Rule × String) :=
  rules.findSome? fun rule => (rule.source.firstWithData? record).map fun name => (rule, name)

/-- The value of a claim; `forced` asks for an array. -/
def claimValue? (rules : List Rule) (forced : Bool) (record : Record) : Option Json := do
  let (rule, name) ← chosen? rules record
  let stored ← record.get? name
  let value ← rule.read? stored.toClaim
  some (if forced then Step.toArray value else value)

/-- The document with one more claim.  A claim without a value is left out, and so is one
whose way is blocked. -/
def readClaim (record : Record) (forced : List String) (document : Document)
    (claim : String × List Rule) : Document :=
  match claimValue? claim.2 (forced.contains claim.1) record with
  | none => document
  | some value => (document.setPath? claim.1 value).getD document

/-- The claims that a record shows.  The claims in `forced` come out as arrays. -/
def claimsOf (mapping : Mapping) (record : Record) (forced : List String) : Document :=
  mapping.toList.foldl (readClaim record forced) {}

/-! ## From claims to records -/

/-- Whether a claim counts as missing: it is null or the empty string. -/
def isBlank : Json → Bool
  | .null => true
  | .string s => s.isEmpty
  | _ => false

/-- What a claim contributes to a record: an attribute and its value. -/
def contribution? (document : Document) (claim : String) (rules : List Rule) :
    Option (String × AttributeValue) := do
  let rule ← rules.head?
  let value ← (document.getPath? claim).filter (!isBlank ·)
  let written ← rule.write? value
  let stored ← AttributeValue.ofClaim? written
  let target ← rule.source.root?
  some (target, stored)

/-- The record with one more contribution.  Values for an attribute that is there are
collected into one list, those already in it left out. -/
def collect (record : Record) (contribution : String × AttributeValue) : Record :=
  match record.get? contribution.1 with
  | none => record.insert contribution.1 contribution.2
  | some earlier =>
    record.insert contribution.1
      (.multi (ValueSet.addAll earlier.texts contribution.2.texts))

/-- The record that stores the claims. -/
def recordOf (mapping : Mapping) (document : Document) : Record :=
  (mapping.toList.filterMap fun (claim, rules) => contribution? document claim rules).foldl
    collect OrderedMap.empty

/-! ## Synonyms -/

/-- The families of all rules whose attribute is given by synonyms, in the order of the
claims. -/
def families (mapping : Mapping) : List (List String) :=
  mapping.toList.flatMap fun (_, rules) =>
    rules.filterMap fun rule =>
      match rule.source with
      | .one _ => none
      | .synonyms names => some names

/-- The table of all synonym families in a mapping. -/
def synonyms (mapping : Mapping) : SynonymTable :=
  mapping.families.foldl SynonymTable.register OrderedMap.empty

end Mapping
end EntryClaims
