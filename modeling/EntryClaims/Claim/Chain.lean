/-
# Chains: the steps of a rule one after the other

Reading a value runs the steps of a rule from the directory to the claim: replace, split and
assign or parse, select a label, lower-case, append the suffix, force an array.  Writing runs
the steps that can be undone in the opposite order; lower-casing and forcing an array cannot.
A step that yields nothing ends the chain.
-/
import EntryClaims.Claim.Rule
import EntryClaims.Claim.Step

namespace EntryClaims
namespace Rule

/-- Apply a step when its option is set. -/
def whenSet {α : Type} (option : Option α) (step : α → Json → Json) (value : Json) : Json :=
  match option with
  | none => value
  | some x => step x value

/-- Apply a step that may yield nothing when its option is set. -/
def whenSet? {α : Type} (option : Option α) (step : α → Json → Option Json) (value : Json) :
    Option Json :=
  match option with
  | none => some value
  | some x => step x value

/-- Take a value apart: split it and assign the parts, or else read it as JSON text. -/
def unpack? (rule : Rule) (value : Json) : Option Json :=
  match nonEmpty? rule.separator with
  | some separator => some (whenSet rule.assign Step.assign (Step.split separator value))
  | none => if rule.json then (Step.parse? value).bind Json.present? else some value

/-- Put a value together: collect the assigned parts and join them, or else write it as JSON
text. -/
def pack? (rule : Rule) (value : Json) : Option Json :=
  match nonEmpty? rule.separator with
  | some separator => Step.join? separator (whenSet rule.assign Step.unassign value)
  | none => if rule.json then Step.serialize? value else some value

/-- The claim value for a directory value. -/
def read? (rule : Rule) (value : Json) : Option Json := do
  let value ← value.present?
  let value ← rule.unpack? (whenSet rule.replace Step.replace value)
  let value ← whenSet? (nonEmpty? rule.label) Step.selectLabel? value
  let value := if rule.lowercase then Step.lowercase value else value
  let value := whenSet (nonEmpty? rule.suffix) Step.appendSuffix value
  some (if rule.array then Step.toArray value else value)

/-- The directory value for a claim value. -/
def write? (rule : Rule) (value : Json) : Option Json := do
  let value ← value.present?
  let value := whenSet (nonEmpty? rule.suffix) Step.stripSuffix value
  let value ← whenSet? (nonEmpty? rule.label) Step.attachLabel? value
  let value ← rule.pack? value
  some (whenSet rule.replace Step.unreplace value)

end Rule
end EntryClaims
