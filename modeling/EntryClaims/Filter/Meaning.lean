/-
# What a filter tree says about an entry

A tree can be read without its text.  A condition says whether it holds of the entry, a
conjunction and a disjunction combine what their operands say, and a negation says the opposite
of its first operand.  A tree whose text is empty says nothing: so do an empty condition, an
empty list, an operator without operands, and an operator whose operands say nothing.
-/
import EntryClaims.Filter.Matching
import EntryClaims.Filter.Tree

namespace EntryClaims
namespace Filter

/-- Whether a condition `name=value` holds of the entry. -/
def conditionHolds (entry : Record) (condition : String) : Bool :=
  match Text.cutOnce '=' condition.toList with
  | none => false
  | some (name, value) => holds entry (String.ofList name) (String.ofList value)

/-- What the operands of a join say together: nothing if none of them says anything. -/
def joinMeaning (combine : List Bool → Bool) (operands : List (Option Bool)) : Option Bool :=
  match operands.filterMap id with
  | [] => none
  | said => some (combine said)

/-- What a list says that begins with the text `head`, given what the nodes after it say. -/
def headedMeaning (entry : Record) (head : String) (operands : List (Option Bool)) :
    Option Bool :=
  if head = "&" then joinMeaning (fun said => said.all id) operands
  else if head = "|" then joinMeaning (fun said => said.any id) operands
  else if head = "!" then operands.head?.join.map (!·)
  else if head.isEmpty then none
  else some (conditionHolds entry head)

mutual

/-- What a tree says about the entry; none when it says nothing. -/
def meaning (entry : Record) : Filter → Option Bool
  | .literal text => headedMeaning entry text []
  | .list nodes => listMeaning entry nodes

/-- What a list says. -/
def listMeaning (entry : Record) : List Filter → Option Bool
  | [] => none
  | .literal head :: operands => headedMeaning entry head (eachMeaning entry operands)
  | .list nodes :: _ => listMeaning entry nodes

/-- What each of the nodes says. -/
def eachMeaning (entry : Record) : List Filter → List (Option Bool)
  | [] => []
  | node :: rest => meaning entry node :: eachMeaning entry rest

end

@[simp] theorem eachMeaning_eq_map (entry : Record) (nodes : List Filter) :
    eachMeaning entry nodes = nodes.map (meaning entry) := by
  induction nodes with
  | nil => simp [eachMeaning]
  | cons node rest ih => simp [eachMeaning, ih]

@[simp] theorem renderEach_eq_map (nodes : List Filter) :
    renderEach nodes = nodes.map render := by
  induction nodes with
  | nil => simp [renderEach]
  | cons node rest ih => simp [renderEach, ih]

theorem meaning_all (entry : Record) (operands : List Filter) :
    meaning entry (all operands)
      = joinMeaning (fun said => said.all id) (operands.map (meaning entry)) := by
  simp [all, meaning, listMeaning, headedMeaning]

theorem meaning_any (entry : Record) (operands : List Filter) :
    meaning entry (any operands)
      = joinMeaning (fun said => said.any id) (operands.map (meaning entry)) := by
  simp [any, meaning, listMeaning, headedMeaning]

theorem meaning_not (entry : Record) (operand : Filter) :
    meaning entry (not operand) = (meaning entry operand).map (!·) := by
  simp [not, meaning, listMeaning, headedMeaning]

end Filter
end EntryClaims
