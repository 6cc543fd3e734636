/-
# Filter trees and their text

A search filter is a tree of texts.  A list whose first node is the text `&`, `|` or `!` is
that operator applied to the nodes after it; a list that begins with another list stands for
that inner list, and a list that begins with any other text stands for that text, a condition
such as `uid=bob`.

Every tree has a text.  What says nothing, such as an empty condition, an empty list or an
operator without operands, is dropped where it stands, so the text of a tree may be empty.
-/
import EntryClaims.Filter.Escape
import EntryClaims.Json.Value

namespace EntryClaims

/-- A filter tree. -/
inductive Filter where
  /-- A condition, or the name of an operator. -/
  | literal (text : String)
  /-- An operator with its operands, or a nested tree. -/
  | list (nodes : List Filter)
deriving Repr, Inhabited

namespace Filter

/-- Whether a text names the conjunction or the disjunction. -/
def isJoin (text : String) : Bool := text == "&" || text == "|"

/-- Whether a text names the negation. -/
def isNegation (text : String) : Bool := text == "!"

/-! ## Building trees -/

/-- The condition that an attribute has the given value. -/
def equality (name value : String) : Filter := .literal (name ++ "=" ++ escape value)

/-- The conjunction of the operands. -/
def all (operands : List Filter) : Filter := .list (.literal "&" :: operands)

/-- The disjunction of the operands. -/
def any (operands : List Filter) : Filter := .list (.literal "|" :: operands)

/-- The negation of the operand. -/
def not (operand : Filter) : Filter := .list [.literal "!", operand]

/-- The tree with operands put at its end.  A text becomes the first node of a list. -/
def append (filter : Filter) (operands : List Filter) : Filter :=
  match filter with
  | .literal text => .list (.literal text :: operands)
  | .list nodes => .list (nodes ++ operands)

/-- Whether the tree is an empty text or an empty list. -/
def isEmpty : Filter → Bool
  | .literal text => text.isEmpty
  | .list nodes => nodes.isEmpty

/-! ## The text of a tree -/

/-- The text between parentheses. -/
def parenthesize (text : String) : String := "(" ++ text ++ ")"

/-- The text of a join of operands with the given texts.  A single operand stands alone. -/
def joinText (operator : String) (operands : List String) : String :=
  match operands.filter (!·.isEmpty) with
  | [] => ""
  | [operand] => operand
  | operands => parenthesize (operator ++ String.join operands)

/-- The text of a negation; only the first operand counts. -/
def negationText (operands : List String) : String :=
  match operands with
  | [] => ""
  | operand :: _ => if operand.isEmpty then "" else parenthesize ("!" ++ operand)

/-- The text of a list that begins with `head`, followed by nodes with the given texts. -/
def headedText (head : String) (operands : List String) : String :=
  if isJoin head then joinText head operands
  else if isNegation head then negationText operands
  else if head.isEmpty then ""
  else parenthesize head

mutual

/-- The text of a tree. -/
def render : Filter → String
  | .literal text => headedText text []
  | .list nodes => renderList nodes

/-- The text of a list. -/
def renderList : List Filter → String
  | [] => ""
  | .literal head :: operands => headedText head (renderEach operands)
  | .list nodes :: _ => renderList nodes

/-- The texts of the nodes. -/
def renderEach : List Filter → List String
  | [] => []
  | node :: rest => render node :: renderEach rest

end

/-- The text of a filter that may be absent. -/
def renderOptional (filter : Option Filter) : String := (filter.map render).getD ""

/-! ## JSON form -/

mutual

/-- Read the JSON form: a string, or an array of trees. -/
def ofJson? : Json → Option Filter
  | .string text => some (.literal text)
  | .array items => (listOfJson? items).map .list
  | _ => none

/-- Read the trees of an array. -/
def listOfJson? : List Json → Option (List Filter)
  | [] => some []
  | item :: rest => do
    let node ← ofJson? item
    let nodes ← listOfJson? rest
    some (node :: nodes)

end

mutual

/-- The JSON form. -/
def toJson : Filter → Json
  | .literal text => .string text
  | .list nodes => .array (listToJson nodes)

/-- The JSON forms of the nodes. -/
def listToJson : List Filter → List Json
  | [] => []
  | node :: rest => toJson node :: listToJson rest

end

end Filter
end EntryClaims
