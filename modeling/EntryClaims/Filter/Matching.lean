/-
# Matching an entry against the text of a filter

The text of a filter is read from the left: a conjunction, a disjunction or a negation of
filters in parentheses, or a condition `name=value` up to the next closing parenthesis.  A
condition holds when the first attribute of that name has the value; the value `*` asks only
that the attribute is there.  Names and values are compared without regard to the case of
ASCII letters.  A text that is no filter matches nothing.
-/
import EntryClaims.Entry.Record
import EntryClaims.Filter.Escape
import EntryClaims.Text.Lowercase

namespace EntryClaims
namespace Filter

/-- Whether the entry satisfies the condition that the attribute `name` has the value written
`value`. -/
def holds (entry : Record) (name value : String) : Bool :=
  match entry.toList.find? fun (stored, _) => Text.sameIgnoringCase stored name with
  | none => false
  | some (_, stored) =>
    value == "*" || stored.texts.any fun text => Text.sameIgnoringCase text (unescape value)

/-- The text after a closing parenthesis. -/
def close? : List Char → Option (List Char)
  | ')' :: rest => some rest
  | _ => none

mutual

/-- Whether the filter at the front of the text matches, and the text after it.  Each step
takes at least one character or ends a run of operands, which `fuel` bounds. -/
def matchAt (entry : Record) : (fuel : Nat) → List Char → Option (Bool × List Char)
  | 0, _ => none
  | _, [] => none
  | fuel + 1, first :: text =>
    if first ≠ '(' then none
    else
      match text with
      | '&' :: rest => do
        let (results, rest) ← matchEach entry fuel rest
        let rest ← close? rest
        some (results.all id, rest)
      | '|' :: rest => do
        let (results, rest) ← matchEach entry fuel rest
        let rest ← close? rest
        some (results.any id, rest)
      | '!' :: rest => do
        let (result, rest) ← matchAt entry fuel rest
        let rest ← close? rest
        some (!result, rest)
      | _ => do
        let (condition, rest) ← Text.cutOnce ')' text
        let (name, value) ← Text.cutOnce '=' condition
        some (holds entry (String.ofList name) (String.ofList value), rest)

/-- Whether each of the filters at the front of the text matches, and the text after them. -/
def matchEach (entry : Record) : (fuel : Nat) → List Char → Option (List Bool × List Char)
  | 0, _ => none
  | fuel + 1, text =>
    match text with
    | '(' :: _ => do
      let (result, rest) ← matchAt entry fuel text
      let (results, rest) ← matchEach entry fuel rest
      some (result :: results, rest)
    | _ => some ([], text)

end

/-- Whether the entry matches the filter with the given text; what follows the filter is not
read. -/
def accepts (text : String) (entry : Record) : Bool :=
  let chars := text.toList
  ((matchAt entry (2 * chars.length + 2) chars).map Prod.fst).getD false

end Filter
end EntryClaims
