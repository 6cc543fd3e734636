/-
# Lower case

The lower-case form of a text replaces every capital letter by its small letter.  Two
letters need more than a table: the dotted capital I becomes a small i followed by a
combining dot, and a capital sigma becomes the final form when it ends a word, that is when
a cased letter stands before it and none after it, case-ignorable characters not counting.
-/
import EntryClaims.Text.LowercaseTable
import EntryClaims.Text.CaseProperties

namespace EntryClaims
namespace Text

/-- The small letter of a character that has a single one; other characters are kept. -/
def lowerChar (c : Char) : Char :=
  match caseRuns.find? fun run => run.lists c.toNat with
  | some run => Char.ofNat (Int.toNat (c.toNat + run.offset))
  | none => c

/-- Whether the first character that is not case-ignorable is cased. -/
def casedAhead (text : List Char) : Bool :=
  match text.dropWhile (inRanges caseIgnorableRanges) with
  | [] => false
  | c :: _ => inRanges casedRanges c

/-- The lower-case form of `text`; `before` holds the characters in front of it, the nearest
first. -/
def lowerAfter (before : List Char) : (text : List Char) → List Char
  | [] => []
  | c :: cs =>
    let small :=
      if c = 'Σ' then [if casedAhead before && !casedAhead cs then 'ς' else 'σ']
      else if c = 'İ' then ['i', '\u0307']
      else [lowerChar c]
    small ++ lowerAfter (c :: before) cs

/-- The lower-case form of a string. -/
def lowercase (text : String) : String :=
  String.ofList (lowerAfter [] text.toList)

/-! ## The ASCII letters alone -/

/-- Whether two texts are equal when the case of ASCII letters is ignored. -/
def sameIgnoringCase (left right : String) : Bool :=
  left.toList.map Char.toLower == right.toList.map Char.toLower

end Text
end EntryClaims
