/-
# Reading distinguished names

The text of a name is read character by character, up to the comma that ends its first part.  A
backslash escapes what follows it: two hexadecimal digits stand for the character with that code,
and a character that has a meaning of its own in a name stands for itself.  All other characters
stand for themselves.
-/
import EntryClaims.Directory.Name
import EntryClaims.Json.Parser

namespace EntryClaims
namespace DN

/-- The characters that have a meaning of their own wherever they stand in a name. -/
def reserved : List Char := ['"', '+', ',', ';', '<', '=', '>', '\\']

/-- The characters that a backslash may stand in front of. -/
def escapable : List Char := ' ' :: '#' :: reserved

/-- A character of a name, and whether it was escaped. -/
structure Symbol where
  /-- The character. -/
  char : Char
  /-- Whether it was escaped. -/
  escaped : Bool
deriving DecidableEq, Repr

/-- A character that stands for itself. -/
def plain (c : Char) : Symbol := ⟨c, false⟩

/-- The character written by two hexadecimal digits. -/
def hexChar? (high low : Char) : Option Char := do
  let high ← Json.hexValue? high
  let low ← Json.hexValue? low
  some (Char.ofNat (high * 16 + low))

/-- The first part of a name. -/
structure Part where
  /-- What the part was read as. -/
  symbols : List Symbol
  /-- The text behind the comma that ends the part; none when the text ends without one. -/
  behind : Option (List Char)
deriving DecidableEq, Repr

/-- The part with symbols in front. -/
def Part.prepend (symbols : List Symbol) (part : Part) : Part :=
  { part with symbols := symbols ++ part.symbols }

/-- Read a text up to the first comma that is not escaped; none where a backslash escapes
nothing. -/
def readPart? : List Char → Option Part
  | [] => some ⟨[], none⟩
  | c :: rest =>
    if c = '\\' then
      match rest with
      | [] => none
      | a :: rest =>
        if a ∈ escapable then (readPart? rest).map (.prepend [⟨a, true⟩])
        else
          match rest with
          | [] => none
          | b :: rest => do
            let c ← hexChar? a b
            (readPart? rest).map (.prepend [⟨c, true⟩])
    else if c = ',' then some ⟨[], some rest⟩
    else (readPart? rest).map (.prepend [plain c])

section Reading

variable {a b c : Char} (rest : List Char)

theorem readPart?_comma : readPart? (',' :: rest) = some ⟨[], some rest⟩ := by
  rw [readPart?.eq_def]
  simp

theorem readPart?_plain (hescape : c ≠ '\\') (hcomma : c ≠ ',') :
    readPart? (c :: rest) = (readPart? rest).map (.prepend [plain c]) := by
  rw [readPart?.eq_def]
  simp only [if_neg hescape, if_neg hcomma]

theorem readPart?_pair (h : c ∈ escapable) :
    readPart? ('\\' :: c :: rest) = (readPart? rest).map (.prepend [⟨c, true⟩]) := by
  rw [readPart?.eq_def]
  simp only [if_pos h, ↓reduceIte]

theorem readPart?_digits (h : a ∉ escapable) (hdigits : hexChar? a b = some c) :
    readPart? ('\\' :: a :: b :: rest) = (readPart? rest).map (.prepend [⟨c, true⟩]) := by
  rw [readPart?.eq_def]
  simp only [if_neg h, hdigits, Option.bind_eq_bind, Option.bind_some, ↓reduceIte]

end Reading

/-- The text that the symbols stand for. -/
def textOf (symbols : List Symbol) : String := String.ofList (symbols.map Symbol.char)

/-- Symbols that mean nothing but the text they stand for: no character that has a meaning of its
own is left unescaped, and no null character, and none that has a meaning at the border of a
value is left unescaped there. -/
structure Sealed (symbols : List Symbol) : Prop where
  /-- Reserved characters and the null character are escaped. -/
  escaped_of_reserved : ∀ symbol ∈ symbols,
    symbol.char ∈ '\x00' :: reserved → symbol.escaped = true
  /-- A blank or a number sign at the front is escaped. -/
  escaped_of_head : ∀ symbol ∈ symbols.head?, symbol.char ∈ [' ', '#'] → symbol.escaped = true
  /-- A blank at the end is escaped. -/
  escaped_of_last : ∀ symbol ∈ symbols.getLast?, symbol.char = ' ' → symbol.escaped = true

end DN
end EntryClaims
