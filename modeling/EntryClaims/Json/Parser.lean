/-
# Reading JSON text

The reader is strict: no commas before a closing bracket, no comments, no leading zeros, no
raw control characters in strings and no surrogate escape without its partner.  At most 127
arrays and objects may be nested.

A number without fraction and exponent is an integer as long as it fits in 64 bits, except
minus zero.  All other numbers are floating-point: their digits are collected into a 64-bit
significand, those that no longer fit only count for the exponent, and the significand is
then scaled by a power of ten.  A number too large for binary64 is an error.
-/
import EntryClaims.Json.Value

namespace EntryClaims
namespace Json

/-- What is left of the text after something was read. -/
abbrev Rest := List Char

/-! ## Numbers -/

/-- The value of a decimal digit. -/
def digit? (c : Char) : Option Nat :=
  if c.isDigit then some (c.toNat - '0'.toNat) else none

/-- Collect digits into a significand as long as it stays within 64 bits.  The result is the
significand and what follows; that begins with a digit when the significand is full. -/
def takeDigits (significand : Nat) : List Char → Nat × Rest
  | [] => (significand, [])
  | c :: cs =>
    match digit? c with
    | none => (significand, c :: cs)
    | some d =>
      let grown := significand * 10 + d
      if Number.maxInteger < grown then (significand, c :: cs) else takeDigits grown cs

/-- The digits at the front: their number, and what follows. -/
def skipDigits (text : List Char) : Nat × Rest :=
  ((text.takeWhile Char.isDigit).length, text.dropWhile Char.isDigit)

/-- The exponent after its letter: an optional sign and at least one digit. -/
def readExponent (text : List Char) : Option (Int × Rest) :=
  let (negative, text) :=
    match text with
    | '+' :: rest => (false, rest)
    | '-' :: rest => (true, rest)
    | _ => (false, text)
  let digits := text.takeWhile Char.isDigit
  if digits.isEmpty then none
  else
    let size : Nat := digits.foldl (fun n c => n * 10 + (c.toNat - '0'.toNat)) 0
    some (if negative then -(size : Int) else size, text.dropWhile Char.isDigit)

/-- A floating-point number with its sign. -/
def signed (negative : Bool) (x : Binary64) : Number := .float (if negative then x.neg else x)

/-- A floating-point number from its significand and exponent, an exponent part of the text
still to come. -/
def readScale (negative : Bool) (significand : Nat) (scale : Int) (text : List Char) :
    Option (Number × Rest) :=
  match text with
  | 'e' :: rest | 'E' :: rest => do
    let (exponent, rest) ← readExponent rest
    let x ← Binary64.ofDecimal significand (scale + exponent)
    some (signed negative x, rest)
  | _ => do
    let x ← Binary64.ofDecimal significand scale
    some (signed negative x, text)

/-- The digits after the point, at least one. -/
def readFraction (negative : Bool) (significand : Nat) (scale : Int) (text : List Char) :
    Option (Number × Rest) :=
  if (text.takeWhile Char.isDigit).isEmpty then none
  else
    let (grown, rest) := takeDigits significand text
    let used := text.length - rest.length
    readScale negative grown (scale - used) (rest.dropWhile Char.isDigit)

/-- A number after its sign. -/
def readMagnitude (negative : Bool) (text : List Char) : Option (Number × Rest) :=
  match text with
  | [] => none
  | c :: rest =>
    if !c.isDigit then none
    else if c = '0' ∧ (rest.head?.any Char.isDigit) then none
    else
      let (significand, rest) := takeDigits 0 text
      let (dropped, rest) := skipDigits rest
      match rest with
      | '.' :: after => readFraction negative significand dropped after
      | 'e' :: _ | 'E' :: _ => readScale negative significand dropped rest
      | _ =>
        if dropped ≠ 0 then readScale negative significand dropped rest
        else if !negative then some (.integer significand, rest)
        else if significand ≠ 0 ∧ significand ≤ Number.minMagnitude then
          some (.integer (-(significand : Int)), rest)
        else readScale negative significand 0 rest

/-- A number. -/
def readNumber : List Char → Option (Number × Rest)
  | '-' :: rest => readMagnitude true rest
  | text => readMagnitude false text

/-! ## Strings -/

/-- The value of a hexadecimal digit. -/
def hexValue? (c : Char) : Option Nat :=
  if c.isDigit then some (c.toNat - '0'.toNat)
  else if 'a' ≤ c ∧ c ≤ 'f' then some (c.toNat - 'a'.toNat + 10)
  else if 'A' ≤ c ∧ c ≤ 'F' then some (c.toNat - 'A'.toNat + 10)
  else none

/-- Four hexadecimal digits. -/
def hexUnit? (a b c d : Char) : Option Nat := do
  let a ← hexValue? a
  let b ← hexValue? b
  let c ← hexValue? c
  let d ← hexValue? d
  some (((a * 16 + b) * 16 + c) * 16 + d)

/-- The character of a simple escape. -/
def escaped? : Char → Option Char
  | '"' => some '"'
  | '\\' => some '\\'
  | '/' => some '/'
  | 'b' => some '\x08'
  | 'f' => some '\x0c'
  | 'n' => some '\n'
  | 'r' => some '\r'
  | 't' => some '\t'
  | _ => none

/-- The characters of a string up to its closing quote, the opening one being read. -/
def readString : List Char → Option (List Char × Rest)
  | [] => none
  | '"' :: rest => some ([], rest)
  | '\\' :: 'u' :: a :: b :: c :: d :: rest => do
    let unit ← hexUnit? a b c d
    if 0xD800 ≤ unit ∧ unit < 0xDC00 then
      match rest with
      | '\\' :: 'u' :: a' :: b' :: c' :: d' :: rest' => do
        let low ← hexUnit? a' b' c' d'
        if 0xDC00 ≤ low ∧ low < 0xE000 then
          let (chars, rest'') ← readString rest'
          some (Char.ofNat (0x10000 + (unit - 0xD800) * 0x400 + (low - 0xDC00)) :: chars, rest'')
        else none
      | _ => none
    else if 0xDC00 ≤ unit ∧ unit < 0xE000 then none
    else do
      let (chars, rest') ← readString rest
      some (Char.ofNat unit :: chars, rest')
  | '\\' :: c :: rest => do
    let c ← escaped? c
    let (chars, rest') ← readString rest
    some (c :: chars, rest')
  | c :: rest =>
    if c = '\\' ∨ c.toNat < 32 then none
    else do
      let (chars, rest') ← readString rest
      some (c :: chars, rest')

/-! ## Values -/

/-- Blanks between tokens. -/
def isBlank (c : Char) : Bool := c == ' ' || c == '\n' || c == '\t' || c == '\r'

/-- The text without blanks at the front. -/
def skipBlanks (text : List Char) : List Char := text.dropWhile isBlank

/-- What follows `word` at the front of the text. -/
def after? (word : String) (text : List Char) : Option Rest :=
  if word.toList.isPrefixOf text then some (text.drop word.toList.length) else none

mutual

/-- A value at the front of the text, blanks before it skipped.  `room` is how many more
arrays and objects may be opened, `fuel` bounds the number of steps. -/
def readValue : (fuel room : Nat) → List Char → Option (Json × Rest)
  | 0, _, _ => none
  | fuel + 1, room, text =>
    match skipBlanks text with
    | [] => none
    | '"' :: rest => do
      let (chars, rest) ← readString rest
      some (.string (String.ofList chars), rest)
    | '[' :: rest =>
      match room with
      | 0 => none
      | room + 1 =>
        match skipBlanks rest with
        | ']' :: rest => some (.array [], rest)
        | _ => do
          let (items, rest) ← readItems fuel room rest
          some (.array items, rest)
    | '{' :: rest =>
      match room with
      | 0 => none
      | room + 1 =>
        match skipBlanks rest with
        | '}' :: rest => some (.object [], rest)
        | _ => do
          let (fields, rest) ← readFields fuel room rest
          some (.object fields, rest)
    | text =>
      match after? "null" text, after? "true" text, after? "false" text with
      | some rest, _, _ => some (.null, rest)
      | _, some rest, _ => some (.bool true, rest)
      | _, _, some rest => some (.bool false, rest)
      | none, none, none => do
        let (n, rest) ← readNumber text
        some (.number n, rest)

/-- The items of an array up to its closing bracket; there is at least one. -/
def readItems : (fuel room : Nat) → List Char → Option (List Json × Rest)
  | 0, _, _ => none
  | fuel + 1, room, text => do
    let (item, rest) ← readValue fuel room text
    match skipBlanks rest with
    | ']' :: rest => some ([item], rest)
    | ',' :: rest => do
      let (items, rest) ← readItems fuel room rest
      some (item :: items, rest)
    | _ => none

/-- The fields of an object up to its closing bracket; there is at least one. -/
def readFields : (fuel room : Nat) → List Char → Option (Fields × Rest)
  | 0, _, _ => none
  | fuel + 1, room, text =>
    match skipBlanks text with
    | '"' :: rest => do
      let (key, rest) ← readString rest
      match skipBlanks rest with
      | ':' :: rest => do
        let (value, rest) ← readValue fuel room rest
        let field := (String.ofList key, value)
        match skipBlanks rest with
        | '}' :: rest => some ([field], rest)
        | ',' :: rest => do
          let (fields, rest) ← readFields fuel room rest
          some (field :: fields, rest)
        | _ => none
      | _ => none
    | _ => none

end

/-- How many arrays and objects may be nested. -/
def maxNesting : Nat := 127

/-- Read a text as one JSON value, repeated keys of an object being kept.  An item or field
takes two steps and at least one character, which bounds the steps. -/
def parseFields? (text : String) : Option Json := do
  let chars := text.toList
  let (value, rest) ← readValue (2 * chars.length + 2) maxNesting chars
  if (skipBlanks rest).isEmpty then some value else none

/-- Read a text as one JSON value.  A repeated key keeps its first place and takes its last
value. -/
def parse? (text : String) : Option Json := (parseFields? text).map collapse

end Json
end EntryClaims
