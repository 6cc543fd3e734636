/-
# Binary64 numbers in exact arithmetic

A finite binary64 number is a sign, a significand below `2 ^ 53` and a power of two.  The
operations a decimal reader needs are rounding a ratio of natural numbers, multiplying and
dividing; each is the exact result rounded once, to the nearest number and to the even
significand when two are equally near.  Everything is computed on natural numbers, so a
number's value is open to proof and to the printer of shortest digits.
-/

namespace EntryClaims

/-- A finite binary64 number, `± significand · 2 ^ exponent`.  The significand has 53 binary
digits, or fewer at the smallest exponent. -/
structure Binary64 where
  /-- Whether the number carries a minus sign; a zero may. -/
  negative : Bool
  /-- The significand, below `2 ^ 53`. -/
  significand : Nat
  /-- The power of two, from `-1074` to `971`. -/
  exponent : Int
deriving DecidableEq, Repr, Inhabited

namespace Binary64

/-- The power `2 ^ k`. -/
def twoPow (k : Nat) : Nat := Nat.pow 2 k

/-- The power `10 ^ k`. -/
def tenPow (k : Nat) : Nat := Nat.pow 10 k

/-- The smallest power of two. -/
def minExponent : Int := -1074

/-- The largest power of two. -/
def maxExponent : Int := 971

/-- Positive zero. -/
def zero : Binary64 := ⟨false, 0, minExponent⟩

/-- The same number with the other sign. -/
def neg (x : Binary64) : Binary64 := { x with negative := !x.negative }

/-- Whether two numbers have the same value; the two zeros do. -/
def sameValue (x y : Binary64) : Bool :=
  x.significand == y.significand && x.exponent == y.exponent
    && (x.negative == y.negative || x.significand == 0)

/-- The quotient `num / den` rounded to the nearest natural number, a tie going to the even
one. -/
def roundDiv (num den : Nat) : Nat :=
  let quotient := num / den
  let twice := 2 * (num % den)
  if twice < den then quotient
  else if den < twice then quotient + 1
  else quotient + quotient % 2

/-- The numerator and denominator of `num / den · 2 ^ exponent`. -/
def scaleBinary (num den : Nat) (exponent : Int) : Nat × Nat :=
  if 0 ≤ exponent then (num * twoPow exponent.toNat, den) else (num, den * twoPow (-exponent).toNat)

/-- The power of two that `num / den` reaches but not its double; both are positive. -/
def binaryOrder (num den : Nat) : Int :=
  let guess : Int := (Nat.log2 num : Int) - Nat.log2 den
  let (n, d) := scaleBinary num den (-guess)
  if d ≤ n then guess else guess - 1

/-- The number nearest to `num / den`, for a positive `den`; `none` when it is too large. -/
def ofRatio (num den : Nat) : Option Binary64 :=
  if num = 0 then some zero
  else
    let exponent := max minExponent (binaryOrder num den - 52)
    let (n, d) := scaleBinary num den (-exponent)
    let rounded := roundDiv n d
    let (significand, exponent) :=
      if rounded = twoPow 53 then (twoPow 52, exponent + 1) else (rounded, exponent)
    if maxExponent < exponent then none else some ⟨false, significand, exponent⟩

/-- The number nearest to a natural number. -/
def ofNat (n : Nat) : Option Binary64 := ofRatio n 1

/-- The product of two magnitudes; `none` when it is too large. -/
def mulAbs (x y : Binary64) : Option Binary64 :=
  let (n, d) := scaleBinary (x.significand * y.significand) 1 (x.exponent + y.exponent)
  ofRatio n d

/-- The quotient of two magnitudes, the second one positive; `none` when it is too large. -/
def divAbs (x y : Binary64) : Option Binary64 :=
  let (n, d) := scaleBinary x.significand y.significand (x.exponent - y.exponent)
  ofRatio n d

/-! ## Decimal scaling -/

/-- The largest power of ten by which a reader scales in one step. -/
def maxScale : Nat := 308

/-- Scale `x` by `10 ^ exponent`, one power of ten at a time: a factor up to `10 ^ 308` is
taken as the binary64 number nearest to it.  A larger exponent is out of range, and a smaller
one divides by `10 ^ 308` first, at most `steps` times, which leaves zero soon.  The result is
`none` when the number is too large. -/
def scaleDecimal : (steps : Nat) → (x : Binary64) → (exponent : Int) → Option Binary64
  | steps, x, exponent =>
    if exponent.natAbs ≤ maxScale then do
      let power ← ofNat (tenPow exponent.natAbs)
      if 0 ≤ exponent then mulAbs x power else divAbs x power
    else if x.significand = 0 then some x
    else if 0 ≤ exponent then none
    else
      match steps with
      | 0 => some zero
      | steps + 1 => do
        let power ← ofNat (tenPow maxScale)
        let smaller ← divAbs x power
        scaleDecimal steps smaller (exponent + maxScale)

/-- The number written `significand · 10 ^ exponent`, for a significand of 64 bits: the
significand is rounded first and then scaled.  Two divisions by `10 ^ 308` bring any such
significand to zero. -/
def ofDecimal (significand : Nat) (exponent : Int) : Option Binary64 := do
  let x ← ofNat significand
  scaleDecimal 3 x exponent

end Binary64
end EntryClaims
