/-
# Shortest decimal digits

The text of a binary64 number has the fewest digits that read back as the same number, and
among those the digits nearest to its value.  For each count of digits the two neighbours of
the value on that decimal grid are tried: the first grid with a neighbour that reads back
wins, of two such neighbours the nearer, and of two equally near the even one.

The written form is positional for decimal exponents from `-5` to `15`, always with a
fractional part; other exponents are written with a sign.
-/
import EntryClaims.Decimal.Binary64

namespace EntryClaims
namespace Binary64

/-- The numerator and denominator of `num / den · 10 ^ exponent`. -/
def scaleTen (num den : Nat) (exponent : Int) : Nat × Nat :=
  if 0 ≤ exponent then (num * tenPow exponent.toNat, den)
  else (num, den * tenPow (-exponent).toNat)

/-- The largest `k` up to `start` with `10 ^ k ≤ num / den`, looked for at most `fuel` steps
downwards. -/
def decimalOrderFrom (num den : Nat) : (fuel : Nat) → (start : Int) → Int
  | 0, k => k
  | fuel + 1, k =>
    let (n, d) := scaleTen num den (-k)
    if d ≤ n then k else decimalOrderFrom num den fuel (k - 1)

/-- The power of ten that a positive number reaches but not its tenfold. -/
def decimalOrder (num den : Nat) : Int :=
  -- a power of two is at most three tenths of as many powers of ten, and one more
  decimalOrderFrom num den 8 (Int.fdiv (binaryOrder num den * 30103) 100000 + 1)

/-- The numbers that read back as `x` lie between two bounds; the bounds and the value itself
as numerators over one denominator. -/
structure Neighbourhood where
  /-- The lower bound. -/
  low : Nat
  /-- The value. -/
  mid : Nat
  /-- The upper bound. -/
  high : Nat
  /-- The common denominator. -/
  den : Nat
  /-- Whether the bounds themselves read back as the value. -/
  closed : Bool
deriving DecidableEq, Repr

/-- The neighbourhood of a positive magnitude.  Below a power of two the grid is twice as
fine, so the lower bound is nearer there. -/
def neighbourhood (x : Binary64) : Neighbourhood :=
  let m := x.significand
  let gap := if m = twoPow 52 ∧ minExponent < x.exponent then 1 else 2
  let (scale, den) := scaleBinary 1 4 x.exponent
  ⟨(4 * m - gap) * scale, 4 * m * scale, (4 * m + 2) * scale, den, m % 2 == 0⟩

/-- Whether `candidate · 10 ^ place` reads back as the value. -/
def Neighbourhood.holds (bounds : Neighbourhood) (candidate : Nat) (place : Int) : Bool :=
  let (n, d) := scaleTen candidate 1 place
  let value := n * bounds.den
  if bounds.closed then bounds.low * d ≤ value && value ≤ bounds.high * d
  else bounds.low * d < value && value < bounds.high * d

/-- The digits nearest to the value on the grid of `10 ^ place`, among those that read back. -/
def Neighbourhood.onGrid? (bounds : Neighbourhood) (place : Int) : Option Nat :=
  let (n, d) := scaleTen bounds.mid bounds.den (-place)
  let below := n / d
  match bounds.holds below place, bounds.holds (below + 1) place with
  | false, false => none
  | true, false => some below
  | false, true => some (below + 1)
  | true, true => some (roundDiv n d)

/-- The first grid, from `count` digits on, that has digits which read back. -/
def shortestFrom (bounds : Neighbourhood) (order : Int) : (fuel count : Nat) → Nat × Int
  | 0, count => (bounds.mid / bounds.den, order - count + 1)
  | fuel + 1, count =>
    let place := order - count + 1
    match bounds.onGrid? place with
    | some digits => (digits, place)
    | none => shortestFrom bounds order fuel (count + 1)

/-- The shortest digits of a positive magnitude; seventeen always suffice. -/
def shortest (x : Binary64) : Nat × Int :=
  let bounds := neighbourhood x
  shortestFrom bounds (decimalOrder bounds.mid bounds.den) 17 1

/-! ## The written form -/

/-- The smallest decimal exponent that is written positionally. -/
def minPositional : Int := -5

/-- The largest decimal exponent that is written positionally. -/
def maxPositional : Int := 15

/-- Drop zeros at the end of a text of digits. -/
def dropFinalZeros (digits : List Char) : List Char :=
  match (digits.reverse.dropWhile (· == '0')).reverse with
  | [] => ['0']
  | kept => kept

/-- The text of the positive number whose first digit stands for `10 ^ exponent`. -/
def layout (digits : List Char) (exponent : Int) : List Char :=
  if exponent < minPositional ∨ maxPositional < exponent then
    let power := (if exponent < 0 then '-' else '+') :: (toString exponent.natAbs).toList
    match digits with
    | [] => []
    | [d] => d :: 'e' :: power
    | d :: rest => d :: '.' :: rest ++ 'e' :: power
  else if exponent < 0 then
    '0' :: '.' :: List.replicate ((-exponent).toNat - 1) '0' ++ digits
  else
    let whole := exponent.toNat + 1
    let padded := digits ++ List.replicate (whole - digits.length) '0'
    match padded.drop whole with
    | [] => padded ++ ['.', '0']
    | fraction => padded.take whole ++ '.' :: fraction

/-- The text of a number. -/
def render (x : Binary64) : String :=
  let sign := if x.negative then "-" else ""
  if x.significand = 0 then sign ++ "0.0"
  else
    let (digits, place) := shortest x
    let text := (toString digits).toList
    sign ++ String.ofList (layout (dropFinalZeros text) (place + text.length - 1))

end Binary64
end EntryClaims
