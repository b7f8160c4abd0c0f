import ShaderPipeline.Numeric.Binary

/-!
# Decimal text of single-precision numbers

Two spellings of a finite number are used. `Binary32.fixedText` writes a fixed number of decimal
places, rounded to nearest with ties to even, and then drops trailing zeros while keeping one
place. `Binary32.shortestText` writes the fewest decimal digits that read back as the same number,
in positional notation. Both work on exact natural-number arithmetic.
-/

namespace ShaderPipeline

def roundHalfEven (num den : Nat) : Nat :=
  let q := num / den
  let r := num % den
  if 2 * r < den then q
  else if den < 2 * r then q + 1
  else q + q % 2

/-- The decimal digits of `n`, filled up with zeros on the left to `width` digits. -/
def paddedDigits (width n : Nat) : List Char :=
  let ds := Nat.toDigits 10 n
  List.replicate (width - ds.length) '0' ++ ds

def dropTrailingZeros (ds : List Char) : List Char :=
  (ds.reverse.dropWhile (· == '0')).reverse

namespace Binary32

variable (x : Binary32)

/-- The sign in front of a number's digits; negative zero has one too. -/
def signText : String := if x.negative then "-" else ""

/-- The magnitude in units of `10 ^ -places`, rounded to nearest with ties to even. -/
def scaledMagnitude (places : Nat) (x : Binary32) : Nat :=
  roundHalfEven (x.units * 10 ^ places) (2 ^ 149)

/-- A finite number with at most `places` decimal places and at least one. -/
def fixedText (places : Nat) (x : Binary32) : String :=
  let n := x.scaledMagnitude places
  let whole := Nat.toDigits 10 (n / 10 ^ places)
  let part := dropTrailingZeros (paddedDigits places (n % 10 ^ places))
  x.signText ++ String.ofList (whole ++ '.' :: (if part.isEmpty then ['0'] else part))

def halfGapAbove : Nat := 2 * 2 ^ (x.exponent - 1)

def halfGapBelow : Nat :=
  if x.fraction = 0 ∧ 1 < x.exponent then 2 ^ (x.exponent - 1) else 2 * 2 ^ (x.exponent - 1)

/-- Whether `c * 10 ^ up / 10 ^ down` rounds to the magnitude of `x`. Ends of the rounding
interval belong to it when the significand is even. -/
def readsBack (c up down : Nat) : Bool :=
  let value := 4 * (c * 10 ^ up) * 2 ^ 149
  let low := (4 * x.units - x.halfGapBelow) * 10 ^ down
  let high := (4 * x.units + x.halfGapAbove) * 10 ^ down
  if x.fraction % 2 = 0 then low ≤ value && value ≤ high else low < value && value < high

/-- The multiple of `10 ^ up / 10 ^ down` nearest to the magnitude of `x` among those that read
back as `x`, if there is one; of two equally near, the larger. -/
def gridPoint? (up down : Nat) : Option Nat :=
  let num := x.units * 10 ^ down
  let den := 10 ^ up * 2 ^ 149
  let lower := num / den
  let nearest := if den ≤ 2 * (num % den) then lower + 1 else lower
  let other := if nearest = lower then lower + 1 else lower
  if x.readsBack nearest up down then some nearest
  else if x.readsBack other up down then some other
  else none

/-- The text of `c * 10 ^ up / 10 ^ down`, where one of the two exponents is zero. -/
def positional (c up down : Nat) : String :=
  if down = 0 then toString (c * 10 ^ up)
  else
    String.ofList
      (Nat.toDigits 10 (c / 10 ^ down) ++ '.' :: paddedDigits down (c % 10 ^ down))

def decimalGrids : List (Nat × Nat) :=
  ((List.range 40).reverse.map fun k => (k, 0)) ++ ((List.range 60).map fun k => (0, k + 1))

/-- A number with the fewest decimal digits that read back as it, without an exponent. -/
def shortestText : String :=
  if x.isNaN then "NaN"
  else if x.isInfinite then x.signText ++ "inf"
  else if x.isZero then x.signText ++ "0"
  else
    let found := decimalGrids.findSome? fun (up, down) =>
      (x.gridPoint? up down).map fun c => positional c up down
    x.signText ++ found.getD "0"

end Binary32

end ShaderPipeline
