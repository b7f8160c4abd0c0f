import ShaderPipeline.Numeric.Decimal

/-!
# Float literals in generated text
-/

namespace ShaderPipeline

/-- Float literals have at most eight decimal places. -/
def literalPlaces : Nat := 8

/-- The literal of a float. What is not a number and the infinities are written as quotients. -/
def floatLiteral (x : Binary32) : String :=
  if x.isNaN then "(0.0 / 0.0)"
  else if x.isInfinite then (if x.negative then "(-1.0 / 0.0)" else "(1.0 / 0.0)")
  else x.fixedText literalPlaces

/-- The literal of a number of thousandths, with at least one decimal place. -/
def thousandthsText (n : Nat) : String :=
  let part := dropTrailingZeros (paddedDigits 3 (n % 1000))
  String.ofList (Nat.toDigits 10 (n / 1000) ++ '.' :: (if part.isEmpty then ['0'] else part))

end ShaderPipeline
