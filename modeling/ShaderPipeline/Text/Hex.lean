/-!
# Hexadecimal text
-/

namespace ShaderPipeline

/-- The lowercase hexadecimal digits of `n`, filled up with zeros on the left to `width`. -/
def hexText (width n : Nat) : String :=
  let ds := Nat.toDigits 16 n
  String.ofList (List.replicate (width - ds.length) '0' ++ ds)

end ShaderPipeline
