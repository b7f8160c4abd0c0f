/-!
# Powers and sums of natural numbers

Algebra brings its own powers and its own zero. Those of the language come first here, so that a term
is the same with it and without.
-/

namespace ShaderPipeline

@[default_instance 20000]
instance (priority := 20000) powNat : Pow Nat Nat := instPowNat

instance (priority := 20000) zeroNat : Zero Nat := Zero.ofOfNat0

end ShaderPipeline
