import ShaderPipeline.Bytecode.Instruction
import ShaderPipeline.Numeric.Quad

/-!
# Options of a lowering
-/

namespace ShaderPipeline

/-- Reorders the channels of one vertex input before the shader sees it: channel `i` is fed by
source channel `channels i`. -/
structure AttributeSwizzle where
  semantic : Semantic
  channels : Quad UInt8
  deriving DecidableEq, Repr, Inhabited

namespace AttributeSwizzle

/-- The reordering as a swizzle; only the low two bits of a channel number count. -/
def swizzle (s : AttributeSwizzle) : Swizzle :=
  let c := s.channels.map fun n => Component.ofIndex n.toNat
  ⟨c.x, c.y, c.z, c.w⟩

def isTrivial (s : AttributeSwizzle) : Bool := s.channels == ⟨0, 1, 2, 3⟩

end AttributeSwizzle

/-- What the caller of a lowering may choose. -/
structure Options where
  /-- The name of the entry function. -/
  entry : String
  swizzles : List AttributeSwizzle
  /-- The kinds of samplers that the first pixel shader models leave undeclared. -/
  samplerKinds : List (Nat × SamplerKind)
  deriving DecidableEq, Repr

namespace Options

/-- The name of the entry function when none is asked for. -/
def defaultEntry : String := "main"

instance : Inhabited Options := ⟨⟨defaultEntry, [], []⟩⟩

def swizzleOf? (o : Options) (s : Semantic) : Option AttributeSwizzle :=
  o.swizzles.find? (·.semantic == s)

def samplerKind? (o : Options) (index : Nat) : Option SamplerKind :=
  (o.samplerKinds.find? (·.1 == index)).map (·.2)

end Options

end ShaderPipeline
