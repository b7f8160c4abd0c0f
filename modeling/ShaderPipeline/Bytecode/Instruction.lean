import ShaderPipeline.Bytecode.Opcode
import ShaderPipeline.Bytecode.Register
import ShaderPipeline.Bytecode.Usage

/-!
# Instructions and shaders
-/

namespace ShaderPipeline

/-- The address register component, or the loop counter, that is added to a register number. -/
structure RelativeAddress where
  file : RegisterFile
  index : Nat
  component : Component
  deriving DecidableEq, Repr, Inhabited

/-- A register named by an operand. -/
structure RegisterRef where
  file : RegisterFile
  index : Nat
  relative : Option RelativeAddress
  deriving DecidableEq, Repr, Inhabited

/-- The register `n` places further on. -/
def RegisterRef.shift (r : RegisterRef) (n : Nat) : RegisterRef := { r with index := r.index + n }

/-- A register that is written, and which components of it. -/
structure Destination where
  reg : RegisterRef
  mask : WriteMask
  deriving DecidableEq, Repr, Inhabited

/-- A register that is read, with the swizzle and the modifier applied to it. -/
structure Source where
  reg : RegisterRef
  swizzle : Swizzle
  modifier : SourceModifier
  deriving DecidableEq, Repr, Inhabited

/-- An operand of an instruction. -/
inductive Operand where
  | dst (d : Destination)
  | src (s : Source)
  | imm (w : Word)
  deriving DecidableEq, Repr, Inhabited

/-- The power of two a result is scaled by. -/
inductive ResultShift where
  | one
  | mul2
  | mul4
  | mul8
  | div2
  | div4
  | div8
  deriving DecidableEq, Repr, Inhabited

/-- The factor of a result shift in thousandths, unless it is one. -/
def ResultShift.factor? : ResultShift → Option Nat
  | one => none
  | mul2 => some 2000
  | mul4 => some 4000
  | mul8 => some 8000
  | div2 => some 500
  | div4 => some 250
  | div8 => some 125

/-- What is done to a result before it is stored. -/
structure ResultModifier where
  saturate : Bool
  partialPrecision : Bool
  centroid : Bool
  shift : ResultShift
  deriving DecidableEq, Repr, Inhabited

def ResultModifier.plain : ResultModifier := ⟨false, false, false, .one⟩

/-- A comparison of two values. -/
inductive Comparison where
  | gt
  | eq
  | ge
  | lt
  | ne
  | le
  | unknown (code : Nat)
  deriving DecidableEq, Repr, Inhabited

def Comparison.ofCode : Nat → Comparison
  | 1 => gt
  | 2 => eq
  | 3 => ge
  | 4 => lt
  | 5 => ne
  | 6 => le
  | n => unknown n

/-- The shape of the texture a sampler reads. -/
inductive SamplerKind where
  | flat
  | cube
  | volume
  deriving DecidableEq, Repr, Inhabited

def SamplerKind.textureName : SamplerKind → String
  | flat => "Texture2D"
  | cube => "TextureCube"
  | volume => "Texture3D"

/-- What a declaration says about its register. -/
inductive Declaration where
  | usage (s : Semantic)
  | texture (kind : SamplerKind)
  deriving DecidableEq, Repr, Inhabited

def Declaration.text : Declaration → String
  | usage s => s!"Usage({s.usage.name})"
  | texture kind => s!"TextureType({kind.textureName})"

/-- One instruction, with its place in the stream. -/
structure Instruction where
  /-- The position among the instructions. -/
  index : Nat
  /-- The position of its first word in the stream. -/
  position : Nat
  opcode : Opcode
  /-- Control bits of the opcode word: the comparison, or the kind of texture load. -/
  control : Nat
  /-- The number of words, the opcode word included. -/
  length : Nat
  coissue : Bool
  result : ResultModifier
  predicate : Option Source
  operands : List Operand
  declaration : Option Declaration
  /-- The words of a comment. -/
  comment : Option (List Word)
  deriving DecidableEq, Repr, Inhabited

namespace Instruction

/-- A marker of the stream: no operands, one word. -/
def marker (index position : Nat) (opcode : Opcode) : Instruction where
  index := index
  position := position
  opcode := opcode
  control := 0
  length := 1
  coissue := false
  result := .plain
  predicate := none
  operands := []
  declaration := none
  comment := none

/-- The first destination. -/
def dst? (i : Instruction) : Option Destination :=
  i.operands.findSome? fun
    | .dst d => some d
    | _ => none

def sources (i : Instruction) : List Source :=
  i.operands.filterMap fun
    | .src s => some s
    | _ => none

def src? (i : Instruction) (n : Nat) : Option Source := i.sources[n]?

def immediates (i : Instruction) : List Word :=
  i.operands.filterMap fun
    | .imm w => some w
    | _ => none

def comparison (i : Instruction) : Comparison := .ofCode (i.control % 8)

end Instruction

/-- A shader as read from its stream. -/
structure Shader where
  version : Version
  instructions : List Instruction
  deriving DecidableEq, Repr, Inhabited

namespace Shader

def comments (s : Shader) : List (List Word) := s.instructions.filterMap (·.comment)

def instructionCount (s : Shader) : Nat := s.instructions.countP (!·.opcode.isDeclaration)

end Shader

end ShaderPipeline
