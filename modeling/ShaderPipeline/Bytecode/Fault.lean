import ShaderPipeline.Bytecode.Instruction
import ShaderPipeline.Text.Hex

/-!
# Why a stream of words is not a shader
-/

namespace ShaderPipeline

/-- What is wrong with a stream of words. -/
inductive DecodeFault where
  | tooManyBytes (count : Nat)
  | unevenBytes (count : Nat)
  | tooManyTokens (count : Nat)
  | emptyStream
  | unknownVersion (token : Word)
  | unknownModel (major minor : Nat)
  | commentOverrun (length remaining : Nat)
  | opcodeNotInVersion (opcode : Opcode) (version : Version)
  | instructionOverrun (length remaining : Nat)
  | truncatedInstruction
  | endOfOperands
  | unknownRegisterType (code : Nat)
  | registerOutOfRange (index : Nat) (file : RegisterFile)
  | relativeThrough (file : RegisterFile)
  | unknownModifier (code : Nat)
  | notAPredicate (file : RegisterFile)
  | operandCount (opcode : Opcode) (used found : Nat)
  | unknownTexture (code : Nat)
  | unknownUsage (code : Nat)
  | missingEnd
  deriving DecidableEq, Repr

namespace DecodeFault

/-- The most bytes a shader may have. -/
def maxBytes : Nat := 262144

/-- The most words a shader may have. -/
def maxTokens : Nat := 65536

def message : DecodeFault → String
  | tooManyBytes n => s!"bytecode length {n} exceeds maximum {maxBytes} bytes"
  | unevenBytes n => s!"bytecode length {n} is not a multiple of 4"
  | tooManyTokens n => s!"token count {n} exceeds maximum {maxTokens}"
  | emptyStream => "empty token stream"
  | unknownVersion w => "unknown shader version token 0x" ++ hexText 8 w.toNat
  | unknownModel major minor => s!"unsupported shader model {major}.{minor}"
  | commentOverrun len rem => s!"comment length {len} exceeds remaining tokens {rem}"
  | opcodeNotInVersion op v =>
    s!"opcode {op.mnemonic} (0x" ++ hexText 1 op.code ++ s!") is not valid in {v.text}"
  | instructionOverrun len rem => s!"instruction length {len} exceeds remaining tokens {rem}"
  | truncatedInstruction => "truncated instruction"
  | endOfOperands => "unexpected end of operand tokens"
  | unknownRegisterType n => s!"unsupported register type {n}"
  | registerOutOfRange i file =>
    s!"register index {i} in {file.name} exceeds maximum {file.maxIndex}"
  | relativeThrough file => s!"relative addressing through {file.name}"
  | unknownModifier n => s!"unknown source modifier {n}"
  | notAPredicate file => s!"expected predicate register, got {file.name}"
  | operandCount op used found =>
    s!"opcode {op.mnemonic} decoded {used} operand tokens but instruction has {found}"
  | unknownTexture n => s!"unsupported sampler texture type {n}"
  | unknownUsage n => s!"unknown usage {n}"
  | missingEnd => "missing end token"

end DecodeFault

/-- A fault and the position of the word it was found at. -/
structure DecodeError where
  position : Nat
  fault : DecodeFault
  deriving DecidableEq, Repr

def DecodeError.message (e : DecodeError) : String :=
  s!"D3D9 shader decode error at token {e.position}: {e.fault.message}"

end ShaderPipeline
