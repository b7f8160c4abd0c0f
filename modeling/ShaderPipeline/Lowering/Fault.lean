import ShaderPipeline.Bytecode.Instruction
import ShaderPipeline.Target.Profile

/-!
# Why a shader cannot be lowered

A `Fault` is found at an instruction, while the shader is surveyed or while its text is written.
-/

namespace ShaderPipeline

/-- Something a target profile has no means for. -/
inductive Feature where
  | opcode (op : Opcode)
  | relativeFile (file : RegisterFile)
  | relativeInFragment
  | relativeToLoop
  | addressComponent
  | volumeTexture
  | intConstants
  | boolConstants
  | colorOutput (index : Nat)
  | output (s : Semantic)
  | input (s : Semantic)
  | registers (file : RegisterFile)
  | sourceModifier (m : SourceModifier)
  | predication
  | opcodeInVertex (op : Opcode)
  | derivatives
  | vertexTexture
  deriving DecidableEq, Repr

def Feature.text : Feature → String
  | opcode op => op.mnemonic
  | relativeFile file => s!"relative addressing of {file.name} registers"
  | relativeInFragment => "relative addressing in fragment programs"
  | relativeToLoop => "loop-relative addressing"
  | addressComponent => "address components other than x"
  | volumeTexture => "volume texture sampling"
  | intConstants => "integer constants"
  | boolConstants => "boolean constants"
  | colorOutput i => s!"color output {i}"
  | output s => s!"{s.usage.word}{s.index} output"
  | input s => s!"{s.usage.word}{s.index} input"
  | registers file => s!"{file.letters} registers"
  | sourceModifier m => s!"source modifier {m.name}"
  | predication => "predicated instructions"
  | opcodeInVertex op => s!"{op.mnemonic} in vertex programs"
  | derivatives => "derivatives"
  | vertexTexture => "vertex texture fetch"

/-- What is wrong with a shader or with one of its instructions. -/
inductive Fault where
  | unsupported (feature : Feature) (profile : Profile)
  | cannotDeclare (file : RegisterFile) (declaration : Declaration)
  | noDestination (op : Opcode)
  | missingSource (op : Opcode) (n : Nat)
  | missingMatrix (op : Opcode)
  | missingSampler (op : Opcode)
  | unknownOpcode (code : Nat)
  | labelInsideBlock
  | labelTwice (label : Nat)
  | elseWithoutIf
  | unmatchedClose (op : Opcode)
  | breakOutsideLoop
  | nestsTooDeeply
  | unterminatedBlocks (count : Nat)
  | undefinedLabel (label : Nat)
  | samplerWithoutDeclaration (index : Nat)
  | inputWithoutDeclaration (index : Nat)
  | outputWithoutDeclaration (index : Nat)
  | unknownRasterOutput (index : Nat)
  | relativeThrough (file : RegisterFile)
  | constantWrite
  | unknownComparison (code : Nat)
  | notAnOutput (file : RegisterFile)
  | counterOutsideLoop
  | notInRelativeRange (index : Nat)
  | noUniformSlot (index : Nat)
  | modifierOnKind (m : SourceModifier) (kind : ValueKind)
  | notACondition (file : RegisterFile)
  | undeclaredSampler (index : Nat)
  | noBumpEnvironment (index : Nat)
  | missingPadRows
  | endLoopWithoutLoop
  | endRepWithoutRep
  | killWithoutRegister
  deriving DecidableEq, Repr

def Fault.message : Fault → String
  | unsupported f p => s!"{f.text} is not supported by the {p.name} profile"
  | cannotDeclare file d => s!"cannot declare {file.name} with {d.text}"
  | noDestination op => s!"{op.mnemonic} without a destination"
  | missingSource op n => s!"{op.mnemonic} is missing source {n}"
  | missingMatrix op => s!"{op.mnemonic} is missing its matrix"
  | missingSampler op => s!"{op.mnemonic} without a sampler"
  | unknownOpcode n => s!"unknown opcode {n}"
  | labelInsideBlock => "label inside a flow control block"
  | labelTwice n => s!"label l{n} defined twice"
  | elseWithoutIf => "else without if"
  | unmatchedClose op => s!"{op.mnemonic} without a matching opener"
  | breakOutsideLoop => "break outside of a loop"
  | nestsTooDeeply => "flow control nests too deeply"
  | unterminatedBlocks n => s!"{n} unterminated flow control block(s)"
  | undefinedLabel n => s!"call to undefined label l{n}"
  | samplerWithoutDeclaration n => s!"sampler s{n} used without dcl"
  | inputWithoutDeclaration n => s!"input v{n} used without dcl"
  | outputWithoutDeclaration n => s!"output o{n} used without dcl"
  | unknownRasterOutput n => s!"unknown rasterizer output {n}"
  | relativeThrough file => s!"relative addressing through {file.name}"
  | constantWrite => "constant registers are read-only"
  | unknownComparison n => s!"unknown comparison {n}"
  | notAnOutput file => s!"{file.name} is not an output"
  | counterOutsideLoop => "aL used outside of a loop"
  | notInRelativeRange n => s!"c{n} is not in a relative range"
  | noUniformSlot n => s!"c{n} has no uniform slot"
  | modifierOnKind m k => s!"source modifier {m.name} on {k.name} register"
  | notACondition file => s!"{file.name} register used as a condition"
  | undeclaredSampler n => s!"sampler s{n} is not declared"
  | noBumpEnvironment n => s!"sampler s{n} has no bump environment"
  | missingPadRows => "matrix texture op without its pad rows"
  | endLoopWithoutLoop => "endloop without loop"
  | endRepWithoutRep => "endrep without rep"
  | killWithoutRegister => "texkill without a register"

namespace Instruction

def needDst (i : Instruction) : Except Fault Destination :=
  match i.dst? with
  | some d => .ok d
  | none => .error (.noDestination i.opcode)

def needSrc (i : Instruction) (n : Nat) : Except Fault Source :=
  match i.src? n with
  | some s => .ok s
  | none => .error (.missingSource i.opcode n)

end Instruction

end ShaderPipeline
