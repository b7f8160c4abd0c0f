import ShaderPipeline.Numeric.Binary
import ShaderPipeline.Preshader.Opcode
import ShaderPipeline.Symbol.Table

/-!
# Preshaders

A preshader reads literals, input registers that are filled from parameters, temporaries, and the
outputs themselves. Every operand names a single cell of its pool; an operation with several lanes
goes on to the cells after it.
-/

namespace ShaderPipeline

namespace Preshader

/-- The pool of cells an operand belongs to. -/
inductive Pool where
  | input
  | output
  | literal
  | temp
  deriving DecidableEq, Repr, Inhabited

namespace Pool

def name : Pool → String
  | input => "Input"
  | output => "Output"
  | literal => "Literal"
  | temp => "Temp"

/-- The pool's name in the message for a cell that is not there. -/
def word : Pool → String
  | input => "input"
  | output => "output"
  | literal => "literal"
  | temp => "temp"

def code : Pool → Nat
  | literal => 1
  | input => 2
  | output => 4
  | temp => 7

def ofCode? : Nat → Option Pool
  | 1 => some literal
  | 2 => some input
  | 4 => some output
  | 7 => some temp
  | _ => none

end Pool

/-- An operand: the first cell it names, and the registers an indexed input goes through. -/
structure Operand where
  pool : Pool
  index : Nat
  arrayRegisters : List Nat
  deriving DecidableEq, Repr, Inhabited

/-- An instruction. -/
structure Instruction where
  opcode : Opcode
  /-- The number of lanes. -/
  elements : Nat
  /-- The sources and then the destination. -/
  operands : List Operand
  deriving DecidableEq, Repr, Inhabited

namespace Instruction

def destination? (i : Instruction) : Option Operand := i.operands.getLast?

def sources (i : Instruction) : List Operand := i.operands.dropLast

/-- The number of cells that the operand at a position names. -/
def lanes (i : Instruction) (slot : Nat) : Nat :=
  if i.opcode.isScalar ∧ slot = 0 then 1 else i.elements

end Instruction

/-- What is malformed in a preshader's stream. -/
inductive Defect where
  | emptyStream
  | unexpectedToken (token : Word)
  | blockOverrun
  | unknownSection (tag : Word)
  | emptyBlock (name : String)
  | countExceedsBlock (name : String)
  | shortOutputMap
  | inputSet (name : String)
  | instructionCount
  | truncated
  | elementCount (n : Nat)
  | literalIndex (n : Nat)
  | inputIndex (n : Nat)
  | outputIndex (n : Nat)
  | operandType (n : Nat)
  | badDestination
  | indexedNonInput
  deriving DecidableEq, Repr

def Defect.text : Defect → String
  | emptyStream => "empty token stream"
  | unexpectedToken w => "unexpected token 0x" ++ hexText 8 w.toNat
  | blockOverrun => "comment block overruns the stream"
  | unknownSection w => "unknown section 0x" ++ hexText 8 w.toNat
  | emptyBlock name => s!"{name} block is empty"
  | countExceedsBlock name => s!"{name} count exceeds block length"
  | shortOutputMap => "PRSI block too short"
  | inputSet name => "input " ++ quoted name ++ " is not in the float4 register set"
  | instructionCount => "FXLC instruction count exceeds block length"
  | truncated => "FXLC block truncated"
  | elementCount n => s!"element count {n}"
  | literalIndex n => s!"literal index {n}"
  | inputIndex n => s!"input index {n}"
  | outputIndex n => s!"output index {n}"
  | operandType n => s!"operand type {n}"
  | badDestination => "destination must be a temp or output register"
  | indexedNonInput => "array indexing on a non-input operand"

end Preshader

/-- Why a preshader cannot be read or run. -/
inductive PreshaderError where
  | unsupportedVersion (token : Word)
  | malformed (defect : Preshader.Defect)
  | duplicateBlock (name : String)
  | missingBlock (name : String)
  | unknownOpcode (code : Nat)
  | badArity (opcode : Preshader.Opcode) (found : Nat)
  | ctab (error : TableError)
  | unhandledOpcode (opcode : Preshader.Opcode)
  | registerOutOfRange (pool : Preshader.Pool) (index : Nat)
  deriving DecidableEq, Repr

def PreshaderError.message : PreshaderError → String
  | unsupportedVersion w => "unsupported preshader version 0x" ++ hexText 8 w.toNat
  | malformed d => s!"bogus preshader data: {d.text}"
  | duplicateBlock name => s!"multiple {name} preshader blocks"
  | missingBlock name => s!"no {name} block in preshader"
  | unknownOpcode n => "unknown preshader opcode 0x" ++ hexText 4 n
  | badArity op found => s!"preshader opcode {op.name} takes {op.arity} sources, found {found}"
  | ctab e => s!"invalid preshader CTAB: {e.message}"
  | unhandledOpcode op => s!"preshader opcode {op.name} is not handled"
  | registerOutOfRange pool n => s!"preshader {pool.word} register {n} is out of range"

/-- A preshader. -/
structure Preshader where
  literals : Array Binary64
  tempCount : Nat
  symbols : List Symbol
  /-- The input registers, four floats each. -/
  registers : Array Binary32
  instructions : List Preshader.Instruction
  deriving DecidableEq, Repr

namespace Preshader

def registerCount (p : Preshader) : Nat := p.registers.size / 4

/-- Whether two preshaders are equal as numbers: a literal or register that is not a number makes
them differ. -/
def numEq (p q : Preshader) : Bool :=
  p.tempCount == q.tempCount && p.symbols == q.symbols && p.instructions == q.instructions &&
    p.literals.isEqv q.literals Binary64.numEq && p.registers.isEqv q.registers Binary32.numEq

end Preshader

end ShaderPipeline
