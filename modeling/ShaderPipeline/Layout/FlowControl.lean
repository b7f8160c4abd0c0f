import ShaderPipeline.Layout.Ordered
import ShaderPipeline.Lowering.Fault

/-!
# Flow control

Conditions, loops and repetitions are opened and closed by instructions of their own, and labels
start subroutines. `FlowState.step` follows the open blocks along the instructions and says where
their nesting is wrong. After a closing instruction that does not match, the innermost block is
closed nevertheless.
-/

namespace ShaderPipeline

/-- An open block. -/
inductive Block where
  | condition
  | loop
  | repetition
  deriving DecidableEq, Repr

/-- The blocks open before an instruction, the innermost first, and the labels and calls seen so
far. -/
structure FlowState where
  blocks : List Block
  /-- The labels defined so far, in increasing order. -/
  labels : List Nat
  /-- The labels called so far, the last call first, with the positions of the calls. -/
  calls : List (Nat × Nat)
  deriving DecidableEq, Repr

namespace FlowState

def maxDepth : Nat := 64

def start : FlowState := ⟨[], [], []⟩

variable (f : FlowState)

def opened (b : Block) : FlowState := { f with blocks := b :: f.blocks }

def closed (f : FlowState) : FlowState := { f with blocks := f.blocks.tail }

def inLoop : Bool := f.blocks.any (· != .condition)

def closeFault (op : Opcode) (b : Block) : Option Fault :=
  if f.blocks.head? = some b then none else some (.unmatchedClose op)

def label (f : FlowState) (i : Instruction) : Option Fault × FlowState :=
  if !f.blocks.isEmpty then (some .labelInsideBlock, f)
  else
    match i.needSrc 0 with
    | .error fault => (some fault, f)
    | .ok s =>
      if f.labels.contains s.reg.index then (some (.labelTwice s.reg.index), f)
      else (none, { f with labels := putNumber s.reg.index f.labels })

def nest (i : Instruction) : Option Fault × FlowState :=
  match i.opcode with
  | .call | .callNonzero =>
    match i.needSrc 0 with
    | .error fault => (some fault, f)
    | .ok s => (none, { f with calls := (s.reg.index, i.position) :: f.calls })
  | .ifBool | .ifCompare => (none, f.opened .condition)
  | .loop => (none, f.opened .loop)
  | .rep => (none, f.opened .repetition)
  | .orElse => (if f.blocks.head? = some .condition then none else some .elseWithoutIf, f)
  | .endIf => (f.closeFault .endIf .condition, f.closed)
  | .endLoop => (f.closeFault .endLoop .loop, f.closed)
  | .endRep => (f.closeFault .endRep .repetition, f.closed)
  | .breakAlways | .breakCompare | .breakPredicate =>
    (if f.inLoop then none else some .breakOutsideLoop, f)
  | .unknown n => (some (.unknownOpcode n), f)
  | _ => (none, f)

def step (i : Instruction) : Option Fault × FlowState :=
  if i.opcode.isDeclaration ∨ i.opcode = .nop then (none, f)
  else if i.opcode = .label then f.label i
  else
    match f.nest i with
    | (some fault, f') => (some fault, f')
    | (none, f') => (if maxDepth < f'.blocks.length then some .nestsTooDeeply else none, f')

end FlowState

end ShaderPipeline
