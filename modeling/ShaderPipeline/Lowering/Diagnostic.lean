import ShaderPipeline.Bytecode.Fault
import ShaderPipeline.Lowering.Fault
import ShaderPipeline.Preshader.Basic

/-!
# Diagnostics of a lowering
-/

namespace ShaderPipeline

/-- What a diagnostic is about. -/
inductive Problem where
  | decode (fault : DecodeFault)
  | table (error : TableError)
  | preshader (error : PreshaderError)
  | lowering (fault : Fault)
  deriving DecidableEq, Repr

def Problem.message : Problem → String
  | decode f => f.message
  | table e => e.message
  | preshader e => e.message
  | lowering f => f.message

/-- A problem and, when it has one, the position of the word it was found at. -/
structure Diagnostic where
  problem : Problem
  position : Option Nat
  deriving DecidableEq, Repr

namespace Diagnostic

/-- The wording without the position. -/
def message (d : Diagnostic) : String := d.problem.message

def text (d : Diagnostic) : String :=
  match d.position with
  | some n => s!"token {n}: {d.message}"
  | none => d.message

end Diagnostic

end ShaderPipeline
