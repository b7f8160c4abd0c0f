import ShaderPipeline.Bytecode.Version
import ShaderPipeline.Numeric.Binary

/-!
# Register files

Each stage has a file of float, integer and boolean registers, which shaders see as their uniforms.
The bump environments of three texture stages are shared.
-/

namespace ShaderPipeline

/-- A value for each stage. -/
structure PerStage (α : Type) where
  vertex : α
  pixel : α
  deriving DecidableEq, Repr, Inhabited

namespace PerStage

variable {α : Type}

def both (a : α) : PerStage α := ⟨a, a⟩

def get (p : PerStage α) : Stage → α
  | .vertex => p.vertex
  | .pixel => p.pixel

def set (p : PerStage α) (stage : Stage) (a : α) : PerStage α :=
  match stage with
  | .vertex => { p with vertex := a }
  | .pixel => { p with pixel := a }

end PerStage

def overwrite {α : Type} (file : Array α) (start : Nat) : List α → Array α
  | [] => file
  | a :: rest => overwrite (file.setIfInBounds start a) (start + 1) rest

namespace Device

def floatRegisterCount : Nat := 8192

def intRegisterCount : Nat := 2047

def boolRegisterCount : Nat := 2047

def bumpStageCount : Nat := 3

/-- The registers of a stage. -/
structure StageRegisters where
  /-- Four floats a register. -/
  floats : Array Binary32
  /-- Four integers a register. -/
  ints : Array Int32
  /-- One byte a register. -/
  bools : Array UInt8
  deriving DecidableEq, Repr

/-- All registers. -/
structure RegisterFiles where
  stages : PerStage StageRegisters
  /-- Six floats for each texture stage: a matrix, a scale and an offset. -/
  bump : Array Binary32
  deriving DecidableEq, Repr

namespace RegisterFiles

/-- Registers that are all zero. -/
def zero : RegisterFiles where
  stages := .both {
    floats := Array.replicate (4 * floatRegisterCount) .zero
    ints := Array.replicate (4 * intRegisterCount) 0
    bools := Array.replicate boolRegisterCount 0 }
  bump := Array.replicate (6 * bumpStageCount) .zero

def stage (r : RegisterFiles) (s : Stage) : StageRegisters := r.stages.get s

def modifyStage (r : RegisterFiles) (s : Stage) (f : StageRegisters → StageRegisters) :
    RegisterFiles :=
  { r with stages := r.stages.set s (f (r.stages.get s)) }

def setBump (r : RegisterFiles) (unit : Nat) (values : List Binary32) : RegisterFiles :=
  { r with bump := overwrite r.bump (6 * (unit - 1)) values }

def bumpOf (r : RegisterFiles) (unit : Nat) : List Binary32 :=
  (r.bump.extract (6 * (unit - 1)) (6 * unit)).toList

end RegisterFiles

/-- The number of whole registers, `width` cells each, that a transfer of `len` cells from register
`start` on reaches in a file of `size` cells. -/
def transferCount (width size start len : Nat) : Nat := min (len / width) (size / width - start)

/-- Writes whole registers from register `start` on, as far as the file goes. -/
def writeRegisters {α : Type} (width : Nat) (file : Array α) (start : Nat) (values : List α) :
    Array α :=
  overwrite file (width * start)
    (values.take (width * transferCount width file.size start values.length))

/-- Reads whole registers from register `start` on into the front of a buffer, as far as the file
goes, and gives their number. -/
def readRegisters {α : Type} (width : Nat) (file : Array α) (start : Nat) (buffer : List α) :
    Nat × List α :=
  let n := transferCount width file.size start buffer.length
  let cells := (file.extract (width * start) (width * (start + n))).toList
  (n, cells ++ buffer.drop (width * n))

end Device

end ShaderPipeline
