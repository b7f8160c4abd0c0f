import ShaderPipeline.Device.Capabilities
import ShaderPipeline.Device.Program
import ShaderPipeline.Lowering.Cache

/-!
# Devices

A device keeps what a renderer drives: register files, the bound program, the programs linked so
far and the state of the vertex arrays. Shaders and programs are shared. An object whose last
holder lets go of it is queued, and deleted when the device next collects.
-/

namespace ShaderPipeline

namespace Device

/-- An object that no one holds any more, by the driver's name. -/
inductive Released where
  | shader (name : Nat)
  | program (name : Nat)
  deriving DecidableEq, Repr

/-- What a program last sent, and at which generation of the registers. -/
structure Shadow where
  generation : UInt64
  values : PerStage StageUniforms
  deriving DecidableEq, Repr

/-- How often each object is held, the shadows of programs, and the objects that wait to be
deleted, in the order they were released. -/
structure Store where
  shaderHolders : Array Nat
  programHolders : Array Nat
  shadows : Array Shadow
  released : List Released
  deriving DecidableEq, Repr

namespace Store

/-- A store without objects. -/
def empty : Store := ⟨#[], #[], #[], []⟩

def release (s : Store) (r : Released) : Store := { s with released := s.released ++ [r] }

variable (s : Store)

def holdShader (x : CompiledShader) : Store :=
  { s with shaderHolders := s.shaderHolders.modify x.id (· + 1) }

def dropShader (x : CompiledShader) : Store :=
  let s' := { s with shaderHolders := s.shaderHolders.modify x.id (· - 1) }
  if s.shaderHolders[x.id]? = some 1 then s'.release (.shader x.name) else s'

/-- Holds a shader once more, if there is one. -/
def holdShader? : Option CompiledShader → Store
  | some x => s.holdShader x
  | none => s

/-- Lets go of a shader, if there is one. -/
def dropShader? : Option CompiledShader → Store
  | some x => s.dropShader x
  | none => s

def holdProgram (p : LinkedProgram) : Store :=
  { s with programHolders := s.programHolders.modify p.id (· + 1) }

/-- Lets go of a program. The last holder releases it, and with it its shaders. -/
def dropProgram (p : LinkedProgram) : Store :=
  let s' := { s with programHolders := s.programHolders.modify p.id (· - 1) }
  if s.programHolders[p.id]? = some 1 then
    ((s'.release (.program p.names.program)).dropShader? p.vertex).dropShader? p.pixel
  else s'

/-- Holds a program once more, if there is one. -/
def holdProgram? : Option LinkedProgram → Store
  | some p => s.holdProgram p
  | none => s

/-- Lets go of a program, if there is one. -/
def dropProgram? : Option LinkedProgram → Store
  | some p => s.dropProgram p
  | none => s

def addShader (name : Nat) (stage : Stage) (code : LoweredShader) : CompiledShader × Store :=
  (⟨s.shaderHolders.size, name, stage, code⟩, { s with shaderHolders := s.shaderHolders.push 1 })

def addProgram (vertex pixel : Option CompiledShader) (generation : UInt64) : Nat × Store :=
  let s := (s.holdShader? vertex).holdShader? pixel
  let values : PerStage StageUniforms := ⟨.ofShader? vertex, .ofShader? pixel⟩
  (s.programHolders.size,
    { s with
      programHolders := s.programHolders.push 1
      shadows := s.shadows.push ⟨generation, values⟩ })

end Store

end Device

/-- A device. -/
structure Device where
  driver : Device.Driver
  capabilities : Device.Capabilities
  profile : Profile
  cache : ShaderCache
  /-- The texture unit of the first sampler of vertex shaders. -/
  vertexSamplerOffset : Nat
  registers : Device.RegisterFiles
  /-- Changes whenever registers are written. -/
  generation : UInt64
  bound : Option Device.LinkedProgram
  /-- The programs linked for pairs of names, zero for a missing stage. -/
  linkCache : List ((Nat × Nat) × Device.LinkedProgram)
  /-- The vertex arrays that the next draw needs. -/
  wanted : Array Bool
  /-- The vertex arrays that are enabled. -/
  enabled : Array Bool
  divisors : Array Nat
  /-- One more than the highest array that may be enabled. -/
  trackedArrays : Nat
  /-- Whether shaders may set the size of points. -/
  pointSize : Bool
  lastError : String
  store : Device.Store
  /-- The number of pairs of assembly programs so far. -/
  pairs : Nat
  /-- The number of names asked for so far. -/
  issued : Nat
  /-- All calls so far. -/
  calls : Array Device.Call

abbrev DeviceM := StateM Device

/-- An operation of a device that may fail; what it did before it failed stays done. -/
abbrev DeviceOp := ExceptT DeviceError DeviceM

namespace Device

/-- The most vertex arrays a device keeps track of. -/
def maxVertexArrays : Nat := 32

def emit (c : Call) : DeviceM Unit := modify fun d => { d with calls := d.calls.push c }

def emitAll (cs : List Call) : DeviceM Unit :=
  modify fun d => { d with calls := cs.foldl Array.push d.calls }

def freshName : DeviceM Nat := do
  let d ← get
  set { d with issued := d.issued + 1 }
  return d.driver.issue d.issued

def modifyStore (f : Store → Store) : DeviceM Unit := modify fun d => { d with store := f d.store }

/-- Runs an operation and remembers the message of its failure. -/
def recording {α : Type} (op : DeviceOp α) : DeviceOp α :=
  ExceptT.mk do
    match ← op.run with
    | .ok a => return .ok a
    | .error e =>
      modify fun d => { d with lastError := e.message }
      return .error e

/-- Deletes one object. Pairs of assembly programs are no objects of the driver. -/
def deleteReleased (r : Released) : DeviceM Unit := do
  let glsl := (← get).profile.isGlsl
  match r with
  | .shader n => emit (if glsl then .deleteShader n else .deleteProgramArb n)
  | .program n => if glsl then emit (.deleteProgram n) else return

def deleteAll : List Released → DeviceM Unit
  | [] => return
  | r :: rest => do
    deleteReleased r
    deleteAll rest

def collect : DeviceM Unit := do
  let released := (← get).store.released
  modifyStore fun s => { s with released := [] }
  deleteAll released

def touch : DeviceM Unit := modify fun d => { d with generation := d.generation + 1 }

def useCalls (glsl : Bool) (names : ProgramNames) : List Call :=
  let assembly (target name : Nat) : List Call :=
    [if name = 0 then .disable target else .enable target, .bindProgramArb target name]
  if glsl then [.useProgram names.program]
  else assembly vertexProgramEnum names.vertex ++ assembly fragmentProgramEnum names.pixel

/-- The names of a program; zeros for none. -/
def namesOf : Option LinkedProgram → ProgramNames
  | some p => p.names
  | none => ⟨0, 0, 0⟩

/-- Makes a program current, or none. -/
def useProgram (p : Option LinkedProgram) : DeviceM Unit := do
  emitAll (useCalls (← get).profile.isGlsl (namesOf p))

/-- What a device is created with. -/
structure Config where
  profile : Profile
  /-- Whether the samplers of vertex shaders use the texture units after those of pixel shaders. -/
  vertexTextures : Bool
  vertexArrays : Nat
  deriving DecidableEq, Repr

def Config.ofProfile (profile : Profile) : Config := ⟨profile, false, maxVertexArrays⟩

/-- The texture unit of the first sampler of vertex shaders. Of the units beyond sixteen, vertex
shaders get the last four at most. -/
def samplerOffset (driver : Driver) (vertexTextures : Bool) : Nat :=
  if vertexTextures then
    let units := driver.integer maxTextureUnitsEnum
    (units - min (units - 16) 4).toNat
  else 0

def create (driver : Driver) (config : Config) : Except DeviceError Device := do
  let capabilities := Capabilities.ofDriver driver
  capabilities.check config.profile
  let arrays := min config.vertexArrays maxVertexArrays
  let d : Device := {
    driver, capabilities
    profile := config.profile
    cache := default
    vertexSamplerOffset := samplerOffset driver config.vertexTextures
    registers := .zero
    generation := 0
    bound := none
    linkCache := []
    wanted := Array.replicate arrays false
    enabled := Array.replicate arrays false
    divisors := Array.replicate arrays 0
    trackedArrays := 0
    pointSize := false
    lastError := ""
    store := .empty
    pairs := 0
    issued := 0
    calls := #[] }
  return ((useProgram none).run d).2

/-! ## Registers -/

def setFloats (stage : Stage) (start : Nat) (values : List Binary32) : DeviceM Unit := do
  modify fun d => { d with registers := d.registers.modifyStage stage fun r =>
    { r with floats := writeRegisters 4 r.floats start values } }
  touch

def setInts (stage : Stage) (start : Nat) (values : List Int32) : DeviceM Unit := do
  modify fun d => { d with registers := d.registers.modifyStage stage fun r =>
    { r with ints := writeRegisters 4 r.ints start values } }
  touch

/-- Writes boolean registers; all that is not zero counts as one. -/
def setBools (stage : Stage) (start : Nat) (values : List Int32) : DeviceM Unit := do
  modify fun d => { d with registers := d.registers.modifyStage stage fun r =>
    { r with
      bools := writeRegisters 1 r.bools start (values.map fun v => if v = 0 then 0 else 1) } }
  touch

def floats (d : Device) (stage : Stage) (start : Nat) (buffer : List Binary32) :
    Nat × List Binary32 :=
  readRegisters 4 (d.registers.stage stage).floats start buffer

def ints (d : Device) (stage : Stage) (start : Nat) (buffer : List Int32) : Nat × List Int32 :=
  readRegisters 4 (d.registers.stage stage).ints start buffer

def bools (d : Device) (stage : Stage) (start : Nat) (buffer : List Int32) : Nat × List Int32 :=
  readRegisters 1 ((d.registers.stage stage).bools.map fun b => b.toNat.toInt32) start buffer

/-- Sets the bump environment of a texture stage: a matrix, a scale and an offset. Stages without
one are ignored. -/
def setBump (unit : Nat) (values : List Binary32) : DeviceM Unit := do
  if 1 ≤ unit ∧ unit ≤ bumpStageCount then
    modify fun d => { d with registers := d.registers.setBump unit values }
    touch

def maxUniforms (d : Device) (stage : Stage) : Int :=
  d.driver.integer <|
    if d.profile.isGlsl then
      match stage with
      | .vertex => maxVertexUniformsEnum
      | .pixel => maxFragmentUniformsEnum
    else maxParametersEnum

end Device

end ShaderPipeline
