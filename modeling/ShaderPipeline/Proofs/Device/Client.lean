import ShaderPipeline.Proofs.Device.Effects

/-!
# Clients of a device

A client keeps a device and the handles it was given: one entry of a list for each handle it
holds. `Client.perform` answers a request, and `Client.Allows` says which requests a client can
make at all: it can only pass on what it holds. Runs of a device are the runs of its clients
(`Client.Run`); they go on through failed requests.

A client may take another handle of anything it can reach, and may let go of a handle without
telling the device.
-/

namespace ShaderPipeline.Device

open Device

/-- A device and the handles its user holds. -/
structure Client where
  device : Device
  shaders : List CompiledShader
  programs : List LinkedProgram

/-- What a client can ask for. -/
inductive Request where
  | compile (bytes : Bytes) (options : Options)
  | compileLowered (code : LoweredShader)
  | link (vertex pixel : Option CompiledShader)
  | bind (program : Option LinkedProgram)
  | bindShaders (vertex pixel : Option CompiledShader)
  | deleteShader (shader : CompiledShader)
  | deleteProgram (program : LinkedProgram)
  | setFloats (stage : Stage) (start : Nat) (values : List Binary32)
  | setInts (stage : Stage) (start : Nat) (values : List Int32)
  | setBools (stage : Stage) (start : Nat) (values : List Int32)
  | setBump (unit : Nat) (matrix : Quad Binary32) (scale offset : Binary32)
  | setAttribute (semantic : Semantic) (format : ArrayFormat)
  | setDivisor (semantic : Semantic) (divisor : Nat)
  | ready
  | shareShader (shader : CompiledShader)
  | shareProgram (program : LinkedProgram)
  | dropShader (shader : CompiledShader)
  | dropProgram (program : LinkedProgram)

namespace Request

def isWrite : Request → Bool
  | setFloats .. | setInts .. | setBools .. => true
  | setBump unit .. => 1 ≤ unit ∧ unit ≤ bumpStageCount
  | _ => false

def Staged : Request → Prop
  | link vertex pixel | bindShaders vertex pixel =>
    (∀ s ∈ vertex, s.stage = .vertex) ∧ ∀ s ∈ pixel, s.stage = .pixel
  | _ => True

end Request

namespace Client

def new (d : Device) : Client := ⟨d, [], []⟩

variable (c : Client)

def references : List LinkedProgram :=
  c.programs ++ c.device.linkCache.map (·.2) ++ c.device.bound.toList

def Allows : Request → Prop
  | .link vertex pixel | .bindShaders vertex pixel =>
    (∀ s ∈ vertex, s ∈ c.shaders) ∧ ∀ s ∈ pixel, s ∈ c.shaders
  | .bind program => ∀ p ∈ program, p ∈ c.programs
  | .deleteShader s | .dropShader s => s ∈ c.shaders
  | .deleteProgram p | .dropProgram p => p ∈ c.programs
  | .shareShader s => s ∈ c.shaders ∨ ∃ p ∈ c.references, p.vertex = some s ∨ p.pixel = some s
  | .shareProgram p => p ∈ c.references
  | _ => True

/-- Keeps the shader that an operation gave, if any. -/
def keepShader : Except DeviceError CompiledShader × Device → Client
  | (.ok s, d) => { c with device := d, shaders := s :: c.shaders }
  | (.error _, d) => { c with device := d }

/-- Keeps the program that an operation gave, if any. -/
def keepProgram : Except DeviceError LinkedProgram × Device → Client
  | (.ok p, d) => { c with device := d, programs := p :: c.programs }
  | (.error _, d) => { c with device := d }

def perform : Request → Client
  | .compile bytes options => c.keepShader ((compile bytes options).run.run c.device)
  | .compileLowered code => c.keepShader ((compileLowered code).run.run c.device)
  | .link vertex pixel => c.keepProgram ((link vertex pixel).run.run c.device)
  | .bind p => { c with device := ((bind p).run c.device).2 }
  | .bindShaders vertex pixel =>
    { c with device := ((bindShaders vertex pixel).run.run c.device).2 }
  | .deleteShader s =>
    { c with device := ((deleteShader s).run c.device).2, shaders := c.shaders.erase s }
  | .deleteProgram p =>
    { c with device := ((deleteProgram p).run c.device).2, programs := c.programs.erase p }
  | .setFloats stage start values =>
    { c with device := ((setFloats stage start values).run c.device).2 }
  | .setInts stage start values =>
    { c with device := ((setInts stage start values).run c.device).2 }
  | .setBools stage start values =>
    { c with device := ((setBools stage start values).run c.device).2 }
  | .setBump unit matrix scale offset =>
    { c with device := ((setBump unit (matrix.toList ++ [scale, offset])).run c.device).2 }
  | .setAttribute semantic format =>
    { c with device := ((setAttribute semantic format).run c.device).2 }
  | .setDivisor semantic divisor =>
    { c with device := ((setDivisor semantic divisor).run.run c.device).2 }
  | .ready => { c with device := (ready.run c.device).2 }
  | .shareShader s =>
    { c with
      device := c.device.withStore (c.device.store.holdShader s)
      shaders := s :: c.shaders }
  | .shareProgram p =>
    { c with
      device := c.device.withStore (c.device.store.holdProgram p)
      programs := p :: c.programs }
  | .dropShader s =>
    { c with
      device := c.device.withStore (c.device.store.dropShader s)
      shaders := c.shaders.erase s }
  | .dropProgram p =>
    { c with
      device := c.device.withStore (c.device.store.dropProgram p)
      programs := c.programs.erase p }

/-- The clients that a run of requests leads to, from a new device on. -/
inductive Run (d : Device) : List Request → Client → Prop
  | start : Run d [] (.new d)
  | step {requests : List Request} {c : Client} (before : Run d requests c) (r : Request)
      (allowed : c.Allows r) : Run d (requests ++ [r]) (c.perform r)

end Client

end ShaderPipeline.Device
