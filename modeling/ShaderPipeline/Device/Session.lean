import ShaderPipeline.Device.Drawing
import ShaderPipeline.Device.Playback

/-!
# Sessions

A session keeps a device and, by their labels, the effects, programs and shaders that its user
holds. Storing under a label that is in use lets go of what was there, after the new thing is made.
-/

namespace ShaderPipeline

abbrev LabelTable (α : Type) := List (String × α)

def LabelTable.put {α : Type} (t : LabelTable α) (label : String) (a : α) : LabelTable α :=
  t.filter (·.1 != label) ++ [(label, a)]

def LabelTable.remove {α : Type} (t : LabelTable α) (label : String) : LabelTable α :=
  t.filter (·.1 != label)

/-- A device and what its user holds. -/
structure Session where
  device : Device
  effects : LabelTable Device.Playback
  programs : LabelTable Device.LinkedProgram
  shaders : LabelTable Device.CompiledShader

abbrev SessionM := StateM Session

namespace Session

open Device

def ofDevice (device : Device) : Session := ⟨device, [], [], []⟩

def onDevice {α : Type} (op : DeviceM α) : SessionM α := do
  let s ← get
  let (a, device) := op.run s.device
  set { s with device }
  return a

def changeDriver (f : Driver → Driver) : SessionM Unit :=
  onDevice (modify fun d => { d with driver := f d.driver })

def storeShader (label : String) (x : CompiledShader) : SessionM Unit := do
  let old := (← get).shaders.lookup label
  modify fun s => { s with shaders := s.shaders.put label x }
  onDevice (modifyStore fun s => s.dropShader? old)

def compile (label : String) (op : DeviceOp CompiledShader) :
    SessionM (Except DeviceError CompiledShader) := do
  match ← onDevice op.run with
  | .error e => return .error e
  | .ok x =>
    storeShader label x
    return .ok x

def link (label : String) (vertex pixel : Option CompiledShader) :
    SessionM (Except DeviceError LinkedProgram) := do
  match ← onDevice (Device.link vertex pixel).run with
  | .error e => return .error e
  | .ok p =>
    let old := (← get).programs.lookup label
    modify fun s => { s with programs := s.programs.put label p }
    onDevice (modifyStore fun s => s.dropProgram? old)
    return .ok p

def deleteShader (label : String) : SessionM Bool := do
  match (← get).shaders.lookup label with
  | none => return false
  | some x =>
    modify fun s => { s with shaders := s.shaders.remove label }
    onDevice (Device.deleteShader x)
    return true

def deleteProgram (label : String) : SessionM Bool := do
  match (← get).programs.lookup label with
  | none => return false
  | some p =>
    modify fun s => { s with programs := s.programs.remove label }
    onDevice (Device.deleteProgram p)
    return true

/-- Lets go of the shader and the program under a label, and tells whether there was one. The
device learns of it when it next collects. -/
def forget (label : String) : SessionM Bool := do
  let s ← get
  let shader := s.shaders.lookup label
  let program := s.programs.lookup label
  set { s with shaders := s.shaders.remove label, programs := s.programs.remove label }
  onDevice (modifyStore fun s => (s.dropShader? shader).dropProgram? program)
  return shader.isSome || program.isSome

def storeEffect (label : String) (p : Playback) : SessionM Unit := do
  let old := (← get).effects.lookup label
  modify fun s => { s with effects := s.effects.put label p }
  match old with
  | some old => onDevice (modifyStore old.drop)
  | none => return

def compileEffect (label : String) (e : Effect) : SessionM (Except DeviceError Unit) := do
  match ← onDevice (Device.compileEffect e).run with
  | .error e => return .error e
  | .ok p =>
    storeEffect label p
    return .ok ()

def deleteEffect (label : String) : SessionM Bool := do
  match (← get).effects.lookup label with
  | none => return false
  | some p =>
    modify fun s => { s with effects := s.effects.remove label }
    onDevice p.delete
    return true

/-- Runs a step of playing the effect under a label, if there is one. -/
def play {α : Type} (label : String) (m : PlaybackM α) :
    SessionM (Option (Except DeviceError α × Playback)) := do
  match (← get).effects.lookup label with
  | none => return none
  | some p =>
    let (r, p) ← onDevice (m.run.run p)
    modify fun s => { s with
      effects := s.effects.map fun e => if e.1 == label then (label, p) else e }
    return some (r, p)

/-- Lets go of effects, programs and shaders, and ends the device. -/
def close : SessionM Unit := do
  let s ← get
  set { s with effects := [], programs := [], shaders := [] }
  onDevice do
    modifyStore fun store =>
      let store := s.effects.foldl (fun st e => e.2.drop st) store
      let store := s.programs.foldl (fun st p => st.dropProgram p.2) store
      s.shaders.foldl (fun st x => st.dropShader x.2) store
    Device.close

end Session

end ShaderPipeline
