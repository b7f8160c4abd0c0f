import ShaderPipeline.Device.Linking
import ShaderPipeline.Device.Parameters
import ShaderPipeline.Effect.Catalogue
import ShaderPipeline.Effect.Cursor
import ShaderPipeline.Preshader.Run

/-!
# Playing effects on a device

The shaders of an effect are compiled once. A pass binds its shaders and copies the parameters that
feed them into the registers. Where a pass names an array of shaders, a preshader chooses one.
-/

namespace ShaderPipeline

namespace Device

/-- An effect whose shaders are compiled. -/
structure Playback where
  effect : Effect
  /-- The compiled shaders, by the numbers of their objects. -/
  shaders : List (Nat × CompiledShader)
  /-- The objects that choose a shader. -/
  selectors : List Nat
  /-- The shaders to be bound. -/
  current : PerStage (Option CompiledShader)
  /-- The objects that the pass names. -/
  named : PerStage (Option Nat)
  /-- The objects in use, after selectors have chosen. -/
  selected : PerStage (Option Nat)
  /-- The program that was bound when playing began. -/
  saved : Option LinkedProgram
  /-- Whether the end of playing binds the saved program again. -/
  restores : Bool
  active : Bool
  deriving DecidableEq, Repr

/-- What a pass changes besides shaders. -/
structure StateChanges where
  states : List Effect.State
  samplers : PerStage (List Effect.SamplerLink)
  deriving DecidableEq, Repr

/-! ## Compiling -/

def deleteShaders : List (Nat × CompiledShader) → DeviceM Unit
  | [] => return
  | (_, s) :: rest => do
    deleteShader s
    deleteShaders rest

/-- Compiles the shaders of objects, which are counted from `index`. If one fails, those compiled
before are deleted. -/
def compileObjects : (objects : List Effect.Object) → (index : Nat) →
    (shaders : List (Nat × CompiledShader)) → DeviceOp (List (Nat × CompiledShader))
  | [], _, shaders => return shaders
  | o :: rest, index, shaders =>
    match o.type.isShader, o.shader?.bind (·.lowered?) with
    | true, some code =>
      ExceptT.mk do
        match ← (compileLowered code).run with
        | .ok s => (compileObjects rest (index + 1) (shaders ++ [(index, s)])).run
        | .error e =>
          deleteShaders shaders
          return .error e
    | _, _ => compileObjects rest (index + 1) shaders

def selectorObjects (objects : List Effect.Object) : List Nat :=
  (objects.zipIdx.filter fun (o, _) => o.type.isShader && o.shader?.any (·.isSelector)).map (·.2)

def compileEffect (effect : Effect) : DeviceOp Playback := do
  let shaders ← compileObjects effect.objects.toList 0 []
  return {
    effect, shaders
    selectors := selectorObjects effect.objects.toList
    current := .both none
    named := .both none
    selected := .both none
    saved := none
    restores := false
    active := false }

/-! ## Holding -/

def Store.dropShaders (s : Store) (shaders : List (Nat × CompiledShader)) : Store :=
  shaders.foldl (fun s x => s.dropShader x.2) s

namespace Playback

def dropCurrent (p : Playback) (s : Store) : Store :=
  ((s.dropShader? p.current.vertex).dropShader? p.current.pixel).dropProgram? p.saved

def drop (p : Playback) (s : Store) : Store := p.dropCurrent (s.dropShaders p.shaders)

/-- Deletes the compiled shaders, and lets go of the rest. -/
def delete (p : Playback) : DeviceM Unit := do
  deleteShaders p.shaders
  modifyStore p.dropCurrent

def shader? (p : Playback) (object : Nat) : Option CompiledShader := p.shaders.lookup object

end Playback

/-- A step of playing an effect; what it did before it failed stays done. -/
abbrev PlaybackM := ExceptT DeviceError (StateT Playback DeviceM)

namespace PlaybackM

def device {α : Type} (op : DeviceOp α) : PlaybackM α :=
  ExceptT.mk fun p => do return (← op.run, p)

def usage {α : Type} : Except Effect.UsageError α → PlaybackM α
  | .ok a => return a
  | .error e => throw (.effect e)

def setCurrent (stage : Stage) (s : Option CompiledShader) : PlaybackM Unit := do
  let old := (← get).current.get stage
  device (modifyStore fun store => (store.holdShader? s).dropShader? old)
  modify fun p => { p with current := p.current.set stage s }

/-- Takes over the shaders of the bound program, so that stages which a pass leaves alone keep
them. -/
def adoptBound : PlaybackM Unit := do
  match (← device get).bound with
  | none => return
  | some b =>
    let old := (← get).current
    device (modifyStore fun s =>
      (((s.holdShader? b.vertex).holdShader? b.pixel).dropShader? old.vertex).dropShader?
        old.pixel)
    modify fun p => { p with current := ⟨b.vertex, b.pixel⟩ }

/-! ## Selectors -/

def selectorRows (columns : Nat) : (registers : Array Binary32) → (start : Nat) →
    (words : List Word) → Array Binary32
  | r, start, a :: b :: c :: d :: rest =>
    selectorRows columns (overwrite r start (([a, b, c, d].take columns).map Binary32.mk))
      (start + 4) rest
  | r, _, _ => r

/-- Feeds the input registers of a selector. A parameter without words stops it. -/
def feedSelector (params : List Effect.Param) : (links : List (Symbol × Nat)) →
    (registers : Array Binary32) → Array Binary32 × Except Effect.UsageError Unit
  | [], r => (r, .ok ())
  | (s, n) :: rest, r =>
    match params[n]? with
    | none => feedSelector params rest r
    | some p =>
      match p.value.words with
      | .error e => (r, .error e)
      | .ok ws =>
        feedSelector params rest (selectorRows (min p.value.info.columns 4) r (4 * s.index) ws)

def shaderObject? (e : Effect) (object : Nat) : Option Effect.ShaderObject :=
  e.objects[object]?.bind (·.shader?)

def setPreshader (object : Nat) (x : Effect.ShaderObject) (p : Preshader) : PlaybackM Unit :=
  modify fun b => { b with effect := { b.effect with
    objects := b.effect.objects.modify object fun o =>
      { o with data := .shader (x.withPreshader p) } } }

def runSelector (object : Nat) : PlaybackM Nat := do
  let e := (← get).effect
  match shaderObject? e object with
  | none => throw (.notAShader object)
  | some x =>
    match x.code with
    | .shader _ => throw (.notAShader object)
    | .selector pre =>
      let (registers, fed) :=
        feedSelector e.params (pre.symbols.zip x.preshaderParams) pre.registers
      let pre := { pre with registers }
      setPreshader object x pre
      usage fed
      let (failure, out) := pre.run (Array.replicate 4 .zero)
      match failure with
      | some f => throw (.preshader f)
      | none => pure ()
      let choice := out.getD 0 .zero
      match x.params.head?.bind (e.params[·]?) with
      | none => throw (.notAShader object)
      | some array =>
        let objects ← usage array.value.objects
        match objects[choice.toIndex]? with
        | some w => return w.toNat
        | none => throw (.selectorOutOfRange choice objects.length)

/-! ## Passes -/

def select (stage : Stage) : PlaybackM Bool := do
  let p ← get
  match p.named.get stage with
  | none =>
    set { p with selected := p.selected.set stage none }
    return false
  | some object =>
    if !p.selectors.contains object then
      set { p with selected := p.selected.set stage (some object) }
      return false
    let chosen ← runSelector object
    modify fun p => { p with selected := p.selected.set stage (some chosen) }
    match (← get).shader? chosen with
    | some s => setCurrent stage (some s)
    | none => pure ()
    return true

def bindCurrent : PlaybackM Unit := do
  let current := (← get).current
  device (bindShaders current.vertex current.pixel)

def modifyRegisters (stage : Stage) (f : StageRegisters → StageRegisters) : PlaybackM Unit :=
  device (modify fun d => { d with registers := d.registers.modifyStage stage f })

def feed (stage : Stage) : PlaybackM Unit := do
  let p ← get
  match p.selected.get stage with
  | none => return
  | some object =>
    match shaderObject? p.effect object with
    | none => return
    | some x =>
      match x.code with
      | .selector _ => return
      | .shader code =>
        modifyRegisters stage (·.copyParameters p.effect.params x.params code.symbols)
        match code.preshader with
        | none => return
        | some pre =>
          let fed := copyParameters p.effect.params x.preshaderParams pre.symbols
            ⟨pre.registers, none, none⟩
          let pre := { pre with registers := fed.floats }
          setPreshader object x pre
          let floats := ((← device get).registers.stage stage).floats
          let (failure, floats) := pre.run floats
          modifyRegisters stage fun r => { r with floats }
          match failure with
          | some f => throw (.preshader f)
          | none => return

def commit : PlaybackM Unit := do
  let vertex ← select .vertex
  let pixel ← select .pixel
  if vertex || pixel then
    bindCurrent
  feed .vertex
  feed .pixel
  device touch

def boundStage? (code : Nat) : Option Stage :=
  if code = Effect.vertexShaderState then some .vertex
  else if code = Effect.pixelShaderState then some .pixel
  else none

def applyStates : List Effect.State → PlaybackM Bool
  | [] => return false
  | s :: rest => do
    let p ← get
    let mut selects := false
    match boundStage? s.code, s.value.firstWord? with
    | some stage, some w =>
      let object := w.toNat
      match p.shader? object with
      | some x =>
        modify fun p => { p with named := p.named.set stage (some object) }
        setCurrent stage (some x)
      | none =>
        if p.selectors.contains object then
          modify fun p => { p with named := p.named.set stage (some object) }
          selects := true
    | _, _ => pure ()
    return (← applyStates rest) || selects

def beginPass (pass : Nat) : PlaybackM Unit := do
  adoptBound
  let (pass, effect) ← usage ((← get).effect.beginPass pass)
  modify fun p => { p with effect }
  let selects ← applyStates pass.states
  if !selects then
    bindCurrent
  commit

def endPass : PlaybackM Unit := do
  let effect ← usage (← get).effect.endPass
  modify fun p => { p with effect }

/-- Begins playing and gives the number of passes. The bound program can be saved, so that the end
binds it again. -/
def start (save : Bool) : PlaybackM Nat := do
  if save then
    let bound := (← device get).bound
    let old := (← get).saved
    device (modifyStore fun s => (s.holdProgram? bound).dropProgram? old)
    modify fun p => { p with saved := bound }
  modify fun p => { p with restores := save, active := true }
  return (← get).effect.passCount

def stop : PlaybackM Unit := do
  let p ← get
  if p.restores then
    set { p with restores := false, saved := none }
    device (bindHeld p.saved)
  modify fun p => { p with active := false }

end PlaybackM

namespace Playback

def samplers (p : Playback) (stage : Stage) : List Effect.SamplerLink :=
  match (p.selected.get stage).bind (PlaybackM.shaderObject? p.effect) with
  | some x => x.samplers
  | none => []

def changes? (p : Playback) : Option StateChanges :=
  if p.active then
    some {
      states := p.effect.currentPass?.elim [] (·.states)
      samplers := ⟨p.samplers .vertex, p.samplers .pixel⟩ }
  else none

end Playback

end Device

end ShaderPipeline
