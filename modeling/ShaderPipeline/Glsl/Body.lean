import ShaderPipeline.Glsl.Statement
import ShaderPipeline.Glsl.Value

/-!
# The body of a shader

Instructions are written one after the other into functions: the entry function up to the first
label, then one function for each label. `BodyState` holds what has been written and which blocks
and functions are open. A fault at an instruction leaves its line out; the next instruction is
written all the same.
-/

namespace ShaderPipeline.Glsl

/-- An open loop. -/
inductive OpenLoop where
  /-- A counted loop with the step of its counter. -/
  | counted (depth : Nat) (step : Expr)
  | repeated

/-- What has been written so far. -/
structure BodyState where
  /-- The lines, the last one first. -/
  lines : List Line
  indent : Nat
  /-- The open loops, the innermost first. -/
  loops : List OpenLoop
  loopDepth : Nat
  repDepth : Nat
  /-- The blocks open in the current function. -/
  openBlocks : Nat
  mainOpen : Bool
  functionOpen : Bool

abbrev BodyM := ExceptT Fault (StateM BodyState)

namespace BodyState

def start (l : Layout) : BodyState where
  lines := [.openFunction l.options.entry]
  indent := 1
  loops := []
  loopDepth := 0
  repDepth := 0
  openBlocks := 0
  mainOpen := true
  functionOpen := false

def write (s : Statement) (b : BodyState) : BodyState :=
  { b with lines := .inside b.indent s :: b.lines }

def openWith (s : Statement) (b : BodyState) : BodyState :=
  let b := b.write s
  { b with indent := b.indent + 1, openBlocks := b.openBlocks + 1 }

def close (b : BodyState) : BodyState :=
  { b with indent := b.indent - 1, openBlocks := b.openBlocks - 1 }.write .closeBlock

def outputVariables (l : Layout) : List (Output × String) :=
  l.survey.outputs.filterMap fun o =>
    match Scope.outputName l.tag o.file o.index with
    | .ok name => some (o, name)
    | .error _ => none

/-- Outputs start at zero, so that those written in part are defined as a whole. -/
def prologue (l : Layout) (b : BodyState) : BodyState :=
  if l.version.isEarlyPixel then b
  else
    (outputVariables l).foldl
      (fun b o => b.write (.assign (.name o.2) (.splat .zero))) b

def outputCopy (l : Layout) (o : Output) : Statement :=
  let source : Expr :=
    if l.version.isEarlyPixel then .name "ps_r0"
    else
      match Scope.outputName l.tag o.file o.index with
      | .ok name => .name name
      | .error _ => .splat .zero
  let scalar := o.file = .depthOut ∨ o.semantic.usage = .pointSize
  .assign (.name (l.outputTarget o)) (if scalar then .select source [.x] else source)

def epilogue (l : Layout) (b : BodyState) : BodyState :=
  l.survey.outputs.foldl (fun b o => b.write (outputCopy l o)) b

def closeFunction (l : Layout) (b : BodyState) : BodyState :=
  let b :=
    if b.mainOpen then
      let b := b.epilogue l
      { b with lines := .closeFunction :: b.lines, mainOpen := false }
    else if b.functionOpen then
      { b with lines := .closeFunction :: b.lines, functionOpen := false }
    else b
  { b with indent := 1, openBlocks := 0 }

def openFunction (name : String) (b : BodyState) : BodyState :=
  { b with lines := .openFunction name :: b.lines, functionOpen := true }

def storeHeld (target predicate : Expr) (p : Source) (cs : List Component) (b : BodyState) :
    BodyState :=
  cs.foldl
    (fun b c =>
      let condition := Scope.inverted p.modifier (.select predicate [p.swizzle.get c])
      b.write (.assignIf condition (.select target [c]) (.select (.name heldName) [c]))) b

def scope (l : Layout) (b : BodyState) : Scope := ⟨l, b.loopDepth⟩

end BodyState

namespace BodyM

open BodyState

variable (l : Layout) (i : Instruction)

/-- Evaluates something that depends on the current place. -/
def inScope {α : Type} (f : Scope → Except Fault α) : BodyM α := do
  match f ((← get).scope l) with
  | .ok a => return a
  | .error fault => throw fault

def assign (l : Layout) (i : Instruction) (value : Expr) : BodyM Unit := do
  let d ← inScope l fun _ => i.needDst
  let kind := d.reg.file.valueKind
  let value := if kind = .float then resultValue i.result value else value
  let target ← inScope l (·.register d.reg)
  match i.predicate with
  | some p =>
    let predicate ← inScope l (·.register p.reg)
    modify fun b =>
      let b := b.write .openBlock
      let b := { b with indent := b.indent + 1 }.write (.hold kind value)
      let b := b.storeHeld target predicate p d.mask.components
      { b with indent := b.indent - 1 }.write .closeBlock
  | none =>
    if d.mask.isFull then
      modify (·.write (.assign target value))
    else
      let cs := d.mask.components
      modify (·.write (.assign (.select target cs) (value.pick cs)))

/-- The comparison of the first two sources. -/
def comparison : BodyM Expr :=
  inScope l fun s => do
    let c ← Scope.comparisonOf i
    return .binary (.compare c) (← s.scalarAt i 0) (← s.scalarAt i 1)

def conditionAt (n : Nat) : BodyM Expr :=
  inScope l fun s => do s.condition (← i.needSrc n)

/-- The function of the label in the first source. -/
def labelAt : BodyM String :=
  inScope l fun s => do return s!"{s.tag}_l{(← i.needSrc 0).reg.index}"

def openLoop : BodyM Unit := do
  let bounds ← inScope l (·.sourceAt i 1)
  modify fun b =>
    let depth := b.loopDepth
    let b := b.openWith .openBlock
    let b := b.write (.initCounter s!"{l.tag}_aL{depth}" (bounds.pick [.y]))
    let b := b.write (.openFor s!"{l.tag}_lc{depth}" bounds.x)
    { b with
      indent := b.indent + 1
      loops := .counted depth (bounds.pick [.z]) :: b.loops
      loopDepth := b.loopDepth + 1 }

def popLoop : BodyM (Option OpenLoop) := do
  let innermost := (← get).loops.head?
  modify fun b => { b with loops := b.loops.tail }
  return innermost

/-- Closes a counted loop after advancing its counter. -/
def closeLoop : BodyM Unit := do
  match ← popLoop with
  | some (.counted depth step) =>
    modify fun b =>
      let b := b.write (.advance s!"{l.tag}_aL{depth}" step)
      let b := { b with indent := b.indent - 1 }.write .closeBlock
      let b := b.close
      { b with loopDepth := b.loopDepth - 1 }
  | _ => throw .endLoopWithoutLoop

def openRep : BodyM Unit := do
  let count ← inScope l (·.sourceAt i 0)
  modify fun b =>
    let b := b.openWith (.openFor s!"{l.tag}_rc{b.repDepth}" count.x)
    { b with loops := .repeated :: b.loops, repDepth := b.repDepth + 1 }

def closeRep : BodyM Unit := do
  match ← popLoop with
  | some .repeated => modify fun b => { b.close with repDepth := b.repDepth - 1 }
  | _ => throw .endRepWithoutRep

/-- Returns early inside a block; otherwise the function ends here. -/
def ret (l : Layout) : BodyM Unit :=
  modify fun b =>
    if 0 < b.openBlocks then
      (if b.mainOpen then b.epilogue l else b).write .ret
    else b.closeFunction l

def instruction (l : Layout) (i : Instruction) : BodyM Unit := do
  match i.opcode with
  | .comment | .stop | .phase | .nop | .dcl | .defFloat | .defInt | .defBool => return
  | .texKill =>
    let e ← inScope l fun s => do s.register (← i.needDst).reg
    modify (·.write (.discardIf
      (.call .any [.call (.compare .lt) [e.xyz, .call .vec3 [.zero]]])))
  | .ifBool =>
    let c ← conditionAt l i 0
    modify (·.openWith (.openIf c))
  | .ifCompare =>
    let c ← comparison l i
    modify (·.openWith (.openIf c))
  | .orElse =>
    modify fun b =>
      let b := { b with indent := b.indent - 1 }.write .orElse
      { b with indent := b.indent + 1 }
  | .endIf => modify (·.close)
  | .loop => openLoop l i
  | .endLoop => closeLoop l
  | .rep => openRep l i
  | .endRep => closeRep
  | .breakAlways => modify (·.write .breakLoop)
  | .breakCompare =>
    let c ← comparison l i
    modify (·.write (.breakIf c))
  | .breakPredicate =>
    let c ← conditionAt l i 0
    modify (·.write (.breakIf c))
  | .call =>
    let f ← labelAt l i
    modify (·.write (.call f))
  | .callNonzero =>
    let f ← labelAt l i
    let c ← conditionAt l i 1
    modify (·.write (.callIf c f))
  | .label =>
    let f ← labelAt l i
    modify fun b => (b.closeFunction l).openFunction f
  | .ret => ret l
  | _ =>
    let v ← inScope l (·.value i)
    assign l i v

end BodyM

/-- The faults found so far, the last one first, and what has been written. -/
structure BodyProgress where
  faults : List Located
  body : BodyState

/-- Writes one instruction and adds the fault it stops at, if any. -/
def BodyProgress.step (l : Layout) (p : BodyProgress) (i : Instruction) : BodyProgress :=
  match (BodyM.instruction l i).run.run p.body with
  | (.ok _, b) => ⟨p.faults, b⟩
  | (.error fault, b) => ⟨(fault, some i.position) :: p.faults, b⟩

/-- Writes all instructions and closes the last function. -/
def writeBody (l : Layout) (is : List Instruction) : BodyProgress :=
  let p := is.foldl (BodyProgress.step l) ⟨[], (BodyState.start l).prologue l⟩
  ⟨p.faults, p.body.closeFunction l⟩

end ShaderPipeline.Glsl
