import ShaderPipeline.Layout.FlowControl
import ShaderPipeline.Numeric.Binary
import ShaderPipeline.Target.Options

/-!
# Survey of a shader's registers

One pass over the instructions records which registers are declared, defined and touched. A fault
at an instruction ends the survey of that instruction only: what was recorded up to the fault is
kept, and the next instruction is surveyed all the same.
-/

namespace ShaderPipeline

/-- A shader output and what it means. -/
structure Output where
  file : RegisterFile
  index : Nat
  semantic : Semantic
  deriving DecidableEq, Repr, Inhabited

def Output.key (o : Output) : Nat := o.file.rank * 2 ^ 32 + o.index

/-- A sampler: the shape of its texture, and whether it is read through a bump environment. -/
structure SamplerUse where
  kind : SamplerKind
  bump : Bool
  deriving DecidableEq, Repr, Inhabited

/-- Capabilities the generated text has to ask for. -/
structure Features where
  lit : Bool
  explicitLevel : Bool
  gradient : Bool
  derivatives : Bool
  depthOut : Bool
  multipleTargets : Bool
  deriving DecidableEq, Repr, Inhabited

/-- What is known of a shader's registers; every list is in increasing order of numbers. -/
structure Survey where
  temps : List Nat
  addresses : List Nat
  predicate : Bool
  /-- Texture registers of a pixel shader. -/
  textures : List Nat
  /-- Interpolated colors of a pixel shader before the third model. -/
  colors : List Nat
  /-- Declared inputs: vertex attributes, or interpolated values of the third pixel model. -/
  inputs : List (Nat × Semantic)
  outputs : List Output
  floatDefs : List (Nat × Quad Binary32)
  intDefs : List (Nat × Quad Int32)
  boolDefs : List (Nat × Bool)
  floatUsed : List Nat
  intUsed : List Nat
  boolUsed : List Nat
  samplers : List (Nat × SamplerUse)
  features : Features
  /-- The float registers that relative addresses start from, the last one first. -/
  relative : List Nat
  flow : FlowState
  deriving DecidableEq, Repr

/-- What the survey of a shader depends on besides its instructions. -/
structure Surroundings where
  version : Version
  profile : Profile
  options : Options
  deriving DecidableEq, Repr

/-- A step of a survey, which may stop at a fault and keeps what it recorded before. -/
abbrev SurveyM := ExceptT Fault (StateM Survey)

namespace Survey

def start : Survey where
  temps := []
  addresses := []
  predicate := false
  textures := []
  colors := []
  inputs := []
  outputs := []
  floatDefs := []
  intDefs := []
  boolDefs := []
  floatUsed := []
  intUsed := []
  boolUsed := []
  samplers := []
  features := ⟨false, false, false, false, false, false⟩
  relative := []
  flow := .start

/-- Stops at a fault if there is one. -/
def check {α : Type} : Except Fault α → SurveyM α
  | .ok a => pure a
  | .error fault => throw fault

def putOutput (file : RegisterFile) (index : Nat) (s : Semantic) (v : Survey) : Survey :=
  { v with outputs := putBy Output.key ⟨file, index, s⟩ v.outputs }

def output? (v : Survey) (file : RegisterFile) (index : Nat) : Option Output :=
  v.outputs.find? fun o => o.file == file && o.index == index

variable (e : Surroundings) (i : Instruction)

def declare : SurveyM Unit := do
  match i.dst?, i.declaration with
  | some d, some decl =>
    let n := d.reg.index
    match decl, d.reg.file with
    | .texture kind, .sampler =>
      modify fun v => { v with samplers := putAt n ⟨kind, false⟩ v.samplers }
    | .usage s, .input =>
      if e.version.stage = .vertex ∨ e.version.major = 3 then
        modify fun v => { v with inputs := putAt n s v.inputs }
      else
        modify fun v => { v with colors := putNumber n v.colors }
    | .usage _, .texture => modify fun v => { v with textures := putNumber n v.textures }
    | .usage s, .output => modify (putOutput .output n s)
    | .usage _, .miscType => return
    | decl, file => throw (.cannotDeclare file decl)
  | _, _ => throw (.noDestination i.opcode)

/-- Records the address register behind a relative access; only float constants can be accessed
so. -/
def noteRelative (r : RegisterRef) : SurveyM Unit := do
  if let some a := r.relative then
    match a.file with
    | .addr => modify fun v => { v with addresses := putNumber a.index v.addresses }
    | .loop => pure ()
    | file => throw (.relativeThrough file)
    if r.file ≠ .const then
      throw (.unsupported (.relativeFile r.file) e.profile)

def noteInput (n : Nat) : SurveyM Unit := do
  if e.version.stage = .vertex ∨ e.version.major = 3 then
    if ((← get).inputs.lookup n).isNone then
      throw (.inputWithoutDeclaration n)
  else
    modify fun v => { v with colors := putNumber n v.colors }

def rasterUsage (n : Nat) : Except Fault Usage :=
  match n with
  | 0 => .ok .position
  | 1 => .ok .fog
  | 2 => .ok .pointSize
  | n => .error (.unknownRasterOutput n)

def noteFile (r : RegisterRef) : SurveyM Unit := do
  let n := r.index
  match r.file with
  | .temp => modify fun v => { v with temps := putNumber n v.temps }
  | .input => noteInput e n
  | .const =>
    if r.relative.isSome then
      modify fun v => { v with relative := n :: v.relative }
    else
      modify fun v => { v with floatUsed := putNumber n v.floatUsed }
  | .addr => modify fun v => { v with addresses := putNumber n v.addresses }
  | .texture => modify fun v => { v with textures := putNumber n v.textures }
  | .rastOut =>
    let u ← check (rasterUsage n)
    modify (putOutput .rastOut n ⟨u, 0⟩)
  | .attrOut => modify (putOutput .attrOut n ⟨.color, n⟩)
  | .texCoordOut => modify (putOutput .texCoordOut n ⟨.texCoord, n⟩)
  | .output =>
    if ((← get).output? .output n).isNone then
      throw (.outputWithoutDeclaration n)
  | .colorOut =>
    if 0 < n then
      modify fun v => { v with features := { v.features with multipleTargets := true } }
    modify (putOutput .colorOut n ⟨.color, n⟩)
  | .depthOut =>
    modify fun v => { v with features := { v.features with depthOut := true } }
    modify (putOutput .depthOut n ⟨.depth, 0⟩)
  | .constInt => modify fun v => { v with intUsed := putNumber n v.intUsed }
  | .constBool => modify fun v => { v with boolUsed := putNumber n v.boolUsed }
  | .predicate => modify fun v => { v with predicate := true }
  | .miscType | .sampler | .loop | .label => return

def noteRead (r : RegisterRef) : SurveyM Unit := do
  noteRelative e r
  noteFile e r

def noteWrite (r : RegisterRef) : SurveyM Unit := do
  noteRelative e r
  noteFile e r
  if r.file = .const ∨ r.file = .constInt ∨ r.file = .constBool then
    throw .constantWrite

def noteOperand : Operand → SurveyM Unit
  | .dst d => noteWrite e d.reg
  | .src s => noteRead e s.reg
  | .imm _ => return

def noteReads (e : Surroundings) : List RegisterRef → SurveyM Unit
  | [] => return
  | r :: rest => do
    noteRead e r
    noteReads e rest

def noteOperands (e : Surroundings) : List Operand → SurveyM Unit
  | [] => return
  | o :: rest => do
    noteOperand e o
    noteOperands e rest

def impliedReads : List RegisterRef :=
  match i.src? 1 with
  | none => []
  | some s => (List.range i.opcode.extraRows).map fun k => s.reg.shift (k + 1)

/-- Whether an opcode of the first pixel models samples the texture of its own register number. -/
def samplesOwnStage : Opcode → Bool
  | .tex | .texBem | .texBemL | .texReg2Ar | .texReg2Gb | .texReg2Rgb | .texM3x2Tex | .texM3x3Tex
  | .texM3x3Spec | .texM3x3VSpec | .texDp3Tex => true
  | _ => false

/-- The shape assumed for a texture that is not declared. -/
def assumedKind : Opcode → SamplerKind
  | .texM3x3Tex | .texM3x3Spec | .texM3x3VSpec => .cube
  | _ => .flat

def isBump : Opcode → Bool
  | .texBem | .texBemL => true
  | _ => false

/-- Records the sampler of a texture read. From the second model on it must be declared; before,
the first read decides its shape. -/
def noteSampler : SurveyM Unit := do
  if !e.version.isEarlyPixel && (i.opcode = .tex || i.opcode = .texLdl || i.opcode = .texLdd) then
    let s ← check (i.needSrc 1)
    if ((← get).samplers.lookup s.reg.index).isNone then
      throw (.samplerWithoutDeclaration s.reg.index)
  else if samplesOwnStage i.opcode then
    let d ← check i.needDst
    let n := d.reg.index
    let fresh : SamplerUse := ⟨(e.options.samplerKind? n).getD (assumedKind i.opcode), false⟩
    let old := ((← get).samplers.lookup n).getD fresh
    let use : SamplerUse := { old with bump := old.bump || isBump i.opcode }
    modify fun v => { v with samplers := putAt n use v.samplers }

def noteFeature (op : Opcode) (f : Features) : Features :=
  match op with
  | .lit => { f with lit := true }
  | .dsx | .dsy => { f with derivatives := true }
  | .texLdl => { f with explicitLevel := true }
  | .texLdd => { f with gradient := true }
  | _ => f

/-- Records a literal definition. A later definition of a register replaces an earlier one. -/
def define : SurveyM Unit := do
  let d ← check i.needDst
  let n := d.reg.index
  let q := Quad.ofList 0 i.immediates
  match i.opcode with
  | .defFloat => modify fun v => { v with floatDefs := putAt n (q.map Binary32.mk) v.floatDefs }
  | .defInt => modify fun v => { v with intDefs := putAt n (q.map Int32.ofUInt32) v.intDefs }
  | .defBool => modify fun v => { v with boolDefs := putAt n (q.x != 0) v.boolDefs }
  | _ => return

def noteFlow : SurveyM Unit := do
  let (fault, flow) := (← get).flow.step i
  modify fun v => { v with flow }
  if let some fault := fault then
    throw fault

/-- Surveys one instruction that is no declaration. -/
def scan (e : Surroundings) (i : Instruction) : SurveyM Unit := do
  if i.opcode = .defFloat ∨ i.opcode = .defInt ∨ i.opcode = .defBool then
    define i
  else
    noteFlow i
    if i.opcode.isDeclaration ∨ i.opcode = .nop ∨ i.opcode = .label then
      return
    modify fun v => { v with features := noteFeature i.opcode v.features }
    noteSampler e i
    noteReads e (i.predicate.map (·.reg)).toList
    noteOperands e i.operands
    noteReads e (impliedReads i)

/-- The faults found so far, each with the position of its instruction and the last one first, and
what is known. -/
structure Progress where
  faults : List (Fault × Nat)
  survey : Survey

/-- Runs a step for an instruction and adds the fault it stops at, if any. -/
def Progress.run (p : Progress) (i : Instruction) (step : SurveyM Unit) : Progress :=
  match step.run.run p.survey with
  | (.ok _, v) => ⟨p.faults, v⟩
  | (.error fault, v) => ⟨(fault, i.position) :: p.faults, v⟩

def declarations (is : List Instruction) (p : Progress) : Progress :=
  (is.filter (·.opcode = .dcl)).foldl (fun p i => p.run i (declare e i)) p

def instructions (e : Surroundings) (is : List Instruction) (p : Progress) : Progress :=
  is.foldl (fun p i => p.run i (scan e i)) p

/-- The color of the first pixel models, which is left in the first temporary. -/
def implicitOutput (v : Survey) : Survey :=
  if e.version.isEarlyPixel then
    putOutput .colorOut 0 ⟨.color, 0⟩ { v with temps := putNumber 0 v.temps }
  else v

def ofInstructions (is : List Instruction) : Progress :=
  let declared := declarations e is ⟨[], .start⟩
  instructions e is ⟨declared.faults, implicitOutput e declared.survey⟩

end Survey

/-- A fault with the position it is reported at, if it has one. -/
abbrev Located := Fault × Option Nat

def Survey.Progress.allFaults (p : Survey.Progress) : List Located :=
  let flow := p.survey.flow
  let openBlocks : List Located :=
    if flow.blocks.isEmpty then [] else [(.unterminatedBlocks flow.blocks.length, none)]
  let undefinedCalls : List Located :=
    (flow.calls.reverse.filter fun c => !flow.labels.contains c.1).map fun c =>
      (.undefinedLabel c.1, some c.2)
  p.faults.reverse.map (fun f => (f.1, some f.2)) ++ openBlocks ++ undefinedCalls

end ShaderPipeline
