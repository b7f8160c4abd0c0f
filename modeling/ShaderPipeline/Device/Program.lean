import ShaderPipeline.Device.Call
import ShaderPipeline.Device.Registers
import ShaderPipeline.Lowering.Shader

/-!
# Compiled shaders and linked programs

A program joins a vertex and a pixel shader. It keeps a shadow of the uniform arrays it last sent;
`refresh` brings the shadow up to the register files and tells whether anything changed.
-/

namespace ShaderPipeline.Device

/-- A compiled shader. Shaders are told apart by their numbers, not by their names, which a driver
may give again. -/
structure CompiledShader where
  id : Nat
  /-- The driver's name for it. -/
  name : Nat
  stage : Stage
  code : LoweredShader
  deriving DecidableEq, Repr

/-- The names a program is made of; zero for a stage without a shader. -/
structure ProgramNames where
  program : Nat
  vertex : Nat
  pixel : Nat
  deriving DecidableEq, Repr, Inhabited

/-- Where the uniform arrays of a stage are; negative for one that is nowhere. -/
structure ArrayLocations where
  floats : Int
  ints : Int
  bools : Int
  deriving DecidableEq, Repr

def ArrayLocations.absent : ArrayLocations := ⟨-1, -1, -1⟩

def usageIndexCount : Nat := 16

/-- A linked program. -/
structure LinkedProgram where
  id : Nat
  names : ProgramNames
  vertex : Option CompiledShader
  pixel : Option CompiledShader
  /-- The uniforms fed from register files, vertex shader first. -/
  uniforms : List (Stage × Uniform)
  /-- The places of attributes, the last one found first. -/
  attributes : List (Semantic × Int)
  /-- Whether the vertex shader sets the size of points. -/
  setsPointSize : Bool
  bumpCount : Nat
  locations : PerStage ArrayLocations
  deriving DecidableEq, Repr

namespace LinkedProgram

/-- The place of an attribute; negative if it has none. -/
def attributeLocation (p : LinkedProgram) (s : Semantic) : Int := (p.attributes.lookup s).getD (-1)

def uses (p : LinkedProgram) (s : CompiledShader) : Bool :=
  p.vertex.any (·.id == s.id) || p.pixel.any (·.id == s.id)

def hasUniforms (p : LinkedProgram) : Bool := !p.uniforms.isEmpty || 0 < p.bumpCount

end LinkedProgram

/-- The uniform arrays of a stage. -/
structure StageUniforms where
  /-- Four floats a slot; bump environments come last, two slots each. -/
  floats : Array Binary32
  ints : Array Int32
  bools : Array Int32
  deriving DecidableEq, Repr

namespace StageUniforms

/-- The arrays of a stage without a shader. -/
def empty : StageUniforms := ⟨#[], #[], #[]⟩

def ofShader (s : LoweredShader) : StageUniforms where
  floats := Array.replicate (4 * (s.slots .float + 2 * s.bumpCount)) .zero
  ints := Array.replicate (4 * s.slots .int) 0
  bools := Array.replicate (s.slots .bool) 0

def ofShader? : Option CompiledShader → StageUniforms
  | some s => ofShader s.code
  | none => empty

/-- The first slot of the bump environments. -/
def bumpBase (u : StageUniforms) (bumpCount : Nat) : Nat := u.floats.size / 4 - 2 * bumpCount

end StageUniforms

/-- The next slot of each kind. -/
structure SlotCursor where
  float : Nat
  int : Nat
  bool : Nat
  deriving DecidableEq, Repr

namespace SlotCursor

/-- The first slots. -/
def start : SlotCursor := ⟨0, 0, 0⟩

def advance (c : SlotCursor) (kind : ValueKind) (n : Nat) : SlotCursor :=
  match kind with
  | .float => { c with float := c.float + n }
  | .int => { c with int := c.int + n }
  | .bool => { c with bool := c.bool + n }

end SlotCursor

/-- The cells from `start` up to `stop`, if the array has them all. -/
def cells? {α : Type} (file : Array α) (start stop : Nat) : Option (List α) :=
  if stop ≤ file.size then some (file.extract start stop).toList else none

/-- Writes values over cells that differ from them, if both are there, and tells whether that
happened. -/
def sync {α : Type} (same : α → α → Bool) (shadow : Array α) (start : Nat) :
    Option (List α) → Array α × Bool
  | none => (shadow, false)
  | some values =>
    match cells? shadow start (start + values.length) with
    | none => (shadow, false)
    | some old =>
      if (old.zip values).all fun (a, b) => same a b then (shadow, false)
      else (overwrite shadow start values, true)

def syncEach (shadow : Array Int32) (start : Nat) (values : List Int32) : Array Int32 × Bool :=
  let old := (shadow.extract start (start + values.length)).toList
  (overwrite shadow start values, (old.zip values).any fun (a, b) => a != b)

namespace StageUniforms

def refreshUniform (v : StageUniforms) (r : StageRegisters) (c : SlotCursor) (u : Uniform) :
    StageUniforms × Bool :=
  let n := u.width
  match u.kind with
  | .float =>
    let (floats, changed) := sync Binary32.numEq v.floats (4 * c.float)
      (cells? r.floats (4 * u.index) (4 * (u.index + n)))
    ({ v with floats }, changed)
  | .int =>
    let (ints, changed) := sync (· == ·) v.ints (4 * c.int)
      (cells? r.ints (4 * u.index) (4 * (u.index + n)))
    ({ v with ints }, changed)
  | .bool =>
    let values := (r.bools.extract u.index (u.index + n)).toList.map fun b => b.toNat.toInt32
    let (bools, changed) := syncEach v.bools c.bool values
    ({ v with bools }, changed)

/-- Brings bump environments up to those of the texture stages of samplers, from cell `start` on.
Samplers of other stages take no slot. -/
def refreshBump (files : RegisterFiles) : (start : Nat) → (samplers : List Sampler) →
    (v : StageUniforms) → StageUniforms × Bool
  | _, [], v => (v, false)
  | start, s :: rest, v =>
    if 1 ≤ s.index ∧ s.index ≤ bumpStageCount then
      let (floats, changed) := sync Binary32.numEq v.floats start
        (some (files.bumpOf s.index ++ [.zero, .zero]))
      let (v, later) := refreshBump files (start + 8) rest { v with floats }
      (v, changed || later)
    else refreshBump files start rest v

end StageUniforms

/-- The arrays of both stages as far as they have been brought up. -/
structure Refresh where
  values : PerStage StageUniforms
  cursors : PerStage SlotCursor
  changed : Bool

namespace Refresh

def step (files : RegisterFiles) (s : Refresh) (entry : Stage × Uniform) : Refresh :=
  let (stage, u) := entry
  let c := s.cursors.get stage
  let (v, changed) := (s.values.get stage).refreshUniform (files.stage stage) c u
  { values := s.values.set stage v
    cursors := s.cursors.set stage (c.advance u.kind u.width)
    changed := s.changed || changed }

end Refresh

def LinkedProgram.refresh (p : LinkedProgram) (files : RegisterFiles)
    (values : PerStage StageUniforms) : PerStage StageUniforms × Bool :=
  let s := p.uniforms.foldl (Refresh.step files) ⟨values, .both .start, false⟩
  match p.pixel with
  | some pixel =>
    if 0 < p.bumpCount then
      let v := s.values.get .pixel
      let (v, changed) := StageUniforms.refreshBump files (4 * v.bumpBase p.bumpCount)
        (pixel.code.samplers.filter (·.bump)) v
      (s.values.set .pixel v, s.changed || changed)
    else (s.values, s.changed)
  | none => (s.values, s.changed)

/-! ## Uploads -/

def stageUploads (l : ArrayLocations) (v : StageUniforms) : List Call :=
  (if 0 ≤ l.floats ∧ v.floats ≠ #[] then [.uniform4fv l.floats v.floats.toList] else []) ++
  (if 0 ≤ l.ints ∧ v.ints ≠ #[] then [.uniform4iv l.ints v.ints.toList] else []) ++
  (if 0 ≤ l.bools ∧ v.bools ≠ #[] then [.uniform1iv l.bools v.bools.toList] else [])

def LinkedProgram.glslUploads (p : LinkedProgram) (values : PerStage StageUniforms) : List Call :=
  stageUploads p.locations.vertex values.vertex ++ stageUploads p.locations.pixel values.pixel

def quadAt {α : Type} (default : α) (cells : Array α) (start : Nat) : Quad α :=
  match cells? cells start (start + 4) with
  | some xs => .ofList default xs
  | none => .splat default

/-- The call that sends integers to a local parameter. Where there are no integer parameters they
are sent as floats. -/
def intParameter (integers : Bool) (target index : Nat) (v : Quad Int32) : Call :=
  if integers then .localParameterI4iv target index v
  else .localParameter4fv target index (v.map Binary32.ofInt32)

/-- The call that sends slot `c` of a kind to a local parameter. -/
def parameterUpload (integers : Bool) (target index : Nat) (v : StageUniforms) (c : SlotCursor) :
    ValueKind → Call
  | .float => .localParameter4fv target index (quadAt .zero v.floats (4 * c.float))
  | .int => intParameter integers target index (quadAt 0 v.ints (4 * c.int))
  | .bool =>
    intParameter integers target index
      (.splat (if v.bools[c.bool]?.getD 0 = 0 then 0 else 1))

/-- The calls that send `count` slots of a kind to the local parameters from `index` on. -/
def parameterUploads (integers : Bool) (target : Nat) (v : StageUniforms) (kind : ValueKind) :
    (count index : Nat) → SlotCursor → List Call
  | 0, _, _ => []
  | count + 1, index, c =>
    parameterUpload integers target index v c kind ::
      parameterUploads integers target v kind count (index + 1) (c.advance kind 1)

/-- The calls that send uniforms to local parameters; a new stage starts from the first parameter
and the first slots again. -/
def uniformUploads (integers : Bool) (values : PerStage StageUniforms) :
    (stage : Option Stage) → (index : Nat) → SlotCursor → List (Stage × Uniform) → List Call
  | _, _, _, [] => []
  | stage, index, c, (s, u) :: rest =>
    let (index, c) := if stage = some s then (index, c) else (0, .start)
    parameterUploads integers (programTarget s) (values.get s) u.kind u.width index c ++
      uniformUploads integers values (some s) (index + u.width) (c.advance u.kind u.width) rest

def bumpUploads (v : StageUniforms) (bumpCount : Nat) : List Call :=
  let base := v.bumpBase bumpCount
  (List.range' base (v.floats.size / 4 - base)).map fun slot =>
    .localParameter4fv fragmentProgramEnum slot (quadAt .zero v.floats (4 * slot))

def LinkedProgram.assemblyUploads (p : LinkedProgram) (integers : Bool)
    (values : PerStage StageUniforms) : List Call :=
  uniformUploads integers values none 0 .start p.uniforms ++
    if 0 < p.bumpCount then bumpUploads values.pixel p.bumpCount else []

end ShaderPipeline.Device
