import ShaderPipeline.Device.Linking

/-!
# Drawing

Vertex attributes are declared for the bound program. Before a draw the device enables the arrays
that were declared, and sends the uniforms whose registers have changed.
-/

namespace ShaderPipeline.Device

/-- The component type of a vertex array. -/
inductive ComponentType where
  | byte
  | unsignedByte
  | short
  | unsignedShort
  | int
  | unsignedInt
  | float
  | double
  | halfFloat
  deriving DecidableEq, Repr

namespace ComponentType

def all : List ComponentType :=
  [byte, unsignedByte, short, unsignedShort, int, unsignedInt, float, double, halfFloat]

def name : ComponentType → String
  | byte => "Byte"
  | unsignedByte => "UnsignedByte"
  | short => "Short"
  | unsignedShort => "UnsignedShort"
  | int => "Int"
  | unsignedInt => "UnsignedInt"
  | float => "Float"
  | double => "Double"
  | halfFloat => "HalfFloat"

def ofName? (s : String) : Option ComponentType := all.find? (·.name == s)

def code (c : Capabilities) : ComponentType → Nat
  | byte => 0x1400
  | unsignedByte => 0x1401
  | short => 0x1402
  | unsignedShort => 0x1403
  | int => 0x1404
  | unsignedInt => 0x1405
  | float => 0x1406
  | double => 0x140A
  | halfFloat =>
    if c.has [.nvHalfFloat] || c.has [.arbHalfFloatVertex] then 0x140B
    else if c.has [.oesVertexHalfFloat] then 0x8D61
    else 0x140B

end ComponentType

def attributeArray? (d : Device) (s : Semantic) : Option Nat := do
  let p ← d.bound
  let _ ← p.vertex
  let location := p.attributeLocation s
  if 0 ≤ location then some location.toNat else none

/-- How the components of a vertex array are stored. -/
structure ArrayFormat where
  size : Int
  type : ComponentType
  normalized : Bool
  stride : Int
  offset : Nat
  deriving DecidableEq, Repr

/-- Declares the array of an attribute. Attributes that the program does not read are ignored. -/
def setAttribute (s : Semantic) (f : ArrayFormat) : DeviceM Unit := do
  let d ← get
  match d.attributeArray? s with
  | none => return
  | some i =>
    if i < d.wanted.size then
      emit (.vertexAttribPointer i f.size (f.type.code d.capabilities) f.normalized f.stride
        f.offset)
      modify fun d => { d with
        wanted := d.wanted.setIfInBounds i true
        trackedArrays := max d.trackedArrays (i + 1) }

/-- Sets the divisor of an attribute; one that is set already is not sent again. -/
def setDivisor (s : Semantic) (divisor : Nat) : DeviceOp Unit :=
  recording do
    let d ← get
    if !d.capabilities.has [.arbInstancedArrays] then
      throw (.missingExtension Extension.arbInstancedArrays.name)
    match d.attributeArray? s with
    | none => return
    | some i =>
      if i < d.divisors.size ∧ d.divisors.getD i 0 ≠ divisor then
        modify fun d => { d with divisors := d.divisors.setIfInBounds i divisor }
        emit (.vertexAttribDivisor i divisor)

/-- Lets shaders set the size of points, or not, as the program needs. -/
def updatePointSize (p : LinkedProgram) : DeviceM Unit := do
  if p.setsPointSize ≠ (← get).pointSize then
    emit (if p.setsPointSize then .enable pointSizeEnum else .disable pointSizeEnum)
    modify fun d => { d with pointSize := p.setsPointSize }

def uploads (d : Device) (p : LinkedProgram) (values : PerStage StageUniforms) : List Call :=
  if d.profile.isGlsl then p.glslUploads values
  else p.assemblyUploads (d.capabilities.has [.nvGpuProgram4]) values

/-- Sends the uniforms of a program if registers were written since the last time and one that it
reads has changed. -/
def updateUniforms (p : LinkedProgram) : DeviceM Unit := do
  let d ← get
  match d.store.shadows[p.id]? with
  | none => return
  | some shadow =>
    if p.hasUniforms && shadow.generation != d.generation then
      let (values, changed) := p.refresh d.registers shadow.values
      modifyStore fun s =>
        { s with shadows := s.shadows.setIfInBounds p.id ⟨d.generation, values⟩ }
      if changed then
        emitAll (uploads d p values)

def ready : DeviceM Unit := do
  match (← get).bound with
  | none => return
  | some p =>
    updateArrays
    updatePointSize p
    updateUniforms p

/-- The arrays that a program last sent, or is about to send. -/
def uniformValues? (d : Device) (p : LinkedProgram) : Option (PerStage StageUniforms) :=
  d.store.shadows[p.id]?.map (·.values)

end ShaderPipeline.Device
