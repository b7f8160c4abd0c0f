import ShaderPipeline.Assembly.Program
import ShaderPipeline.Bytecode.Reader
import ShaderPipeline.Glsl.Program
import ShaderPipeline.Lowering.Diagnostic
import ShaderPipeline.Preshader.Reader

/-!
# Lowered shaders

`LoweredShader.ofBytes` reads a shader, its constant table and its preshader, and writes it in the
language of a profile. It always gives a result: what went wrong is among the diagnostics, and the
text is empty whenever there are any.
-/

namespace ShaderPipeline

/-- A value that a shader defines for a constant register. -/
inductive ConstantValue where
  | float (v : Quad Binary32)
  | int (v : Quad Int32)
  | bool (b : Bool)
  deriving DecidableEq, Repr

/-- A constant register and its value. -/
structure Constant where
  index : Nat
  value : ConstantValue
  deriving DecidableEq, Repr

/-- A sampler of a shader. -/
structure Sampler where
  kind : SamplerKind
  index : Nat
  /-- Whether it is read through a bump environment. -/
  bump : Bool
  deriving DecidableEq, Repr

def Sampler.name (stage : Stage) (s : Sampler) : String := s!"{stage.tag}_s{s.index}"

/-- Everything known of a shader that was lowered. -/
structure LoweredShader where
  diagnostics : List Diagnostic
  profile : Profile
  output : String
  instructionCount : Nat
  /-- Missing when the stream could not be read. -/
  version : Option Version
  entry : String
  uniforms : List Uniform
  constants : List Constant
  samplers : List Sampler
  attributes : List Attribute
  outputs : List Attribute
  swizzles : List AttributeSwizzle
  symbols : List Symbol
  preshader : Option Preshader
  deriving DecidableEq, Repr

def Survey.constants (v : Survey) : List Constant :=
  v.floatDefs.map (fun (n, x) => ⟨n, .float x⟩) ++ v.intDefs.map (fun (n, x) => ⟨n, .int x⟩) ++
    v.boolDefs.map fun (n, x) => ⟨n, .bool x⟩

/-- What the comments of a shader hold. -/
structure Annexes where
  symbols : List Symbol
  preshader : Option Preshader
  /-- What could not be read, the last one first. -/
  diagnostics : List Diagnostic

namespace Annexes

def empty : Annexes := ⟨[], none, []⟩

def add (a : Annexes) (comment : List Word) : Annexes :=
  match comment with
  | [] => a
  | w :: rest =>
    if w = ConstantTable.tag then
      match ConstantTable.ofWords comment with
      | .ok t => { a with symbols := t.symbols }
      | .error e => { a with diagnostics := ⟨.table e, none⟩ :: a.diagnostics }
    else if w = Preshader.tag then
      match Preshader.ofWords rest with
      | .ok p => { a with preshader := some p }
      | .error e => { a with diagnostics := ⟨.preshader e, none⟩ :: a.diagnostics }
    else a

def ofShader (s : Shader) : Annexes := s.comments.foldl add empty

end Annexes

def Diagnostic.ofLocated (f : Located) : Diagnostic := ⟨.lowering f.1, f.2⟩

def writeShader (l : Layout) (is : List Instruction) : String × List Located :=
  if l.profile.isGlsl then
    let (p, faults) := Glsl.ofInstructions l is
    (p.text, faults)
  else
    let (p, faults) := Assembly.ofInstructions l is
    (p.text, faults)

namespace LoweredShader

def blank (profile : Profile) (options : Options) : LoweredShader where
  diagnostics := []
  profile := profile
  output := ""
  instructionCount := 0
  version := none
  entry := options.entry
  uniforms := []
  constants := []
  samplers := []
  attributes := []
  outputs := []
  swizzles := options.swizzles
  symbols := []
  preshader := none

def ofShader (profile : Profile) (options : Options) (s : Shader) : LoweredShader :=
  let annexes := Annexes.ofShader s
  let e : Surroundings := ⟨s.version, profile, options⟩
  let surveyed := Survey.ofInstructions e s.instructions
  let survey := surveyed.survey
  let l := Layout.ofSurvey e annexes.symbols survey
  let before :=
    annexes.diagnostics.reverse ++ surveyed.allFaults.map Diagnostic.ofLocated
  let (text, faults) := if before.isEmpty then writeShader l s.instructions else ("", [])
  let diagnostics := before ++ faults.map Diagnostic.ofLocated
  { diagnostics, profile
    output := if diagnostics.isEmpty then text else ""
    instructionCount := s.instructionCount
    version := some s.version
    entry := options.entry
    uniforms := l.uniforms
    constants := survey.constants
    samplers := survey.samplers.map fun (n, u) => ⟨u.kind, n, u.bump⟩
    attributes := l.attributes
    outputs := l.outputs
    swizzles := options.swizzles
    symbols := annexes.symbols
    preshader := annexes.preshader }

def ofBytes (profile : Profile) (options : Options) (bytes : Bytes) : LoweredShader :=
  match Shader.ofBytes bytes with
  | .ok s => ofShader profile options s
  | .error e =>
    { blank profile options with diagnostics := [⟨.decode e.fault, some e.position⟩] }

variable (s : LoweredShader)

def isOk : Bool := s.diagnostics.isEmpty

def stage? : Option Stage := s.version.map (·.stage)

def slots (s : LoweredShader) (kind : ValueKind) : Nat :=
  slotCount (s.uniforms.filter (·.kind == kind))

def bumpCount : Nat := s.samplers.countP (·.bump)

def usesPointSize : Bool :=
  s.outputs.any (·.semantic.usage == .pointSize)

end LoweredShader

end ShaderPipeline
