import ShaderPipeline.Device.Driver
import ShaderPipeline.Device.Error
import ShaderPipeline.Text.Blank

/-!
# What a driver can do

`Capabilities.ofDriver` reads the versions and extensions of a driver. A profile can be used if
what it needs is there; of the profiles that can be used the best comes first.
-/

namespace ShaderPipeline.Device

/-- An extension that matters to the device. -/
inductive Extension where
  | arbVertexProgram
  | arbFragmentProgram
  | nvVertexProgram2Option
  | nvFragmentProgram2
  | nvVertexProgram3
  | nvGpuProgram4
  | arbShaderObjects
  | arbVertexShader
  | arbFragmentShader
  | arbShadingLanguage100
  | nvHalfFloat
  | arbHalfFloatVertex
  | oesVertexHalfFloat
  | arbInstancedArrays
  deriving DecidableEq, Repr

namespace Extension

def all : List Extension :=
  [arbVertexProgram, arbFragmentProgram, nvVertexProgram2Option, nvFragmentProgram2,
    nvVertexProgram3, nvGpuProgram4, arbShaderObjects, arbVertexShader, arbFragmentShader,
    arbShadingLanguage100, nvHalfFloat, arbHalfFloatVertex, oesVertexHalfFloat,
    arbInstancedArrays]

def title : Extension → String
  | arbVertexProgram => "ARB_VERTEX_PROGRAM"
  | arbFragmentProgram => "ARB_FRAGMENT_PROGRAM"
  | nvVertexProgram2Option => "NV_VERTEX_PROGRAM2_OPTION"
  | nvFragmentProgram2 => "NV_FRAGMENT_PROGRAM2"
  | nvVertexProgram3 => "NV_VERTEX_PROGRAM3"
  | nvGpuProgram4 => "NV_GPU_PROGRAM4"
  | arbShaderObjects => "ARB_SHADER_OBJECTS"
  | arbVertexShader => "ARB_VERTEX_SHADER"
  | arbFragmentShader => "ARB_FRAGMENT_SHADER"
  | arbShadingLanguage100 => "ARB_SHADING_LANGUAGE_100"
  | nvHalfFloat => "NV_HALF_FLOAT"
  | arbHalfFloatVertex => "ARB_HALF_FLOAT_VERTEX"
  | oesVertexHalfFloat => "OES_VERTEX_HALF_FLOAT"
  | arbInstancedArrays => "ARB_INSTANCED_ARRAYS"

def name : Extension → String
  | arbVertexProgram => "GL_ARB_vertex_program"
  | arbFragmentProgram => "GL_ARB_fragment_program"
  | nvVertexProgram2Option => "GL_NV_vertex_program2_option"
  | nvFragmentProgram2 => "GL_NV_fragment_program2"
  | nvVertexProgram3 => "GL_NV_vertex_program3"
  | nvGpuProgram4 => "GL_NV_gpu_program4"
  | arbShaderObjects => "GL_ARB_shader_objects"
  | arbVertexShader => "GL_ARB_vertex_shader"
  | arbFragmentShader => "GL_ARB_fragment_shader"
  | arbShadingLanguage100 => "GL_ARB_shading_language_100"
  | nvHalfFloat => "GL_NV_half_float"
  | arbHalfFloatVertex => "GL_ARB_half_float_vertex"
  | oesVertexHalfFloat => "GL_OES_vertex_half_float"
  | arbInstancedArrays => "GL_ARB_instanced_arrays"

def ofName? (s : String) : Option Extension := all.find? (·.name == s)

def flag (e : Extension) : Nat := 2 ^ all.idxOf e

def ofFlags (n : Nat) : List Extension := all.filter fun e => n / e.flag % 2 == 1

def flags (es : List Extension) : Nat := (es.map flag).sum

def describe (es : List Extension) : String :=
  "GlExtensions(" ++ (if es.isEmpty then "0x0" else " | ".intercalate (es.map title)) ++ ")"

end Extension

def shadingExtensions : List Extension :=
  [.arbShaderObjects, .arbVertexShader, .arbFragmentShader, .arbShadingLanguage100]

abbrev DriverVersion := Nat × Nat

/-- Whether one version is at least another. -/
def reaches (v w : DriverVersion) : Bool := w.1 < v.1 || (v.1 == w.1 && w.2 ≤ v.2)

/-- The number written by digits, if it fits into a word. -/
def smallNumber? (digits : List Char) : Option Nat :=
  let n := digits.foldl (fun n c => n * 10 + (c.toNat - '0'.toNat)) 0
  if digits.isEmpty || 2 ^ 32 ≤ n then none else some n

/-- The two numbers that a text starts with; what has no such start counts as zero. -/
def versionOfText (s : String) : DriverVersion :=
  match splitChars (!·.isDigit) s.toList [] with
  | a :: b :: _ =>
    match smallNumber? a, smallNumber? b with
    | some major, some minor => (major, minor)
    | _, _ => (0, 0)
  | _ => (0, 0)

/-- What a driver can do. -/
structure Capabilities where
  version : DriverVersion
  /-- Whether it is an embedded driver. -/
  embedded : Bool
  /-- The version of the shading language, if there is one. -/
  shading : Option DriverVersion
  extensions : List Extension
  deriving DecidableEq, Repr

namespace Capabilities

def listedNames (d : Driver) (version : DriverVersion) : List String :=
  if reaches version (3, 0) then d.extensions
  else if d.indexed then []
  else blankSeparated (" ".intercalate d.extensions)

def isCore (embedded : Bool) (version : DriverVersion) : Extension → Bool
  | .arbHalfFloatVertex => !embedded && reaches version (3, 0)
  | .arbInstancedArrays => !embedded && reaches version (3, 3)
  | _ => false

def shadingOfText (s : String) : DriverVersion :=
  let s := (textAfter? "OpenGL ES GLSL " s).getD s
  versionOfText ((textAfter? "ES " s).getD s)

def ofDriver (d : Driver) : Capabilities :=
  let rest := textAfter? "OpenGL ES " d.version
  let embedded := rest.isSome
  let version := versionOfText (rest.getD d.version)
  let names := listedNames d version
  let extensions := Extension.all.filter fun e =>
    names.contains e.name || isCore embedded version e
  let hasShading := reaches version (2, 0) || shadingExtensions.all (extensions.contains ·)
  { version, embedded, extensions
    shading := if hasShading then d.shadingVersion.map shadingOfText else none }

def has (c : Capabilities) (es : List Extension) : Bool := es.all (c.extensions.contains ·)

def shadingNeeded? : Profile → Option DriverVersion
  | .glslEs => some (1, 0)
  | .glsl => some (1, 10)
  | .glsl120 => some (1, 20)
  | _ => none

def extensionsNeeded : Profile → List Extension
  | .arb1 => [.arbVertexProgram, .arbFragmentProgram]
  | .nv2 => [.arbVertexProgram, .arbFragmentProgram, .nvVertexProgram2Option, .nvFragmentProgram2]
  | .nv3 => [.arbVertexProgram, .arbFragmentProgram, .nvVertexProgram3, .nvFragmentProgram2]
  | .nv4 => [.nvGpuProgram4]
  | _ => []

def shadingReaches (c : Capabilities) (v : DriverVersion) : Bool :=
  match c.shading with
  | some s => reaches s v
  | none => false

/-- The first thing that a profile needs and that is missing. -/
def missing? (c : Capabilities) (p : Profile) : Option String :=
  match shadingNeeded? p with
  | some v => if c.shadingReaches v then none else some "missing GLSL support"
  | none => ((extensionsNeeded p).find? fun e => !c.extensions.contains e).map (·.name)

def check (c : Capabilities) (p : Profile) : Except DeviceError Unit :=
  match c.missing? p with
  | none => .ok ()
  | some what => .error (.profileNeeds p what)

/-- The profiles of desktop drivers, the best first. -/
def preferred : List Profile := [.glsl120, .glsl, .nv4, .nv3, .nv2, .arb1]

/-- The profiles that are offered, the best first. Embedded drivers have one of their own. -/
def available (c : Capabilities) : List Profile :=
  if c.embedded then [.glslEs] else preferred.filter fun p => (c.missing? p).isNone

def best (c : Capabilities) : Except DeviceError Profile :=
  match c.available with
  | p :: _ => .ok p
  | [] => .error .noProfiles

def versionText (v : DriverVersion) : String := s!"({v.1}, {v.2})"

def describe (c : Capabilities) : String :=
  let shading := match c.shading with
    | some v => "Some(" ++ versionText v ++ ")"
    | none => "None"
  "GlCaps \x7b version: " ++ versionText c.version ++ s!", es: {c.embedded}, glsl_version: " ++
    shading ++ ", extensions: " ++ Extension.describe c.extensions ++ " \x7d"

end Capabilities

end ShaderPipeline.Device
