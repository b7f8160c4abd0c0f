import ShaderPipeline.Bytes.Word

/-!
# Shader stages and versions
-/

namespace ShaderPipeline

/-- The pipeline stage a shader runs in. -/
inductive Stage where
  | vertex
  | pixel
  deriving DecidableEq, Repr, Inhabited

namespace Stage

def tag : Stage → String
  | vertex => "vs"
  | pixel => "ps"

def name : Stage → String
  | vertex => "Vertex"
  | pixel => "Pixel"

end Stage

/-- A shader model version. -/
structure Version where
  stage : Stage
  major : Nat
  minor : Nat
  deriving DecidableEq, Repr, Inhabited

namespace Version

/-- The version named by the first word of a stream: the stage in the high half, then the major
and the minor number. -/
def ofToken? (w : Word) : Option Version :=
  if field w 16 16 = 0xFFFE then some ⟨.vertex, field w 8 8, field w 0 8⟩
  else if field w 16 16 = 0xFFFF then some ⟨.pixel, field w 8 8, field w 0 8⟩
  else none

def isKnown (v : Version) : Bool :=
  match v.major with
  | 1 => match v.stage with
    | .vertex => v.minor ≤ 1
    | .pixel => v.minor ≤ 4
  | 2 => v.minor ≤ 1 || v.minor == 0xFF
  | 3 => v.minor == 0
  | _ => false

/-- Whether the version is at least `major.minor`. -/
def atLeast (v : Version) (major minor : Nat) : Bool :=
  major < v.major || (v.major == major && minor ≤ v.minor)

/-- The version's text, such as `vs_2_0`. -/
def text (v : Version) : String := s!"{v.stage.tag}_{v.major}_{v.minor}"

/-- Whether the shader belongs to the first generation of pixel shaders, which address textures
by register number and leave their color in `r0`. -/
def isEarlyPixel (v : Version) : Bool := v.stage == .pixel && v.major == 1

end Version

end ShaderPipeline
