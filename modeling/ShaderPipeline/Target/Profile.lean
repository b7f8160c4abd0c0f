import ShaderPipeline.Text.Quoted

/-!
# Target profiles

A profile names the language a shader is written in: three versions of the shading language, and
four families of assembly.
-/

namespace ShaderPipeline

/-- A target language. -/
inductive Profile where
  /-- The desktop shading language, version 1.10. -/
  | glsl
  /-- The desktop shading language, version 1.20. -/
  | glsl120
  /-- The embedded shading language, version 1.00. -/
  | glslEs
  /-- Assembly programs without vendor extensions. -/
  | arb1
  /-- Assembly with the second generation of vendor options. -/
  | nv2
  /-- Assembly with the third generation of vendor options. -/
  | nv3
  /-- Assembly of the fourth vendor generation. -/
  | nv4
  deriving DecidableEq, Repr, Inhabited

namespace Profile

def all : List Profile := [glsl, glsl120, glslEs, arb1, nv2, nv3, nv4]

def name : Profile → String
  | glsl => "glsl"
  | glsl120 => "glsl120"
  | glslEs => "glsles"
  | arb1 => "arb1"
  | nv2 => "nv2"
  | nv3 => "nv3"
  | nv4 => "nv4"

def ofName? (s : String) : Option Profile := all.find? (·.name == s)

/-- Whether the target is a version of the shading language. -/
def isGlsl : Profile → Bool
  | glsl | glsl120 | glslEs => true
  | _ => false

def isAssembly (p : Profile) : Bool := !p.isGlsl

/-- Whether the target has the vendor instructions: sine and cosine in vertex programs,
derivatives, explicit levels and gradients. -/
def hasVendorOps : Profile → Bool
  | nv2 | nv3 | nv4 => true
  | _ => false

end Profile

/-- The message for a name that is no profile's. -/
def unknownProfileMessage (name : String) : String :=
  "unknown or unsupported profile " ++ quoted name

end ShaderPipeline
