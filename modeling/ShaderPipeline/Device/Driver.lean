import ShaderPipeline.Device.Call

/-!
# Drivers

A driver is known by its answers: the texts and numbers that describe it, the places of named
uniforms and attributes, which objects it fails to compile or link, and the names it gives out.
-/

namespace ShaderPipeline

namespace Device

/-- The answers of a driver. -/
structure Driver where
  /-- The text of its version. -/
  version : String
  /-- The text of the version of its shading language, if it has one. -/
  shadingVersion : Option String
  extensions : List String
  /-- Whether extensions can be asked for only one by one. -/
  indexed : Bool
  /-- The value of a numbered quantity. -/
  integer : Nat → Int
  /-- The place of a uniform of a program; negative if it has none. -/
  uniformLocation : Nat → String → Int
  /-- The place of an attribute of a program; negative if it has none. -/
  attributeLocation : Nat → String → Int
  /-- Why a shader object does not compile. -/
  compileFailure : Nat → Option String
  /-- Why a program does not link. -/
  linkFailure : Nat → Option String
  /-- Where and why an assembly program is refused. -/
  assemblyFailure : Nat → Option (Int × String)
  /-- The names given to objects, in the order they are asked for. -/
  issue : Nat → Nat

namespace Driver

/-- A driver that accepts everything, knows no names and counts objects from one. -/
def plain (version : String) (shadingVersion : Option String) (extensions : List String) :
    Driver where
  version := version
  shadingVersion := shadingVersion
  extensions := extensions
  indexed := false
  integer n :=
    if n = maxTextureUnitsEnum then 16
    else if n = maxVertexUniformsEnum ∨ n = maxFragmentUniformsEnum then 1024
    else 0
  uniformLocation _ _ := -1
  attributeLocation _ _ := -1
  compileFailure _ := none
  linkFailure _ := none
  assemblyFailure _ := none
  issue n := n + 1

def second : Driver := plain "2.1 Mesa" (some "1.20") []

def fourth : Driver :=
  { plain "4.6.0 NVIDIA" (some "4.60 NVIDIA")
      ["GL_ARB_instanced_arrays", "GL_ARB_vertex_program", "GL_ARB_fragment_program"] with
    indexed := true }

/-- A driver of the first generation, which has assembly only. -/
def first : Driver := plain "1.5" none ["GL_ARB_vertex_program", "GL_ARB_fragment_program"]

/-- Gives names places, before those known already. -/
def withUniforms (d : Driver) (table : List (String × Int)) : Driver :=
  { d with uniformLocation := fun p s => (table.lookup s).getD (d.uniformLocation p s) }

/-- Gives attributes places, before those known already. -/
def withAttributes (d : Driver) (table : List (String × Int)) : Driver :=
  { d with attributeLocation := fun p s => (table.lookup s).getD (d.attributeLocation p s) }

/-- Gives quantities values, the last one for each, before those known already. -/
def withIntegers (d : Driver) (table : List (Nat × Int)) : Driver :=
  { d with integer := fun n => (table.reverse.lookup n).getD (d.integer n) }

end Driver

end Device

end ShaderPipeline
