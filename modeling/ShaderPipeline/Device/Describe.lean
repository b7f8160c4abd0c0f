import ShaderPipeline.Device.Drawing

/-!
# Descriptions

One-line descriptions of devices, shaders and programs.
-/

namespace ShaderPipeline

def Profile.title : Profile → String
  | glsl => "Glsl"
  | glsl120 => "Glsl120"
  | glslEs => "GlslEs"
  | arb1 => "Arb1"
  | nv2 => "Nv2"
  | nv3 => "Nv3"
  | nv4 => "Nv4"

namespace Device

def describeFields (title : String) (fields : List (String × String)) : String :=
  title ++ " \x7b " ++ ", ".intercalate (fields.map fun (k, v) => k ++ ": " ++ v) ++ " \x7d"

def describeOption : Option String → String
  | some s => "Some(" ++ s ++ ")"
  | none => "None"

def CompiledShader.describe (s : CompiledShader) : String :=
  describeFields "GlShader"
    [("handle", toString s.name), ("stage", describeOption (some s.stage.name))]

def ProgramNames.describe (n : ProgramNames) : String :=
  describeFields "ProgramHandles"
    [("program", toString n.program), ("vertex", toString n.vertex), ("pixel", toString n.pixel)]

def describeLinked (d : Device) (p : LinkedProgram) : String :=
  describeFields "GlProgram"
    [("handles", p.names.describe), ("uniforms", toString p.uniforms.length),
      ("texbem_count", toString p.bumpCount),
      ("generation", toString (d.store.shadows[p.id]?.elim 0 (·.generation)))]

def describe (d : Device) : String :=
  describeFields "GlContext"
    [("profile", d.profile.title), ("caps", d.capabilities.describe),
      ("generation", toString d.generation),
      ("bound_program", describeOption (d.bound.map fun p => toString p.names.program)),
      ("linked_programs", toString d.linkCache.length)]

end Device

end ShaderPipeline
