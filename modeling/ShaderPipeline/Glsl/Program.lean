import ShaderPipeline.Glsl.Body
import ShaderPipeline.Glsl.Header

/-!
# Shaders in the shading language
-/

namespace ShaderPipeline.Glsl

/-- A shader: the header, the body, and the name of the entry function. -/
structure Program where
  header : List HeaderLine
  body : List Line
  entry : String

def entryCall (entry : String) : List Line :=
  if entry = Options.defaultEntry then []
  else [.openFunction Options.defaultEntry, .inside 1 (.call entry), .closeFunction]

def Program.text (p : Program) : String :=
  let call := String.join ((entryCall p.entry).map Line.text)
  String.join (p.header.map HeaderLine.text) ++ String.join (p.body.map Line.text) ++
    (if call.isEmpty then "" else "\n" ++ call)

/-- Writes a shader, with the faults of the instructions that could not be written. -/
def ofInstructions (l : Layout) (is : List Instruction) : Program × List Located :=
  let p := writeBody l is
  (⟨header l, p.body.lines.reverse, l.options.entry⟩, p.faults.reverse)

end ShaderPipeline.Glsl
