import ShaderPipeline.Layout.Uniform

/-!
# The layout of a shader

Everything the text of a shader is written from: its version and options, the survey of its
registers, and the packed uniforms.
-/

namespace ShaderPipeline

/-- A shader's registers and where they are fed from. -/
structure Layout extends Surroundings where
  survey : Survey
  floats : List Uniform
  ints : List Uniform
  bools : List Uniform
  deriving DecidableEq, Repr

/-- A vertex input, an interpolated value or an output. -/
structure Attribute where
  semantic : Semantic
  register : Nat
  name : String
  deriving DecidableEq, Repr, Inhabited

namespace Layout

def ofSurvey (e : Surroundings) (symbols : List Symbol) (v : Survey) : Layout where
  toSurroundings := e
  survey := v
  floats := floatUniforms v (relativeRanges e.version symbols v.relative)
  ints := intUniforms v
  bools := boolUniforms v

def stage (l : Layout) : Stage := l.version.stage

def tag (l : Layout) : String := l.stage.tag

def uniforms (l : Layout) : List Uniform := l.floats ++ l.ints ++ l.bools

variable (l : Layout)

def floatSlot? (n : Nat) : Option Nat := slotOf? l.floats n

def intSlot? (n : Nat) : Option Nat := slotOf? l.ints n

def boolSlot? (n : Nat) : Option Nat := slotOf? l.bools n

def floatCount : Nat := slotCount l.floats

def arrays (l : Layout) : List Uniform := l.floats.filter (0 < ·.arrayCount)

def arrayOf? (n : Nat) : Option Uniform := l.arrays.find? (·.covers n)

def bumpSamplers : List Nat :=
  (l.survey.samplers.filter (·.2.bump)).map (·.1)

/-- The slot of a sampler's bump matrix, after the slots fed from registers; the luminance pair
takes the slot after it. -/
def bumpSlot? (sampler : Nat) : Option Nat :=
  (l.bumpSamplers.idxOf? sampler).map fun k => l.floatCount + 2 * k

def vectorCount : Nat := l.floatCount + 2 * l.bumpSamplers.length

def textureIsVarying : Bool := !(l.version.isEarlyPixel && l.version.minor < 4)

def attributes : List Attribute :=
  let declared := l.survey.inputs.map fun (n, s) =>
    ⟨s, n, match l.stage with
      | .vertex => s!"vs_v{n}"
      | .pixel => s.varyingName⟩
  let varying (u : Usage) (n : Nat) : Attribute := ⟨⟨u, n⟩, n, (Semantic.mk u n).varyingName⟩
  if l.stage = .pixel ∧ l.version.major ≠ 3 then
    declared ++ l.survey.colors.map (varying .color) ++ l.survey.textures.map (varying .texCoord)
  else declared

def outputTarget (o : Output) : String :=
  match o.file, o.semantic with
  | .colorOut, _ =>
    if l.survey.features.multipleTargets then s!"gl_FragData[{o.index}]" else "gl_FragColor"
  | .depthOut, _ => if l.profile = .glslEs then "gl_FragDepthEXT" else "gl_FragDepth"
  | _, ⟨.position, 0⟩ => "gl_Position"
  | _, ⟨.pointSize, _⟩ => "gl_PointSize"
  | _, s => s.varyingName

def outputs (l : Layout) : List Attribute :=
  l.survey.outputs.map fun o => ⟨o.semantic, o.index, l.outputTarget o⟩

end Layout

end ShaderPipeline
