import ShaderPipeline.Glsl.Operand
import ShaderPipeline.Glsl.Statement

/-!
# The header of a shader

In front of the body stand the language version, the extensions asked for, the packed uniform
arrays with a name for each register in them, the constants, and the global variables that stand
for registers.
-/

namespace ShaderPipeline.Glsl

/-- One part of a header. -/
inductive HeaderLine where
  | version (number : Nat)
  | extension (name behaviour : String)
  | precision (level type : String)
  | uniformArray (type name : String) (count : Nat)
  | floatConstant (name : String) (value : Quad Binary32)
  | intConstant (name : String) (value : Quad Int32)
  | boolConstant (name : String) (value : Bool)
  /-- A name for an element of a packed array. -/
  | slotName (name array : String) (slot : Nat)
  | sampler (type name : String)
  | vertexInput (name : String)
  | varying (name : String)
  | global (type name : String)
  | lighting
  | subroutine (name : String)
  | blank

def lightingFunction : String :=
  String.join
    ["vec4 LIT(const vec4 src)\n", "\x7b\n",
      "    float power = clamp(src.w, -127.9961, 127.9961);\n", "    vec4 result;\n",
      "    result.x = 1.0;\n", "    result.y = max(src.x, 0.0);\n",
      "    result.z = (src.x > 0.0 && src.y > 0.0) ? pow(src.y, power) : 0.0;\n",
      "    result.w = 1.0;\n", "    return result;\n", "\x7d\n"]

def commaSeparated (q : Quad String) : String := ", ".intercalate q.toList

def HeaderLine.text : HeaderLine → String
  | version n => s!"#version {n}\n"
  | extension name behaviour => s!"#extension {name} : {behaviour}\n"
  | precision level type => s!"precision {level} {type};\n"
  | uniformArray type name count => s!"uniform {type} {name}[{count}];\n"
  | floatConstant name v =>
    s!"const vec4 {name} = vec4(" ++ commaSeparated (v.map floatLiteral) ++ ");\n"
  | intConstant name v =>
    s!"const ivec4 {name} = ivec4(" ++ commaSeparated (v.map fun i => toString i.toInt) ++ ");\n"
  | boolConstant name v => s!"const bool {name} = " ++ (if v then "true" else "false") ++ ";\n"
  | slotName name array slot => s!"#define {name} {array}[{slot}]\n"
  | sampler type name => s!"uniform {type} {name};\n"
  | vertexInput name => s!"attribute vec4 {name};\n"
  | varying name => s!"varying vec4 {name};\n"
  | global type name => s!"{type} {name};\n"
  | lighting => lightingFunction
  | subroutine name => s!"void {name}();\n"
  | blank => "\n"

variable (l : Layout)

def preamble : List HeaderLine :=
  let f := l.survey.features
  let embedded := l.profile == .glslEs
  let pixel := l.stage == .pixel
  let number :=
    match l.profile with
    | .glsl120 => 120
    | .glslEs => 100
    | _ => 110
  let levels := if embedded then "GL_EXT_shader_texture_lod" else "GL_ARB_shader_texture_lod"
  [.version number] ++
    (if embedded && pixel && f.derivatives then
      [.extension "GL_OES_standard_derivatives" "enable"] else []) ++
    (if (f.explicitLevel && pixel) || f.gradient then [.extension levels "enable"] else []) ++
    (if embedded && f.depthOut then [.extension "GL_EXT_frag_depth" "enable"] else []) ++
    (if embedded && f.multipleTargets then [.extension "GL_EXT_draw_buffers" "require"] else []) ++
    (if embedded then
      [.precision (if pixel then "mediump" else "highp") "float", .precision "mediump" "int"]
      else [])

/-- A packed array, unless it is empty. -/
def packedArray (type name : String) (count : Nat) : List HeaderLine :=
  if 0 < count then [.uniformArray type name count] else []

def packedArrays : List HeaderLine :=
  packedArray "vec4" s!"{l.tag}_uniforms_vec4" l.vectorCount ++
    packedArray "ivec4" s!"{l.tag}_uniforms_ivec4" (slotCount l.ints) ++
    packedArray "bool" s!"{l.tag}_uniforms_bool" (slotCount l.bools)

def registerLine {α : Type} (name array : String) (line : String → α → HeaderLine)
    (definition : Option α) (slot : Option Nat) : Option HeaderLine :=
  match definition, slot with
  | some v, _ => some (line name v)
  | none, some n => some (.slotName name array n)
  | none, none => none

def floatRegisters : List HeaderLine :=
  l.survey.floatUsed.filterMap fun n =>
    registerLine s!"{l.tag}_c{n}" s!"{l.tag}_uniforms_vec4" .floatConstant
      (l.survey.floatDefs.lookup n) (l.floatSlot? n)

def constantArrays : List HeaderLine :=
  (l.arrays.filter (·.constant)).map fun u => .uniformArray "vec4" (u.name l.stage) u.arrayCount

def intRegisters : List HeaderLine :=
  l.survey.intUsed.filterMap fun n =>
    registerLine s!"{l.tag}_i{n}" s!"{l.tag}_uniforms_ivec4" .intConstant
      (l.survey.intDefs.lookup n) (l.intSlot? n)

def boolRegisters : List HeaderLine :=
  l.survey.boolUsed.filterMap fun n =>
    registerLine s!"{l.tag}_b{n}" s!"{l.tag}_uniforms_bool" .boolConstant
      (l.survey.boolDefs.lookup n) (l.boolSlot? n)

def samplerType : SamplerKind → String
  | .flat => "sampler2D"
  | .cube => "samplerCube"
  | .volume => "sampler3D"

def samplerLines : List HeaderLine :=
  l.survey.samplers.map fun (n, u) => .sampler (samplerType u.kind) s!"{l.tag}_s{n}"

/-- The inputs, and the outputs of a vertex shader that are interpolated. -/
def interfaceLines : List HeaderLine :=
  match l.stage with
  | .vertex =>
    l.survey.inputs.map (fun i => .vertexInput s!"vs_v{i.1}") ++
      ((l.survey.outputs.map l.outputTarget).filter (!·.startsWith "gl_")).map .varying
  | .pixel => l.attributes.map fun a => .varying a.name

def registerVariables : List HeaderLine :=
  let outputs :=
    l.survey.outputs.filterMap fun o =>
      match Scope.outputName l.tag o.file o.index with
      | .ok name => some (HeaderLine.global "vec4" name)
      | .error _ => none
  l.survey.temps.map (fun n => .global "vec4" s!"{l.tag}_r{n}") ++
    l.survey.addresses.map (fun n => .global "ivec4" s!"{l.tag}_a{n}") ++
    (if l.survey.predicate then [.global "bvec4" s!"{l.tag}_p0"] else []) ++
    (if l.textureIsVarying then []
      else l.survey.textures.map fun n => .global "vec4" s!"ps_t{n}") ++
    (if l.version.isEarlyPixel then [] else outputs)

def header : List HeaderLine :=
  preamble l ++ packedArrays l ++ floatRegisters l ++ constantArrays l ++ intRegisters l ++
    boolRegisters l ++ samplerLines l ++ interfaceLines l ++ registerVariables l ++
    (if l.survey.features.lit then [.lighting] else []) ++
    l.survey.flow.labels.map (fun n => .subroutine s!"{l.tag}_l{n}") ++ [.blank]

end ShaderPipeline.Glsl
