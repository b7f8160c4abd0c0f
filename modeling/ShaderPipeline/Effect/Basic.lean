import ShaderPipeline.Effect.Value
import ShaderPipeline.Lowering.Shader

/-!
# Effects

An effect has parameters, techniques made of passes, and a table of objects: strings, texture
names and shaders. It also knows the technique and the pass that are being played.
-/

namespace ShaderPipeline

namespace Effect

/-- A parameter. -/
structure Param where
  value : Value
  annotations : List Value
  deriving DecidableEq, Repr

/-- A pass: the states it sets. -/
structure Pass where
  name : Option String
  states : List State
  annotations : List Value
  deriving DecidableEq, Repr

/-- A technique: the passes it goes through. -/
structure Technique where
  name : Option String
  passes : List Pass
  annotations : List Value
  deriving DecidableEq, Repr

/-- A sampler register of a shader and the parameter that configures it. -/
structure SamplerLink where
  name : String
  register : Nat
  param : Nat
  deriving DecidableEq, Repr

/-- The code of a shader object. -/
inductive ShaderCode where
  | shader (s : LoweredShader)
  /-- A preshader that chooses one element of an array of shaders. -/
  | selector (p : Preshader)
  deriving DecidableEq, Repr

/-- A shader object and the parameters that feed it. -/
structure ShaderObject where
  /-- The technique that owns the object; none for objects that any pass may use. -/
  technique : Option Nat
  pass : Option Nat
  code : ShaderCode
  /-- The parameter of each symbol; for a selector, the array it chooses from. -/
  params : List Nat
  /-- The parameter of each input of the preshader. -/
  preshaderParams : List Nat
  samplers : List SamplerLink
  deriving DecidableEq, Repr

namespace ShaderObject

def isSelector (s : ShaderObject) : Bool :=
  match s.code with
  | .selector _ => true
  | .shader _ => false

/-- The shader of an object that is no selector. -/
def lowered? (s : ShaderObject) : Option LoweredShader :=
  match s.code with
  | .shader l => some l
  | .selector _ => none

/-- The preshader that is run before the object is used. -/
def preshader? (s : ShaderObject) : Option Preshader :=
  match s.code with
  | .shader l => l.preshader
  | .selector p => some p

/-- The object with another preshader, if it has one. -/
def withPreshader (s : ShaderObject) (p : Preshader) : ShaderObject :=
  match s.code with
  | .selector _ => { s with code := .selector p }
  | .shader l =>
    { s with code := .shader { l with preshader := l.preshader.map fun _ => p } }

end ShaderObject

/-- What an object holds. -/
inductive ObjectData where
  | none
  | string (s : String)
  /-- The name that a texture is bound under. -/
  | mapping (s : String)
  | shader (s : ShaderObject)
  deriving DecidableEq, Repr

/-- An object of an effect. -/
structure Object where
  type : ElementType
  data : ObjectData
  deriving DecidableEq, Repr

def Object.shader? (o : Object) : Option ShaderObject :=
  match o.data with
  | .shader s => some s
  | _ => Option.none

end Effect

/-- An effect, and the technique and pass being played. -/
structure Effect where
  profile : Profile
  /-- What went wrong in lowering its shaders. -/
  diagnostics : List Diagnostic
  params : List Effect.Param
  techniques : List Effect.Technique
  objects : Array Effect.Object
  technique : Option Nat
  pass : Option Nat
  deriving DecidableEq, Repr

namespace Effect

def constantEq (a b : Constant) : Bool :=
  a.index == b.index &&
    match a.value, b.value with
    | .float v, .float w =>
      (v.toList.zip w.toList).all fun (x, y) => x.numEq y
    | .int v, .int w => v == w
    | .bool v, .bool w => v == w
    | _, _ => false

def preshaderEq : Option Preshader → Option Preshader → Bool
  | some p, some q => p.numEq q
  | none, none => true
  | _, _ => false

def loweredEq (a b : LoweredShader) : Bool :=
  { a with constants := [], preshader := none } == { b with constants := [], preshader := none } &&
    a.constants.isEqv b.constants constantEq && preshaderEq a.preshader b.preshader

def shaderEq (a b : ShaderObject) : Bool :=
  let sameCode : Bool :=
    match a.code, b.code with
    | .shader s, .shader t => loweredEq s t
    | .selector p, .selector q => p.numEq q
    | _, _ => false
  a.technique == b.technique && a.pass == b.pass && a.params == b.params &&
    a.preshaderParams == b.preshaderParams && a.samplers == b.samplers && sameCode

def objectEq (a b : Object) : Bool :=
  a.type == b.type &&
    match a.data, b.data with
    | .shader s, .shader t => shaderEq s t
    | .shader _, _ => false
    | _, .shader _ => false
    | s, t => s == t

/-- Whether two effects are equal: words as words, and the numbers in shaders as numbers, so that
one that is not a number makes them differ. -/
def numEq (a b : Effect) : Bool :=
  a.profile == b.profile && a.diagnostics == b.diagnostics && a.params == b.params &&
    a.techniques == b.techniques && a.objects.isEqv b.objects objectEq &&
    a.technique == b.technique && a.pass == b.pass

def copy (e : Effect) : Effect := { e with pass := none }

end Effect

end ShaderPipeline
