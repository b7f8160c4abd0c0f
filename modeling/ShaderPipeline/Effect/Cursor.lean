import ShaderPipeline.Effect.Basic

/-!
# Playing an effect

An effect is played technique by technique and pass by pass. At most one pass is active at a time.
-/

namespace ShaderPipeline.Effect

/-- The first parameter with a name. -/
def findParam? (params : List Param) (name : String) : Option Nat :=
  params.findIdx? (·.value.name == some name)

variable (e : Effect)

/-- The first parameter with a name. -/
def paramIndex? (name : String) : Option Nat := findParam? e.params name

def setRaw (param : Nat) (data : List UInt8) (offset : Nat) : Except UsageError Effect :=
  match e.params[param]? with
  | none => .error (.parameterOutOfRange param e.params.length)
  | some p => do
    let value ← p.value.writeBytes offset data
    return { e with params := e.params.set param { p with value } }

def setRawNamed (name : String) (data : List UInt8) (offset : Nat) : Except UsageError Effect :=
  match e.paramIndex? name with
  | none => .error (.unknownParameter name)
  | some param => e.setRaw param data offset

def currentTechnique? : Option Technique := e.technique.bind (e.techniques[·]?)

def setTechnique (index : Nat) : Except UsageError Effect :=
  if index < e.techniques.length then .ok { e with technique := some index }
  else .error (.techniqueOutOfRange index e.techniques.length)

/-- The technique after a given one, or the first. -/
def nextTechnique? (after : Option Nat) : Option Nat :=
  let next := match after with
    | some i => i + 1
    | none => 0
  if next < e.techniques.length then some next else none

def passCount : Nat :=
  match e.currentTechnique? with
  | some t => t.passes.length
  | none => 0

def currentPass? : Option Pass := do
  let p ← e.pass
  let t ← e.currentTechnique?
  t.passes[p]?

def beginPass (pass : Nat) : Except UsageError (Pass × Effect) :=
  match e.pass with
  | some active => .error (.passActive active)
  | none =>
    match e.currentTechnique? with
    | none => .error .noTechnique
    | some t =>
      match t.passes[pass]? with
      | none => .error (.passOutOfRange pass t.passes.length)
      | some p => .ok (p, { e with pass := some pass })

def endPass : Except UsageError Effect :=
  match e.pass with
  | some _ => .ok { e with pass := none }
  | none => .error .noActivePass

def linkedStates (link : SamplerLink) : List State :=
  match e.params[link.param]? with
  | none => []
  | some p =>
    match p.value.states with
    | .ok ss => ss
    | .error _ => []

end ShaderPipeline.Effect
