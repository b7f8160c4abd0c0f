import ShaderPipeline.Effect.Cursor
import ShaderPipeline.Effect.Reader
import ShaderPipeline.Lowering.Cache

/-!
# Reading the objects of an effect

After the parameters and techniques come two lists of objects. Small objects are named by their
index; large ones belong to a state, whose value names the object. Shaders are lowered and linked
to the parameters that feed their symbols.
-/

namespace ShaderPipeline.Effect

/-- What the objects of an effect are linked to. -/
structure LinkContext where
  profile : Profile
  options : Options
  params : List Param
  techniques : List Technique

/-- The place in the table of contents, the objects, the cache that lowers shaders, and what went
wrong in lowering. -/
structure LinkState where
  position : Nat
  objects : Array Object
  cache : ShaderCache
  diagnostics : List Diagnostic

abbrev LinkM := StateT LinkState (Except EffectError)

namespace LinkM

def next (base : Bytes) (what : String) : LinkM Nat := do
  let n ← numberAt base (← get).position what
  modify fun s => { s with position := s.position + 4 }
  return n

/-- The next `len` bytes. Blocks are filled up to multiples of four bytes; at the end of the
container the filling may be missing. -/
def block (base : Bytes) (len : Nat) (what : String) : LinkM Bytes := do
  let position := (← get).position
  let b ← bytesAt base position len what
  modify fun s => { s with position := min (position + (len + 3) / 4 * 4) base.size }
  return b

variable (c : LinkContext)

def needParam (name : String) : Except EffectError Nat :=
  match findParam? c.params name with
  | some n => .ok n
  | none => .error (.parameterNotFound name)

def linkSymbols (symbols : List Symbol) : Except EffectError (List Nat) :=
  symbols.mapM fun s => needParam c s.name

def samplerLinks (symbols : List Symbol) (params : List Nat) : List SamplerLink :=
  (symbols.zip params).filterMap fun (s, p) =>
    if s.registerSet = .sampler then some ⟨s.name, s.index, p⟩ else none

def entryName (index : Nat) : String := s!"ShaderFunction{index}"

def lowerShader (bytes : Bytes) (index : Nat) (technique pass : Option Nat) :
    LinkM ShaderObject := do
  let options := { c.options with entry := entryName index }
  let (_, lowered, cache) := (← get).cache.get c.profile options bytes
  modify fun s => { s with cache, diagnostics := s.diagnostics ++ lowered.diagnostics }
  let params ← linkSymbols c lowered.symbols
  let preshaderParams ←
    match lowered.preshader with
    | some p => linkSymbols c p.symbols
    | none => pure []
  return {
    technique, pass, params, preshaderParams
    code := .shader lowered
    samplers := samplerLinks lowered.symbols params }

/-- Reads and links a preshader that chooses from an array of shaders. The name of the array comes
first. -/
def readSelector (bytes : Bytes) (technique pass : Option Nat) :
    Except EffectError ShaderObject := do
  match ← stringAt bytes 0 with
  | none => throw (.malformed .selectorWithoutArray)
  | some array =>
    let nameLength ← numberAt bytes 0 "string length"
    let words := wordsOfBytes (bytes.extract (4 + nameLength) bytes.size).toList
    match Preshader.ofWords words with
    | .error e => throw (.preshader e)
    | .ok p =>
      let params := [← needParam c array]
      let preshaderParams ← linkSymbols c p.symbols
      return { technique, pass, params, preshaderParams, code := .selector p, samplers := [] }

def objectType (index : Nat) : LinkM ElementType := do
  let objects := (← get).objects
  match objects[index]? with
  | some o => return o.type
  | none => throw (.badObjectIndex index objects.size)

def setData (index : Nat) (data : ObjectData) : LinkM Unit :=
  modify fun s => { s with objects := s.objects.modify index fun o => { o with data } }

/-- Fills an object with a text, unless there is none. -/
def setText (index : Nat) (wrap : String → ObjectData) (block : Bytes) : LinkM Unit :=
  if block.isEmpty then return
  else setData index (wrap (lossyTextUntilZero block.toList))

def smallObject (base : Bytes) (c : LinkContext) : LinkM Unit := do
  let what := "small object"
  let index ← next base what
  let len ← next base what
  let bytes ← block base len what
  let type ← objectType index
  if type = .string then
    setText index .string bytes
  else if type.isTexture || type.isSampler then
    setText index .mapping bytes
  else if type.isShader then
    setData index (.shader (← lowerShader c bytes index none none))
  else
    throw (.unexpectedObjectType .small index type)

def samplerOwned : Nat := 0xFFFFFFFF

def selectorKind : Nat := 2

def owningValue (technique index state : Nat) : Except EffectError Value :=
  if technique = samplerOwned then
    match c.params[index]? with
    | none => .error (.badReference (.parameter index))
    | some p =>
      match p.value.states with
      | .error _ => .error (.badReference (.notASampler index))
      | .ok states =>
        match states[state]? with
        | none => .error (.badReference (.samplerState state index))
        | some s => .ok s.value
  else
    let found := do
      let t ← c.techniques[technique]?
      let p ← t.passes[index]?
      p.states[state]?
    match found with
    | none => .error (.badReference (.passState technique index state))
    | some s => .ok s.value

def owningObject (technique index state : Nat) : Except EffectError Nat := do
  match (← owningValue c technique index state).firstWord? with
  | some w => return w.toNat
  | none => throw (.badReference .noObjectIndex)

def largeObject (base : Bytes) (c : LinkContext) : LinkM Unit := do
  let what := "large object"
  let technique ← next base what
  let index ← next base what
  let _unused ← next base what
  let state ← next base what
  let kind ← next base what
  let len ← next base what
  let bytes ← block base len what
  let object ← owningObject c technique index state
  let owner := if technique = samplerOwned then none else some technique
  let type ← objectType object
  if type.isShader then
    if kind = selectorKind then
      setData object (.shader (← readSelector c bytes owner (some index)))
    else
      setData object (.shader (← lowerShader c bytes object owner (some index)))
  else if type.isTexture || type.isSampler then
    setText object .mapping bytes
  else if type ≠ .void then
    throw (.unexpectedObjectType .large object type)

def times (m : LinkM Unit) : Nat → LinkM Unit
  | 0 => return
  | n + 1 => do
    m
    times m n

def objects (base : Bytes) (c : LinkContext) (small large : Nat) : LinkM Unit := do
  times (smallObject base c) small
  times (largeObject base c) large

end LinkM

end ShaderPipeline.Effect
