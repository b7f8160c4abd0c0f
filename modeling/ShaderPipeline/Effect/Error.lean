import ShaderPipeline.Preshader.Basic

/-!
# Why a container cannot be read

The cause of each failure and its wording.
-/

namespace ShaderPipeline

namespace Effect

/-- What is malformed in a value. -/
inductive Malformation where
  | preambleSize (n : Nat)
  | unknownClass (n : Nat)
  | classOfType (c : TypeClass) (t : ElementType)
  | objectOfType (t : ElementType)
  | columns (n : Nat)
  | nestedSamplers
  | textureWithoutValue
  | structMember (cls : Nat) (t : ElementType)
  | selectorWithoutArray
  deriving DecidableEq, Repr

def Malformation.text : Malformation → String
  | preambleSize n => s!"XNA4 preamble size {n}"
  | unknownClass n => s!"unknown value class {n}"
  | classOfType c t => s!"{c.name} value of type {t.name}"
  | objectOfType t => s!"object value of type {t.name}"
  | columns n => s!"{n} columns"
  | nestedSamplers => "sampler states nest too deeply"
  | textureWithoutValue => "texture state without a value"
  | structMember cls t => s!"struct member of class {cls} and type {t.name}"
  | selectorWithoutArray => "standalone preshader without an array name"

/-- Something an effect asks too much of. -/
inductive Excess where
  | objects (n : Nat)
  | valueWords (n : Nat)
  | structWords (n : Nat)
  deriving DecidableEq, Repr

def Excess.text : Excess → String
  | objects n => s!"{n} effect objects"
  | valueWords n => s!"{n}-word value"
  | structWords n => s!"{n}-word struct value"

/-- A reference to something that is not there. -/
inductive Dangling where
  | parameter (n : Nat)
  | notASampler (n : Nat)
  | samplerState (state param : Nat)
  | passState (technique pass state : Nat)
  | noObjectIndex
  deriving DecidableEq, Repr

def Dangling.text : Dangling → String
  | parameter n => s!"large object names parameter {n}"
  | notASampler n => s!"parameter {n} is not a sampler"
  | samplerState s p => s!"sampler state {s} of parameter {p}"
  | passState t p s => s!"technique {t} pass {p} state {s}"
  | noObjectIndex => "state without an object index"

/-- Which of the two lists of objects an object stands in. -/
inductive ObjectList where
  | small
  | large
  deriving DecidableEq, Repr

def ObjectList.word : ObjectList → String
  | small => "small"
  | large => "large"

end Effect

/-- Why a container cannot be read. -/
inductive EffectError where
  | notAnEffectsFile
  | unexpectedEof (what : String)
  | outOfMemory (excess : Effect.Excess)
  | badObjectIndex (index count : Nat)
  | parameterNotFound (name : String)
  | badReference (dangling : Effect.Dangling)
  | unexpectedObjectType (list : Effect.ObjectList) (index : Nat) (type : ElementType)
  | malformed (m : Effect.Malformation)
  | preshader (error : PreshaderError)
  deriving DecidableEq, Repr

def EffectError.message : EffectError → String
  | notAnEffectsFile => "not an effects file"
  | unexpectedEof what => s!"unexpected EOF while reading {what}"
  | outOfMemory e => s!"out of memory: {e.text}"
  | badObjectIndex i n => s!"object index {i} is out of range ({n} objects)"
  | parameterNotFound name => "parameter " ++ quoted name ++ " not found"
  | badReference d => s!"bad reference: {d.text}"
  | unexpectedObjectType list i t => s!"{list.word} object {i} has unexpected type {t.name}"
  | malformed m => s!"malformed effect value: {m.text}"
  | preshader e => s!"invalid standalone preshader: {e.message}"

end ShaderPipeline
