import ShaderPipeline.Text.Quoted

/-!
# Refused operations

Effects are changed and played through operations that name parameters, techniques and passes. An
operation that names something the effect does not have, or that comes out of turn, is refused.
-/

namespace ShaderPipeline.Effect

/-- The kind of data in a value. -/
inductive DataKind where
  | registers
  | objects
  | states
  deriving DecidableEq, Repr

def DataKind.text : DataKind → String
  | registers => "registers"
  | objects => "objects"
  | states => "sampler states"

/-- Why an operation on an effect was refused. -/
inductive UsageError where
  | unknownParameter (name : String)
  | parameterOutOfRange (index count : Nat)
  | valueOverflow (offset len size : Nat)
  | techniqueOutOfRange (index count : Nat)
  | noTechnique
  | passOutOfRange (pass count : Nat)
  | passActive (pass : Nat)
  | noActivePass
  | wrongValueKind (expected found : DataKind)
  deriving DecidableEq, Repr

def UsageError.message : UsageError → String
  | unknownParameter name => "no parameter named " ++ quoted name
  | parameterOutOfRange i n => s!"parameter {i} is out of range ({n} parameters)"
  | valueOverflow offset len size =>
    s!"{len} bytes at offset {offset} overflow a {size}-byte value"
  | techniqueOutOfRange i n => s!"technique {i} is out of range ({n} techniques)"
  | noTechnique => "effect has no current technique"
  | passOutOfRange p n => s!"pass {p} is out of range ({n} passes)"
  | passActive p => s!"pass {p} is still active"
  | noActivePass => "no pass is active"
  | wrongValueKind expected found => s!"value holds {found.text}, not {expected.text}"

end ShaderPipeline.Effect
