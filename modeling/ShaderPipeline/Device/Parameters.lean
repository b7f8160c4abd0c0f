import ShaderPipeline.Device.Registers
import ShaderPipeline.Effect.Basic

/-!
# Feeding registers from parameters

A symbol of a shader names registers, and a parameter of an effect feeds it. Floats and structures
are copied as they are; integers and booleans are converted to what the registers hold.
-/

namespace ShaderPipeline.Device

/-- The register files that parameters are copied to; files that are missing are left alone. -/
structure ParameterTarget where
  floats : Array Binary32
  ints : Option (Array Int32)
  bools : Option (Array UInt8)
  deriving DecidableEq, Repr

/-- The rows of a value, four words each; the last one may be shorter. -/
def wordRows : List Word → List (List Word)
  | a :: b :: c :: d :: rest => [a, b, c, d] :: wordRows rest
  | [] => []
  | rest => [rest]

def floatOfWord (w : Word) : Binary32 := .ofInt32 w.toInt32

def boolOfWord (w : Word) : UInt8 := if w = 0 then 0 else 1

def overwriteRows {α : Type} (file : Array α) (start : Nat) : List (List α) → Array α
  | [] => file
  | row :: rest => overwriteRows (overwrite file start row) (start + 4) rest

/-- The columns of a value that are converted: at least one and at most four. -/
def convertedColumns (info : TypeInfo) : Nat := min (max info.columns 1) 4

def isVerbatim (info : TypeInfo) (s : Symbol) : Bool :=
  info.elem == .float || (s.registerSet == .float4 && info.cls == .struct)

def copyWords (info : TypeInfo) (words : List Word) (s : Symbol) (t : ParameterTarget) :
    ParameterTarget :=
  let rows := (wordRows words).map (·.take (convertedColumns info))
  if isVerbatim info s then
    { t with
      floats := overwrite t.floats (4 * s.index) ((words.take (4 * s.count)).map Binary32.mk) }
  else
    match s.registerSet with
    | .float4 =>
      { t with
        floats := overwriteRows t.floats (4 * s.index)
          ((rows.take s.count).map (·.map floatOfWord)) }
    | .int4 =>
      { t with
        ints := t.ints.map
          (overwrite · (4 * s.index) ((words.take (4 * s.count)).map (·.toInt32))) }
    | .bool =>
      { t with
        bools := t.bools.map
          (overwrite · s.index ((rows.flatten.take s.count).map boolOfWord)) }
    | .sampler => t

/-- Copies a parameter to the registers of a symbol. Parameters that hold no words have nothing to
copy. -/
def copyParameter (params : List Effect.Param) (t : ParameterTarget) (link : Symbol × Nat) :
    ParameterTarget :=
  match params[link.2]? with
  | none => t
  | some p =>
    match p.value.words with
    | .ok ws => copyWords p.value.info ws link.1 t
    | .error _ => t

def copyParameters (params : List Effect.Param) (indices : List Nat) (symbols : List Symbol)
    (t : ParameterTarget) : ParameterTarget :=
  (symbols.zip indices).foldl (copyParameter params) t

def StageRegisters.copyParameters (params : List Effect.Param) (indices : List Nat)
    (symbols : List Symbol) (r : StageRegisters) : StageRegisters :=
  let t := Device.copyParameters params indices symbols ⟨r.floats, some r.ints, some r.bools⟩
  ⟨t.floats, t.ints.getD r.ints, t.bools.getD r.bools⟩

end ShaderPipeline.Device
