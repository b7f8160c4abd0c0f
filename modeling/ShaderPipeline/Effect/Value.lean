import ShaderPipeline.Bytes.Word
import ShaderPipeline.Effect.Usage
import ShaderPipeline.Symbol.Type

/-!
# Values of an effect

Parameters, annotations and states carry values. Numbers are kept in rows of four words, whatever
their number of columns; objects are given by their indices; a sampler is a list of states, each
with a value of its own.
-/

namespace ShaderPipeline

namespace Effect

mutual

/-- What a value holds. -/
inductive ValueData where
  /-- Rows of four words, read as floats or integers depending on the type. -/
  | registers (words : List Word)
  /-- Indices of objects. -/
  | objects (indices : List Word)
  /-- The states of a sampler. -/
  | states (states : List State)
  deriving Repr

/-- A value with its name and type. -/
structure Value where
  name : Option String
  semantic : Option String
  info : TypeInfo
  data : ValueData
  deriving Repr

/-- A state, by its number, and the value it is set to. -/
structure State where
  code : Nat
  value : Value
  deriving Repr

end

mutual

def ValueData.decideEq : (a b : ValueData) → Decidable (a = b)
  | .registers v, .registers w =>
    if h : v = w then isTrue (by rw [h]) else isFalse (by intro e; cases e; exact h rfl)
  | .objects v, .objects w =>
    if h : v = w then isTrue (by rw [h]) else isFalse (by intro e; cases e; exact h rfl)
  | .states v, .states w =>
    match State.decideEqList v w with
    | isTrue h => isTrue (by rw [h])
    | isFalse h => isFalse (by intro e; cases e; exact h rfl)
  | .registers _, .objects _ => isFalse (by intro e; cases e)
  | .registers _, .states _ => isFalse (by intro e; cases e)
  | .objects _, .registers _ => isFalse (by intro e; cases e)
  | .objects _, .states _ => isFalse (by intro e; cases e)
  | .states _, .registers _ => isFalse (by intro e; cases e)
  | .states _, .objects _ => isFalse (by intro e; cases e)

def Value.decideEq : (a b : Value) → Decidable (a = b)
  | ⟨n, s, i, d⟩, ⟨n', s', i', d'⟩ =>
    match decEq (n, s, i) (n', s', i'), ValueData.decideEq d d' with
    | isTrue h₁, isTrue h₂ => isTrue (by cases h₁; rw [h₂])
    | isFalse h, _ => isFalse (by intro e; cases e; exact h rfl)
    | _, isFalse h => isFalse (by intro e; cases e; exact h rfl)

def State.decideEq : (a b : State) → Decidable (a = b)
  | ⟨c, v⟩, ⟨c', v'⟩ =>
    match decEq c c', Value.decideEq v v' with
    | isTrue h₁, isTrue h₂ => isTrue (by rw [h₁, h₂])
    | isFalse h, _ => isFalse (by intro e; cases e; exact h rfl)
    | _, isFalse h => isFalse (by intro e; cases e; exact h rfl)

def State.decideEqList : (a b : List State) → Decidable (a = b)
  | [], [] => isTrue rfl
  | [], _ :: _ => isFalse (by intro e; cases e)
  | _ :: _, [] => isFalse (by intro e; cases e)
  | s :: ss, t :: ts =>
    match State.decideEq s t, State.decideEqList ss ts with
    | isTrue h₁, isTrue h₂ => isTrue (by rw [h₁, h₂])
    | isFalse h, _ => isFalse (by intro e; cases e; exact h rfl)
    | _, isFalse h => isFalse (by intro e; cases e; exact h rfl)

end

instance : DecidableEq ValueData := ValueData.decideEq

instance : DecidableEq Value := Value.decideEq

instance : DecidableEq State := State.decideEq

def ValueData.kind : ValueData → DataKind
  | registers _ => .registers
  | objects _ => .objects
  | states _ => .states

namespace Value

def count (v : Value) : Nat :=
  match v.data with
  | .registers ws => ws.length
  | .objects ws => ws.length
  | .states ss => ss.length

/-- The refusal of a view that the data does not allow. -/
def wrongKind {α : Type} (v : Value) (expected : DataKind) : Except UsageError α :=
  .error (.wrongValueKind expected v.data.kind)

def words (v : Value) : Except UsageError (List Word) :=
  match v.data with
  | .registers ws => .ok ws
  | _ => v.wrongKind .registers

def objects (v : Value) : Except UsageError (List Word) :=
  match v.data with
  | .objects ws => .ok ws
  | _ => v.wrongKind .objects

def states (v : Value) : Except UsageError (List State) :=
  match v.data with
  | .states ss => .ok ss
  | _ => v.wrongKind .states

def bytes (v : Value) : Except UsageError (List UInt8) :=
  match v.data with
  | .registers ws | .objects ws => .ok (bytesOfWords ws)
  | .states _ => v.wrongKind .registers

/-- The first word of register or object data. -/
def firstWord? (v : Value) : Option Word :=
  match v.data with
  | .registers ws | .objects ws => ws.head?
  | .states _ => none

def withWords (v : Value) (ws : List Word) : Value :=
  match v.data with
  | .registers _ => { v with data := .registers ws }
  | .objects _ => { v with data := .objects ws }
  | .states _ => v

def writeBytes (v : Value) (offset : Nat) (data : List UInt8) : Except UsageError Value := do
  let old ← v.bytes
  if old.length < offset + data.length then
    throw (.valueOverflow offset data.length old.length)
  let new := old.take offset ++ data ++ old.drop (offset + data.length)
  return v.withWords (wordsOfBytes new)

end Value

end Effect

end ShaderPipeline
