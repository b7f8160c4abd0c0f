import Mathlib.Tactic.MkIffOfInductiveProp
import ShaderPipeline.Effect.Builder
import ShaderPipeline.Proofs.Text.Utf8

/-!
# Calls to a builder of effects

A run of calls leaves a builder, which lays out a container. The same run also says what effect is
asked for, without any layout: its *draft*. Values are named by number, in the order in which the
calls made them.

The type of an object is not written down with the object. It comes from the values that refer to
the object, the last of them in the order in which a container is read: the annotations of a
parameter before the parameter, and techniques after all parameters.
-/

namespace ShaderPipeline.Effect

/-- A call to a builder. Values that earlier calls have made are given by their numbers. -/
inductive BuilderCall where
  | objects (count : Nat)
  | numeric (elem : ElementType) (cls : TypeClass) (name : String) (rows columns elements : Nat)
    (values : List Word)
  | object (elem : ElementType) (name : String) (indices : List Word)
  | sampler (elem : ElementType) (name : String) (states : List (Word × Nat))
  | struct (name : String) (members : List (String × Nat × Nat)) (values : List Word)
  | param (value : Nat)
  | annotate (param value : Nat)
  | technique (name : String) (passes : List (String × List (Word × Nat)))
  | small (index : Nat) (bytes : List UInt8)
  deriving DecidableEq, Repr

/-! ### The builder -/

/-- A builder and the values it has given out. -/
structure Workbench where
  builder : Builder
  refs : List ValueRef

namespace Workbench

def empty : Workbench := ⟨.empty, []⟩

def ref (w : Workbench) (n : Nat) : ValueRef := w.refs.getD n default

def states (w : Workbench) (ss : List (Word × Nat)) : List StateEntry :=
  ss.map fun (code, n) => (code.toNat, w.ref n)

def keep (w : Workbench) (made : ValueRef × Builder) : Workbench := ⟨made.2, w.refs ++ [made.1]⟩

def call (w : Workbench) : BuilderCall → Workbench
  | .objects count => { w with builder := { w.builder with objectCount := count } }
  | .numeric elem cls name rows columns elements values =>
    w.keep (w.builder.numeric elem cls name rows columns elements (values.map UInt32.toNat))
  | .object elem name indices =>
    w.keep (w.builder.objectValue elem name (indices.map UInt32.toNat))
  | .sampler elem name ss => w.keep (w.builder.samplerValue elem name (w.states ss))
  | .struct name members values =>
    w.keep (w.builder.structValue name members (values.map UInt32.toNat))
  | .param n => { w with builder := (w.builder.param (w.ref n)).2 }
  | .annotate p n => { w with builder := w.builder.annotate p (w.ref n) }
  | .technique name passes =>
    { w with builder :=
        (w.builder.technique name (passes.map fun (name, ss) => (name, w.states ss))).2 }
  | .small index bytes => { w with builder := w.builder.smallObject index bytes }

/-- The builder after a run of calls. -/
def build (calls : List BuilderCall) : Builder := (calls.foldl call empty).builder

end Workbench

/-! ### Values -/

instance : Inhabited Value := ⟨⟨none, none, ⟨.scalar, .void, 0, 0, 0, []⟩, .registers []⟩⟩

def layRows : (columns : List Nat) → List Word → List Word
  | [], _ => []
  | c :: rest, ws => ws.take c ++ List.replicate (4 - c) 0 ++ layRows rest (ws.drop c)

variable (elem : ElementType) (d : Draft) (name : String)

/-- The name of a value. An empty one is none. -/
def valueName : Option String := if name.isEmpty then none else some name

def numericValue (cls : TypeClass) (name : String) (rows columns elements : Nat)
    (values : List Word) : Value :=
  ⟨valueName name, none, ⟨cls, elem, rows, columns, elements, []⟩,
    .registers (layRows (List.replicate (rows * max elements 1) columns) values)⟩

def objectValue (indices : List Word) : Value :=
  ⟨valueName name, none,
    ⟨.object, elem, 0, 0, if indices.length = 1 then 0 else indices.length, []⟩, .objects indices⟩

def samplerValue (states : List (Word × Value)) : Value :=
  ⟨valueName name, none, ⟨.object, elem, 0, 0, 0, []⟩,
    .states (states.map fun (code, v) => ⟨ReaderM.samplerStateCode code, v⟩)⟩

def structMember (m : String × Nat × Nat) : Member :=
  ⟨m.1, ⟨if m.2.2 = 1 then .scalar else .vector, .float, m.2.1, m.2.2, 1, []⟩⟩

def structValue (members : List (String × Nat × Nat)) (values : List Word) : Value :=
  ⟨valueName name, none,
    ⟨.struct, .void, 1, (members.map fun m => 4 * m.2.1).sum, 0, members.map structMember⟩,
    .registers (layRows (members.flatMap fun m => List.replicate m.2.1 m.2.2) values)⟩

mutual

def Value.typed : Value → List (Nat × ElementType)
  | ⟨_, _, info, data⟩ => data.typed info.elem

def ValueData.typed (elem : ElementType) : ValueData → List (Nat × ElementType)
  | .registers _ => []
  | .objects indices => indices.map fun w => (w.toNat, elem)
  | .states ss => State.typed elem ss

def State.typed (elem : ElementType) : List State → List (Nat × ElementType)
  | [] => []
  | ⟨code, v⟩ :: ss =>
    v.typed ++ (if code = textureState then (v.firstWord?.map fun w => (w.toNat, elem)).toList
      else []) ++ State.typed elem ss

end

mutual

def Value.depth : Value → Nat
  | ⟨_, _, _, data⟩ => data.depth

def ValueData.depth : ValueData → Nat
  | .registers _ | .objects _ => 0
  | .states ss => State.depth ss

def State.depth : List State → Nat
  | [] => 0
  | ⟨_, v⟩ :: ss => max (v.depth + 1) (State.depth ss)

end

def Param.typed (p : Param) : List (Nat × ElementType) :=
  p.annotations.flatMap Value.typed ++ p.value.typed

def Pass.typed (p : Pass) : List (Nat × ElementType) := p.states.flatMap fun s => s.value.typed

def Technique.typed (t : Technique) : List (Nat × ElementType) := t.passes.flatMap Pass.typed

/-! ### The draft -/

/-- What is asked for. -/
structure Draft where
  values : List Value
  params : List Param
  techniques : List Technique
  objectCount : Nat
  small : List (Nat × List UInt8)
  deriving DecidableEq, Repr

namespace Draft

def empty : Draft := ⟨[], [], [], 0, []⟩

def value (d : Draft) (n : Nat) : Value := d.values.getD n default

def keep (d : Draft) (v : Value) : Draft := { d with values := d.values ++ [v] }

def call (d : Draft) : BuilderCall → Draft
  | .objects count => { d with objectCount := count }
  | .numeric elem cls name rows columns elements values =>
    d.keep (numericValue elem cls name rows columns elements values)
  | .object elem name indices => d.keep (objectValue elem name indices)
  | .sampler elem name ss =>
    d.keep (samplerValue elem name (ss.map fun (code, n) => (code, d.value n)))
  | .struct name members values => d.keep (structValue name members values)
  | .param n => { d with params := d.params ++ [⟨d.value n, []⟩] }
  | .annotate p n =>
    { d with params := d.params.modify p fun q =>
        { q with annotations := q.annotations ++ [d.value n] } }
  | .technique name passes =>
    { d with techniques := d.techniques ++ [{
        name := some name
        passes := passes.map fun (name, ss) =>
          ⟨some name, ss.map fun (code, n) => ⟨code.toNat, d.value n⟩, []⟩
        annotations := [] }] }
  | .small index bytes => { d with small := d.small ++ [(index, bytes)] }

def ofCalls (calls : List BuilderCall) : Draft := calls.foldl call empty

def typed (d : Draft) : List (Nat × ElementType) :=
  d.params.flatMap Param.typed ++ d.techniques.flatMap Technique.typed

end Draft

/-- The last entry for a number. -/
def lastFor? {α : Type} (n : Nat) (entries : List (Nat × α)) : Option α :=
  (entries.reverse.find? (·.1 == n)).map (·.2)

def textData (type : ElementType) (bytes : List UInt8) : ObjectData :=
  if type = .string then .string (lossyTextUntilZero bytes)
  else .mapping (lossyTextUntilZero bytes)

namespace Draft

def objectType (d : Draft) (n : Nat) : ElementType := (lastFor? n d.typed).getD .void

/-- What an object holds: the last text that is not empty. -/
def objectData (d : Draft) (n : Nat) : ObjectData :=
  match lastFor? n (d.small.filter fun o => !o.2.isEmpty) with
  | none => .none
  | some bytes => textData (d.objectType n) bytes

def effect (d : Draft) (profile : Profile) : Effect where
  profile := profile
  diagnostics := []
  params := d.params
  techniques := d.techniques
  objects := ((List.range d.objectCount).map fun n => ⟨d.objectType n, d.objectData n⟩).toArray
  technique := if d.techniques.isEmpty then none else some 0
  pass := none

end Draft

/-! ### Calls that a container can follow -/

/-- A call that fits its draft: names end at their zero byte, values have their data and stay within
the limits of a reader, and the numbers of values and parameters are taken. A value made of numbers
has a numeric type and a numeric class, and a sampler has the type of a sampler: a reader goes by
these two, so that any others would make it a value of another kind. -/
def BuilderCall.Valid : BuilderCall → Prop
  | .objects _ | .small _ _ => True
  | .numeric elem cls name rows columns elements values =>
    elem.isNumeric = true ∧ cls.isNumeric = true ∧ 0 ∉ utf8Bytes name ∧ columns ≤ 4 ∧
      elements < 2 ^ 32 ∧ 4 * rows * max elements 1 ≤ maxValueWords ∧
      rows * max elements 1 * columns ≤ values.length
  | .object elem name indices =>
    (elem = .string ∨ elem.isTexture = true) ∧ 0 ∉ utf8Bytes name ∧ indices ≠ []
  | .sampler elem name ss =>
    elem.isSampler = true ∧ 0 ∉ utf8Bytes name ∧ ∀ s ∈ ss, s.2 < d.values.length ∧
      (d.value s.2).depth < maxDepth ∧
      (ReaderM.samplerStateCode s.1 = textureState → (d.value s.2).firstWord? ≠ none)
  | .struct name members values =>
    0 ∉ utf8Bytes name ∧ (∀ m ∈ members, 0 ∉ utf8Bytes m.1 ∧ m.2.2 ≤ 4) ∧
      (members.map fun m => 4 * m.2.1).sum ≤ maxValueWords ∧
      (members.map fun m => m.2.1 * m.2.2).sum ≤ values.length
  | .param n => n < d.values.length
  | .annotate p n => p < d.params.length ∧ n < d.values.length
  | .technique name passes =>
    0 ∉ utf8Bytes name ∧ ∀ p ∈ passes, 0 ∉ utf8Bytes p.1 ∧ ∀ s ∈ p.2, s.2 < d.values.length

instance : (c : BuilderCall) → Decidable (c.Valid d)
  | .objects _ | .small _ _ => inferInstanceAs (Decidable True)
  | .numeric .. | .object .. | .sampler .. | .struct .. | .annotate .. | .technique .. =>
    inferInstanceAs (Decidable (_ ∧ _))
  | .param _ => inferInstanceAs (Decidable (_ < _))

def ValidRun (d : Draft) : List BuilderCall → Prop
  | [] => True
  | c :: rest => c.Valid d ∧ ValidRun (d.call c) rest

instance decidableValidRun (d : Draft) : (calls : List BuilderCall) → Decidable (ValidRun d calls)
  | [] => inferInstanceAs (Decidable True)
  | c :: rest =>
    have := decidableValidRun (d.call c) rest
    inferInstanceAs (Decidable (_ ∧ _))

/-- Every object that is referred to exists, and only such objects are given. -/
@[mk_iff]
structure Draft.Complete (d : Draft) : Prop where
  objectCount : d.objectCount ≤ maxObjects
  typed : ∀ x ∈ d.typed, x.1 < d.objectCount
  small : ∀ o ∈ d.small, ∃ x ∈ d.typed, x.1 = o.1

instance : Decidable d.Complete :=
  decidable_of_iff _ (Draft.complete_iff d).symm

end ShaderPipeline.Effect
