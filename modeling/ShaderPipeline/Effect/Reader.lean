import ShaderPipeline.Effect.Basic
import ShaderPipeline.Effect.Catalogue
import ShaderPipeline.Effect.Error

/-!
# Reading the values of an effect

The table of contents of an effect is read from front to back. It refers to types, values and
names by offsets from the base of the container. While values are read, the types of the objects
they refer to are recorded.
-/

namespace ShaderPipeline.Effect

/-- The most objects an effect may have. -/
def maxObjects : Nat := 65536

/-- The most words a value may have. -/
def maxValueWords : Nat := 2 ^ 20

/-- How many levels of sampler states may be nested inside a value. -/
def maxDepth : Nat := 4

variable (base : Bytes)

def wordAt (offset : Nat) (what : String) : Except EffectError Word :=
  match wordAt? base offset with
  | some w => .ok w
  | none => .error (.unexpectedEof what)

def numberAt (offset : Nat) (what : String) : Except EffectError Nat := do
  return (← wordAt base offset what).toNat

def bytesAt (offset len : Nat) (what : String) : Except EffectError Bytes :=
  match slice? base offset len with
  | some b => .ok b
  | none => .error (.unexpectedEof what)

/-- The text at an offset, which starts with its length. A length of zero means that there is no
text, and a zero byte ends it early. -/
def stringAt (offset : Nat) : Except EffectError (Option String) := do
  let len ← numberAt base offset "string length"
  if len = 0 then
    return none
  let bytes ← bytesAt base (offset + 4) len "string"
  return some (lossyTextUntilZero bytes.toList)

/-- A row of four words, of which the first `columns` are read from an offset on. -/
def rowAt (offset columns : Nat) : List Word :=
  (List.range 4).map fun k =>
    if k < columns then (wordAt? base (offset + 4 * k)).getD 0 else 0

/-- The rows that start at an offset, one after the other, each with its own number of columns;
`done` holds the words before, the last one first. -/
def rowsFrom (base : Bytes) : (offset : Nat) → (rows : List Nat) → (done : List Word) → List Word
  | _, [], done => done.reverse
  | offset, columns :: rest, done =>
    rowsFrom base (offset + 4 * columns) rest ((rowAt base offset columns).reverse ++ done)

def readRows (offset : Nat) (rows : List Nat) (what : String) : Except EffectError (List Word) :=
  if rows ≠ [] ∧ base.size < offset + 4 * rows.sum then .error (.unexpectedEof what)
  else .ok (rowsFrom base offset rows [])

/-- The words of `rows` rows for each element; no elements count as one. -/
def valueWords (rows elements : Nat) : Except EffectError Nat :=
  let n := 4 * rows * max elements 1 % 2 ^ 64
  if maxValueWords < n then .error (.outOfMemory (.valueWords n)) else .ok n

/-- The members of a structure, their words, and the offset after the last of them. -/
def readMembers (base : Bytes) : (count offset words : Nat) → (done : List Member) →
    Except EffectError (List Member × Nat × Nat)
  | 0, offset, words, done => return (done.reverse, words, offset)
  | count + 1, offset, words, done => do
    let what := "struct member"
    let elem := ElementType.ofCode (← numberAt base offset what)
    let cls ← numberAt base (offset + 4) what
    let nameOffset ← numberAt base (offset + 8) what
    let elements ← numberAt base (offset + 16) what
    let columns ← numberAt base (offset + 20) what
    let rows ← numberAt base (offset + 24) what
    let cls ←
      match TypeClass.ofCode? cls, elem.isNumeric with
      | some .scalar, true => pure TypeClass.scalar
      | some .vector, true => pure .vector
      | _, _ => throw (.malformed (.structMember cls elem))
    if 4 < columns then
      throw (.malformed (.columns columns))
    let size ← valueWords rows elements
    let name ← stringAt base nameOffset
    readMembers base count (offset + 28) (words + size)
      (⟨name.getD "", ⟨cls, elem, rows, columns, elements, []⟩⟩ :: done)

def memberRows (members : List Member) : List Nat :=
  members.flatMap fun m =>
    List.replicate (m.info.rows * max m.info.elements 1 % 2 ^ 32) m.info.columns

def structRows (elements : Nat) (members : List Member) : List Nat :=
  match memberRows members with
  | [] => []
  | rows => (List.replicate elements rows).flatten

/-- Reads a structure whose member count stands at an offset. Its data follow the descriptions of
its members. -/
def readStruct (info : TypeInfo) (offset : Nat) :
    Except EffectError (TypeInfo × List Word) := do
  let count ← numberAt base offset "struct member count"
  let (members, size, dataAt) ← readMembers base count (offset + 4) 0 []
  let elements := max info.elements 1
  let total := size * elements % 2 ^ 64
  if maxValueWords < total then
    throw (.outOfMemory (.structWords total))
  let words ← readRows base dataAt (structRows elements members) "struct data"
  return ({ info with rows := 1, columns := wrap32 size, members }, words)

/-- The place in the table of contents and the types of objects found so far. -/
structure ReaderState where
  position : Nat
  types : Array ElementType
  deriving DecidableEq, Repr

abbrev ReaderM := StateT ReaderState (Except EffectError)

namespace ReaderM

def next (base : Bytes) (what : String) : ReaderM Nat := do
  let n ← numberAt base (← get).position what
  modify fun s => { s with position := s.position + 4 }
  return n

def remaining (base : Bytes) : ReaderM Nat := do return base.size - (← get).position

def typeObject (index : Nat) (type : ElementType) : ReaderM Unit := do
  let types := (← get).types
  if index < types.size then
    modify fun s => { s with types := s.types.setIfInBounds index type }
  else
    throw (.badObjectIndex index types.size)

def typeObjects (type : ElementType) : List Word → ReaderM Unit
  | [] => return
  | w :: rest => do
    typeObject w.toNat type
    typeObjects type rest

def times {α : Type} (m : ReaderM α) : Nat → ReaderM (List α)
  | 0 => return []
  | n + 1 => do
    let a ← m
    return a :: (← times m n)

/-- The number of a sampler state, without the two flags that are stored with it. -/
def samplerStateCode (w : Word) : Nat := (w &&& ~~~0xA0).toNat

/-- Reads the `count` sampler states from an offset on, their values by `readValue`. A texture
takes the type of the sampler it is bound to. -/
def samplerStates (base : Bytes) (samplerType : ElementType)
    (readValue : (typeAt valueAt : Nat) → ReaderM Value) :
    (count offset : Nat) → ReaderM (List State)
  | 0, _ => return []
  | count + 1, offset => do
    let what := "sampler state"
    let code := samplerStateCode (← wordAt base offset what)
    let typeAt ← numberAt base (offset + 8) what
    let valueAt ← numberAt base (offset + 12) what
    let value ← readValue typeAt valueAt
    if code = textureState then
      match value.firstWord? with
      | none => throw (.malformed .textureWithoutValue)
      | some w => typeObject w.toNat samplerType
    return ⟨code, value⟩ :: (← samplerStates base samplerType readValue count (offset + 16))

def objectIndices (base : Bytes) (offset count : Nat) (type : ElementType) :
    ReaderM (List Word) := do
  let bytes ← bytesAt base offset (count * 4) "object indices"
  let indices := wordsOfBytes bytes.toList
  typeObjects type indices
  return indices

/-- Reads the data of a value whose type stands at `typeAt`, and completes its type; sampler
states are read by `readStates`. -/
def valueData (base : Bytes) (typeAt valueAt code : Nat) (info : TypeInfo)
    (readStates : ReaderM (List State)) : ReaderM (TypeInfo × ValueData) := do
  match info.cls with
  | .object =>
    if info.elem.isSampler then
      return (info, .states (← readStates))
    if code < ElementType.string.code ∨ ElementType.vertexShader.code < code then
      throw (.malformed (.objectOfType info.elem))
    return (info, .objects (← objectIndices base valueAt (max info.elements 1) info.elem))
  | .struct =>
    let (info, words) ← readStruct base info (typeAt + 20)
    return (info, .registers words)
  | cls =>
    if !info.elem.isNumeric then
      throw (.malformed (.classOfType cls info.elem))
    let columns ← numberAt base (typeAt + 20) "value columns"
    let rows ← numberAt base (typeAt + 24) "value rows"
    let count := (← valueWords rows info.elements) / 4
    if 4 < columns then
      throw (.malformed (.columns columns))
    let words ← readRows base valueAt (List.replicate count columns) "value data"
    return ({ info with rows, columns }, .registers words)

/-- Reads a value, where `levels` levels of values may be nested. -/
def value (base : Bytes) : (levels typeAt valueAt : Nat) → ReaderM Value
  | 0, _, _ => throw (.malformed .nestedSamplers)
  | levels + 1, typeAt, valueAt => do
    let code ← numberAt base typeAt "value type"
    let cls ← numberAt base (typeAt + 4) "value class"
    let name ← stringAt base (← numberAt base (typeAt + 8) "value name")
    let semantic ← stringAt base (← numberAt base (typeAt + 12) "value semantic")
    let elements ← numberAt base (typeAt + 16) "value elements"
    let elem := ElementType.ofCode code
    match TypeClass.ofCode? cls with
    | none => throw (.malformed (.unknownClass cls))
    | some c =>
      let readStates : ReaderM (List State) := do
        let count ← numberAt base valueAt "sampler state count"
        samplerStates base elem (value base levels) count (valueAt + 4)
      let (info, data) ← valueData base typeAt valueAt code ⟨c, elem, 0, 0, elements, []⟩ readStates
      return ⟨name, semantic, info, data⟩

def topValue (base : Bytes) (typeAt valueAt : Nat) : ReaderM Value :=
  value base (maxDepth + 1) typeAt valueAt

def annotations (base : Bytes) (count : Nat) : ReaderM (List Value) :=
  times (do
    let typeAt ← next base "annotation"
    let valueAt ← next base "annotation"
    topValue base typeAt valueAt) count

def param (base : Bytes) : ReaderM Param := do
  let what := "parameter"
  let typeAt ← next base what
  let valueAt ← next base what
  let _flags ← next base what
  let count ← next base what
  let annotations ← annotations base count
  let value ← topValue base typeAt valueAt
  return ⟨value, annotations⟩

def passState (base : Bytes) : ReaderM State := do
  let what := "render state"
  let code ← next base what
  let _unused ← next base what
  let typeAt ← next base what
  let valueAt ← next base what
  return ⟨code, ← topValue base typeAt valueAt⟩

def pass (base : Bytes) : ReaderM Pass := do
  let what := "pass"
  let nameAt ← next base what
  let annotationCount ← next base what
  let stateCount ← next base what
  let name ← stringAt base nameAt
  let annotations ← annotations base annotationCount
  let states ← times (passState base) stateCount
  return { name, states, annotations }

def technique (base : Bytes) : ReaderM Technique := do
  let what := "technique"
  let nameAt ← next base what
  let annotationCount ← next base what
  let passCount ← next base what
  let name ← stringAt base nameAt
  let annotations ← annotations base annotationCount
  let passes ← times (pass base) passCount
  return { name, passes, annotations }

end ReaderM

end ShaderPipeline.Effect
