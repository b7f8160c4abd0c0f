import ShaderPipeline.Effect.Container

/-!
# Building effect containers

A builder collects data, and entries that refer to it. `Builder.toBytes` lays out the container.
-/

namespace ShaderPipeline.Effect

/-- The type and the data of a value, by their offsets. -/
structure ValueRef where
  typeAt : Nat
  valueAt : Nat
  deriving DecidableEq, Repr, Inhabited

abbrev StateEntry := Nat × ValueRef

/-- A large object to be written. -/
structure LargeEntry where
  technique : Nat
  index : Nat
  state : Nat
  kind : Nat
  bytes : List UInt8
  deriving DecidableEq, Repr

/-- A container being built. -/
structure Builder where
  /-- The data that offsets refer to. -/
  data : List UInt8
  /-- The parameters with their annotations. -/
  params : List (ValueRef × List ValueRef)
  /-- The techniques: the offset of the name, and the passes with the offsets of their names. -/
  techniques : List (Nat × List (Nat × List StateEntry))
  objectCount : Nat
  small : List (Nat × List UInt8)
  large : List LargeEntry
  deriving DecidableEq, Repr

def numberBytes (ns : List Nat) : List UInt8 := bytesOfWords (ns.map UInt32.ofNat)

/-- Zero bytes up to a multiple of four. -/
def padded (bytes : List UInt8) : List UInt8 :=
  bytes ++ List.replicate ((4 - bytes.length % 4) % 4) 0

namespace Builder

/-- An empty container. Offset zero holds a length of zero, so that it reads as no text. -/
def empty : Builder := ⟨[0, 0, 0, 0], [], [], 0, [], []⟩

def add (b : Builder) (bytes : List UInt8) : Nat × Builder :=
  (b.data.length, { b with data := b.data ++ bytes })

def words (b : Builder) (ns : List Nat) : Nat × Builder := b.add (numberBytes ns)

/-- Adds a text with its length in front and a zero byte at its end. -/
def string (b : Builder) (s : String) : Nat × Builder :=
  let utf8 := s.toUTF8.data.toList
  let body := numberBytes [utf8.length + 1] ++ utf8 ++ [0]
  b.add (body ++ List.replicate ((4 - (b.data.length + body.length) % 4) % 4) 0)

def strings (b : Builder) : List String → List Nat × Builder
  | [] => ([], b)
  | s :: rest =>
    let (n, b) := b.string s
    let (ns, b) := b.strings rest
    (n :: ns, b)

variable (b : Builder)

/-- Adds the front of a type. An empty name is not stored. -/
def typeHeader (elem : ElementType) (cls : TypeClass) (name : String) (elements : Nat) :
    Nat × Builder :=
  let (nameAt, b) := if name.isEmpty then (0, b) else b.string name
  b.words [elem.code, cls.code, nameAt, 0, elements]

def numeric (b : Builder) (elem : ElementType) (cls : TypeClass) (name : String)
    (rows columns elements : Nat) (values : List Nat) : ValueRef × Builder :=
  let (typeAt, b) := b.typeHeader elem cls name elements
  let (_, b) := b.words [columns, rows]
  let (valueAt, b) := b.words values
  (⟨typeAt, valueAt⟩, b)

def floatValue (name : String) (rows columns : Nat) (values : List Nat) : ValueRef × Builder :=
  let cls : TypeClass :=
    if rows = 1 then (if columns = 1 then .scalar else .vector) else .matrixRows
  b.numeric .float cls name rows columns 0 values

/-- Adds an integer without a name. -/
def intValue (value : Nat) : ValueRef × Builder :=
  b.numeric .int .scalar "" 1 1 0 [value]

/-- Adds a value that names objects. A single object is no array. -/
def objectValue (elem : ElementType) (name : String) (indices : List Nat) : ValueRef × Builder :=
  let (typeAt, b) :=
    b.typeHeader elem .object name (if indices.length = 1 then 0 else indices.length)
  let (valueAt, b) := b.words indices
  (⟨typeAt, valueAt⟩, b)

def stateWords (states : List StateEntry) : List Nat :=
  states.flatMap fun (code, v) => [code, 0, v.typeAt, v.valueAt]

def samplerValue (elem : ElementType) (name : String) (states : List StateEntry) :
    ValueRef × Builder :=
  let (typeAt, b) := b.typeHeader elem .object name 0
  let (valueAt, b) := b.words (states.length :: stateWords states)
  (⟨typeAt, valueAt⟩, b)

def structValue (name : String) (members : List (String × Nat × Nat)) (values : List Nat) :
    ValueRef × Builder :=
  let (names, b) := b.strings (members.map (·.1))
  let (typeAt, b) := b.typeHeader .void .struct name 0
  let descriptions := (members.zip names).flatMap fun ((_, rows, columns), nameAt) =>
    let cls : TypeClass := if columns = 1 then .scalar else .vector
    [ElementType.float.code, cls.code, nameAt, 0, 1, columns, rows]
  let (_, b) := b.words (members.length :: descriptions ++ values)
  (⟨typeAt, 0⟩, b)

def param (v : ValueRef) : Nat × Builder :=
  (b.params.length, { b with params := b.params ++ [(v, [])] })

def annotate (param : Nat) (v : ValueRef) : Builder :=
  { b with params := b.params.modify param fun (p, as) => (p, as ++ [v]) }

def passNames (b : Builder) : List (String × List StateEntry) →
    List (Nat × List StateEntry) × Builder
  | [] => ([], b)
  | (name, states) :: rest =>
    let (nameAt, b) := b.string name
    let (ps, b) := b.passNames rest
    ((nameAt, states) :: ps, b)

def technique (b : Builder) (name : String) (passes : List (String × List StateEntry)) :
    Nat × Builder :=
  let (nameAt, b) := b.string name
  let (passes, b) := b.passNames passes
  (b.techniques.length, { b with techniques := b.techniques ++ [(nameAt, passes)] })

def smallObject (index : Nat) (bytes : List UInt8) : Builder :=
  { b with small := b.small ++ [(index, bytes)] }

def largeObject (o : LargeEntry) : Builder := { b with large := b.large ++ [o] }

def paramBytes (p : ValueRef × List ValueRef) : List UInt8 :=
  numberBytes ([p.1.typeAt, p.1.valueAt, 0, p.2.length] ++
    p.2.flatMap fun a => [a.typeAt, a.valueAt])

def techniqueBytes (t : Nat × List (Nat × List StateEntry)) : List UInt8 :=
  numberBytes ([t.1, 0, t.2.length] ++
    t.2.flatMap fun (nameAt, states) => [nameAt, 0, states.length] ++ stateWords states)

def smallBytes (o : Nat × List UInt8) : List UInt8 :=
  numberBytes [o.1, o.2.length] ++ padded o.2

def largeBytes (o : LargeEntry) : List UInt8 :=
  numberBytes [o.technique, o.index, 0, o.state, o.kind, o.bytes.length] ++ padded o.bytes

def contents (b : Builder) : List UInt8 :=
  numberBytes [b.params.length, b.techniques.length, 0, b.objectCount] ++
    b.params.flatMap paramBytes ++ b.techniques.flatMap techniqueBytes ++
    numberBytes [b.small.length, b.large.length] ++ b.small.flatMap smallBytes ++
    b.large.flatMap largeBytes

def toBytes : List UInt8 :=
  numberBytes [magic, b.data.length] ++ b.data ++ b.contents

def toBytesWithPreamble (filling : Nat) : List UInt8 :=
  numberBytes [preambleMagic, 8 + filling] ++ List.replicate filling 0xCD ++ b.toBytes

end Builder

def selectorBytes (array : String) (words : List Word) : List UInt8 :=
  let name := padded (array.toUTF8.data.toList ++ [0])
  numberBytes [name.length] ++ name ++ bytesOfWords words

end ShaderPipeline.Effect
