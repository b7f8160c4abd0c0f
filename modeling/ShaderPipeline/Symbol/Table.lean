import ShaderPipeline.Bytes.Word
import ShaderPipeline.Symbol.Type
import ShaderPipeline.Text.Lossy
import ShaderPipeline.Text.Quoted

/-!
# Reading constant tables

A constant table sits in a comment of a shader and maps names to register ranges. Everything in it
is found through byte offsets that count from the byte after the table's tag: a header, an array
of constants, their types, and a pool of zero-terminated names.
-/

namespace ShaderPipeline

/-- What is wrong with a constant table. -/
inductive TableError where
  | notConstantTable
  | badHeaderSize (size : Nat)
  | outOfBounds (what : String) (offset : Nat)
  | tooManyConstants (count : Nat)
  | badRegisterSet (name : String) (code : Nat)
  | badClass (code : Nat)
  | tooDeep
  deriving DecidableEq, Repr

/-- A constant table: who made it, for which target, and its symbols. -/
structure ConstantTable where
  creator : String
  target : String
  symbols : List Symbol
  deriving DecidableEq, Repr

namespace ConstantTable

def tag : Word := tagWord 'C' 'T' 'A' 'B'

def headerSize : Nat := 28

/-- The most constants a table may have. -/
def maxConstants : Nat := 4096

def maxDepth : Nat := 16

def constantSize : Nat := 20

def typeSize : Nat := 16

def memberSize : Nat := 8

end ConstantTable

def TableError.message : TableError → String
  | notConstantTable => "comment block is not a CTAB"
  | badHeaderSize n => s!"CTAB header size {n} is invalid"
  | outOfBounds what offset => s!"CTAB {what} at offset {offset} is out of bounds"
  | tooManyConstants n => s!"CTAB declares {n} constants"
  | badRegisterSet name code =>
    "CTAB constant " ++ quoted name ++ s!" uses unknown register set {code}"
  | badClass n => s!"CTAB type uses unknown class {n}"
  | tooDeep => s!"CTAB struct members nest deeper than {ConstantTable.maxDepth}"

namespace ConstantTable

def word (b : Bytes) (offset : Nat) (what : String) : Except TableError Nat :=
  match wordAt? b offset with
  | some w => .ok w.toNat
  | none => .error (.outOfBounds what offset)

def half (b : Bytes) (offset : Nat) (what : String) : Except TableError Nat :=
  match halfAt? b offset with
  | some n => .ok n
  | none => .error (.outOfBounds what offset)

/-- The zero-terminated name at an offset. -/
def name (b : Bytes) (offset : Nat) (what : String) : Except TableError String :=
  match zeroTerminated? b b.size offset with
  | some cs => .ok (lossyText cs)
  | none => .error (.outOfBounds what offset)

/-- The `count` members whose entries start at an offset, their types read by `readType`. -/
def readMembers (b : Bytes) (readType : Nat → Except TableError TypeInfo) :
    (offset count : Nat) → Except TableError (List Member)
  | _, 0 => return []
  | offset, count + 1 => do
    let name ← name b (← word b offset "member info") "member name"
    let info ← readType (← word b (offset + 4) "member info")
    let rest ← readMembers b readType (offset + memberSize) count
    return ⟨name, info⟩ :: rest

/-- The type at an offset, where `levels` levels of types may be nested. -/
def readType (b : Bytes) : (levels offset : Nat) → Except TableError TypeInfo
  | 0, _ => throw .tooDeep
  | levels + 1, offset => do
    if b.size < offset + typeSize then
      throw (.outOfBounds "type info" offset)
    let code ← half b offset "type info"
    let cls ←
      match TypeClass.ofCode? code with
      | some c => pure c
      | none => throw (.badClass code)
    let elem := ElementType.ofCode (← half b (offset + 2) "type info")
    let rows ← half b (offset + 4) "type info"
    let columns ← half b (offset + 6) "type info"
    let elements ← half b (offset + 8) "type info"
    let count ← half b (offset + 10) "type info"
    let first ← word b (offset + 12) "type info"
    if b.size < count * memberSize then
      throw (.outOfBounds "struct members" first)
    let members ← readMembers b (readType b levels) first count
    return ⟨cls, elem, rows, columns, elements, members⟩

def readSymbol (b : Bytes) (offset : Nat) : Except TableError Symbol := do
  let name ← name b (← word b offset "constant info") "name"
  let code ← half b (offset + 4) "constant info"
  let registerSet ←
    match RegisterSet.ofCode? code with
    | some r => pure r
    | none => throw (.badRegisterSet name code)
  let index ← half b (offset + 6) "constant info"
  let count ← half b (offset + 8) "constant info"
  let info ← readType b (maxDepth + 1) (← word b (offset + 12) "constant info")
  return ⟨name, registerSet, index, count, info⟩

/-- The `count` constants whose entries start at an offset. -/
def readSymbols (b : Bytes) : (offset count : Nat) → Except TableError (List Symbol)
  | _, 0 => return []
  | offset, count + 1 => do
    let s ← readSymbol b offset
    let rest ← readSymbols b (offset + constantSize) count
    return s :: rest

/-- Reads a table from the bytes after its tag. -/
def ofBytes (b : Bytes) : Except TableError ConstantTable := do
  let size ← word b 0 "header"
  if size ≠ headerSize then
    throw (.badHeaderSize size)
  let creator ← name b (← word b 4 "header") "creator"
  let count ← word b 12 "header"
  let first ← word b 16 "header"
  let target ← name b (← word b 24 "header") "target"
  if maxConstants < count ∨ b.size < count * constantSize then
    throw (.tooManyConstants count)
  return ⟨creator, target, ← readSymbols b first count⟩

/-- Reads a table from the words of a comment, its tag first. -/
def ofWords : List Word → Except TableError ConstantTable
  | [] => .error .notConstantTable
  | w :: ws => if w = tag then ofBytes (bytesOfWords ws).toArray else .error .notConstantTable

end ConstantTable

end ShaderPipeline
