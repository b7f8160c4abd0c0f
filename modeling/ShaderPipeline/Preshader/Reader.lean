import ShaderPipeline.Preshader.Basic

/-!
# Reading preshaders

A preshader's stream is a version word and then sections, each in a comment block of its own: a
constant table, literals, instructions, and possibly a map of the outputs. The sections may come
in any order. Every operand is checked against its pool.
-/

namespace ShaderPipeline.Preshader

def tag : Word := tagWord 'P' 'R' 'E' 'S'

def literalTag : Word := tagWord 'C' 'L' 'I' 'T'

def instructionTag : Word := tagWord 'F' 'X' 'L' 'C'

def outputTag : Word := tagWord 'P' 'R' 'S' 'I'

/-- The first version word that can be read. -/
def minVersion : Word := 0x46580200

/-- The last version word that can be read. -/
def maxVersion : Word := 0x46580201

def endToken : Word := 0x0000FFFF

/-- The low half of a word that starts a comment block. -/
def commentCode : Nat := 0xFFFE

/-- The most instructions a preshader may have. -/
def maxInstructions : Nat := 65536

/-- The sections found so far. -/
structure Sections where
  table : Option (List Word)
  literals : Option (List Word)
  instructions : Option (List Word)
  outputs : Option (List Word)
  deriving DecidableEq, Repr

def malformed {α : Type} (d : Defect) : Except PreshaderError α := .error (.malformed d)

namespace Sections

/-- No section. -/
def empty : Sections := ⟨none, none, none, none⟩

/-- The sections after a block was put into a place that must have been free. -/
def claim (old : Option (List Word)) (name : String) (filled : Sections) :
    Except PreshaderError Sections :=
  if old.isSome then .error (.duplicateBlock name) else .ok filled

def add (s : Sections) (block : List Word) : Except PreshaderError Sections :=
  match block with
  | [] => .ok s
  | w :: _ =>
    if w = ConstantTable.tag then claim s.table "CTAB" { s with table := some block }
    else if w = literalTag then claim s.literals "CLIT" { s with literals := some block }
    else if w = instructionTag then
      claim s.instructions "FXLC" { s with instructions := some block }
    else if w = outputTag then claim s.outputs "PRSI" { s with outputs := some block }
    else malformed (.unknownSection w)

/-- Collects the sections of a stream; `skip` words belong to the block before. -/
def collect : (skip : Nat) → Sections → List Word → Except PreshaderError Sections
  | _, s, [] => .ok s
  | skip + 1, s, _ :: rest => collect skip s rest
  | 0, s, w :: rest =>
    if w = endToken then .ok s
    else if field w 0 16 ≠ commentCode then malformed (.unexpectedToken w)
    else
      let len := field w 16 15
      let block := rest.take len
      if block.length < len then malformed .blockOverrun
      else
        match s.add block with
        | .error e => .error e
        | .ok s => collect len s rest

end Sections

/-- The first `count` pairs of words. -/
def pairs : (count : Nat) → List Word → List (Word × Word)
  | count + 1, a :: b :: rest => (a, b) :: pairs count rest
  | _, _ => []

def readLiterals (block : List Word) : Except PreshaderError (Array Binary64) :=
  match block with
  | _ :: count :: words =>
    if words.length / 2 < count.toNat then malformed (.countExceedsBlock "CLIT")
    else .ok ((pairs count.toNat words).map fun (low, high) => Binary64.ofWords low high).toArray
  | _ => malformed (.emptyBlock "CLIT")

def readOutputMap (block : List Word) : Except PreshaderError (List (Nat × Nat)) :=
  match block.drop 7 with
  | [] => malformed .shortOutputMap
  | count :: words =>
    if words.length / 2 < count.toNat then malformed (.countExceedsBlock "PRSI")
    else .ok ((pairs count.toNat words).map fun (r, n) => (r.toNat, n.toNat))

/-- The pools that operands are checked against. -/
structure Pools where
  literalCount : Nat
  symbols : List Symbol
  outputMap : Option (List (Nat × Nat))
  deriving DecidableEq, Repr

namespace Pools

/-- Whether some symbol's registers hold the cells of an operand. -/
def coversInput (p : Pools) (index lanes : Nat) : Bool :=
  p.symbols.any fun s =>
    s.index * 4 ≤ index && wrap32 (index + lanes) ≤ s.index * 4 + s.count * 4

def coversOutput (p : Pools) (index lanes : Nat) : Bool :=
  match p.outputMap with
  | none => true
  | some map =>
    map.any fun (r, n) =>
      wrap32 (r * 4) ≤ index && wrap32 (index + lanes) ≤ wrap32 ((r + n) * 4)

def defect? (p : Pools) (pool : Pool) (index lanes arrayCount : Nat) : Option Defect :=
  match pool with
  | .literal => if p.literalCount < index + lanes then some (.literalIndex index) else none
  | .input =>
    if arrayCount = 0 ∧ !p.coversInput index lanes then some (.inputIndex index) else none
  | .output => if p.coversOutput index lanes then none else some (.outputIndex index)
  | .temp => none

end Pools

abbrev WordReader := StateT (List Word) (Except PreshaderError)

namespace WordReader

def fail {α : Type} (d : Defect) : WordReader α := throw (.malformed d)

/-- The next `n` words. -/
def take (n : Nat) : WordReader (List Word) := do
  let words ← get
  let head := words.take n
  if head.length < n then
    fail .truncated
  set (words.drop n)
  return head

def operand (p : Pools) (lanes : Nat) (isDestination : Bool) : WordReader Operand := do
  let head ← (·.map UInt32.toNat) <$> take 3
  let arrayCount := head.getD 0 0
  let index := head.getD 2 0
  match Pool.ofCode? (head.getD 1 0) with
  | none => fail (.operandType (head.getD 1 0))
  | some pool =>
    if let some d := p.defect? pool index lanes arrayCount then
      fail d
    if isDestination ∧ pool ≠ .temp ∧ pool ≠ .output then
      fail .badDestination
    if arrayCount = 0 then
      return ⟨pool, index, []⟩
    if pool ≠ .input then
      fail .indexedNonInput
    let words ← take (arrayCount * 2)
    return ⟨pool, index, (pairs arrayCount words).map (·.2.toNat)⟩

/-- Reads the operands of an instruction from position `slot` on; the last is the destination. -/
def operands (p : Pools) (opcode : Opcode) (elements : Nat) :
    (slot rest : Nat) → WordReader (List Operand)
  | _, 0 => return []
  | slot, rest + 1 => do
    let lanes := if opcode.isScalar ∧ slot = 0 then 1 else elements
    let o ← operand p lanes (rest = 0)
    return o :: (← operands p opcode elements (slot + 1) rest)

def instruction (p : Pools) : WordReader Instruction := do
  let head ← take 2
  let first := head.getD 0 0
  let sourceCount := (head.getD 1 0).toNat
  match Opcode.ofCode? (field first 16 16) with
  | none => throw (.unknownOpcode (field first 16 16))
  | some opcode =>
    let elements := field first 0 8
    if elements < 1 ∨ 4 < elements then
      fail (.elementCount elements)
    if sourceCount ≠ opcode.arity then
      throw (.badArity opcode sourceCount)
    return ⟨opcode, elements, ← operands p opcode elements 0 (sourceCount + 1)⟩

def instructions (p : Pools) : (count : Nat) → WordReader (List Instruction)
  | 0 => return []
  | count + 1 => do
    let i ← instruction p
    return i :: (← instructions p count)

end WordReader

def readInstructions (p : Pools) (block : List Word) :
    Except PreshaderError (List Instruction) :=
  match block with
  | _ :: count :: words =>
    if maxInstructions < count.toNat ∨ words.length / 2 < count.toNat then
      malformed .instructionCount
    else (WordReader.instructions p count.toNat).run' words
  | _ => malformed (.emptyBlock "FXLC")

def Instruction.tempExtent (i : Instruction) : Nat :=
  (i.operands.mapIdx fun slot o =>
    if o.pool = .temp then wrap32 (o.index + i.lanes slot) else 0).foldl max 0

def needSection (block : Option (List Word)) (name : String) :
    Except PreshaderError (List Word) :=
  match block with
  | some b => .ok b
  | none => .error (.missingBlock name)

def ofSections (s : Sections) : Except PreshaderError Preshader := do
  let table ← needSection s.table "CTAB"
  let literalBlock ← needSection s.literals "CLIT"
  let instructionBlock ← needSection s.instructions "FXLC"
  let literals ← readLiterals literalBlock
  let outputMap ←
    match s.outputs with
    | some block => some <$> readOutputMap block
    | none => pure none
  let symbols ←
    match ConstantTable.ofWords table with
    | .ok t => pure t.symbols
    | .error e => throw (.ctab e)
  if let some y := symbols.find? (·.registerSet ≠ .float4) then
    malformed (.inputSet y.name)
  let registerCount := (symbols.map fun y => y.index + y.count).foldl max 0
  let instructions ← readInstructions ⟨literals.size, symbols, outputMap⟩ instructionBlock
  return {
    literals, symbols, instructions
    tempCount := (instructions.map Instruction.tempExtent).foldl max 0
    registers := Array.replicate (registerCount * 4) .zero }

/-- Reads a preshader from its words, the version word first. -/
def ofWords (words : List Word) : Except PreshaderError Preshader :=
  match words with
  | [] => malformed .emptyStream
  | version :: rest =>
    if minVersion ≤ version ∧ version ≤ maxVersion then do
      ofSections (← Sections.collect 0 .empty rest)
    else .error (.unsupportedVersion version)

end ShaderPipeline.Preshader
