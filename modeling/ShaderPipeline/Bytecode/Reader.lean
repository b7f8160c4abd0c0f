import ShaderPipeline.Bytecode.Fault
import ShaderPipeline.Bytecode.Shape

/-!
# Reading a shader from its words

A stream is a version word followed by instructions, up to an end marker. From the second shader
model on an opcode word counts the operand words that follow it; in the first model the count is
that of the operand shape. `Shader.ofTokens` walks the stream word by word, skipping the words
that the instruction before has taken.
-/

namespace ShaderPipeline

/-- The operand words of one instruction that are still to be read, with the position of the
first of them. -/
structure OperandStream where
  words : List Word
  position : Nat
  deriving DecidableEq, Repr

abbrev OperandReader := StateT OperandStream (Except DecodeError)

namespace OperandReader

def fail {α : Type} (position : Nat) (fault : DecodeFault) : OperandReader α :=
  throw ⟨position, fault⟩

def peek : OperandReader Word := do
  match (← get).words with
  | [] => fail (← get).position .endOfOperands
  | w :: _ => return w

def next : OperandReader Word := do
  let w ← peek
  modify fun s => ⟨s.words.tail, s.position + 1⟩
  return w

/-- The number of the register file: three high bits, and two more further down. -/
def fileCode (w : Word) : Nat := field w 28 3 + field w 11 2 * 8

/-- The register a word names, without a relative address. -/
def registerOf (v : Version) (w : Word) (position : Nat) (role : RegisterFile.Role) :
    Except DecodeError RegisterRef :=
  match RegisterFile.ofCode? (fileCode w) v role with
  | none => throw ⟨position, .unknownRegisterType (fileCode w)⟩
  | some file =>
    if file.maxIndex < field w 0 11 then
      throw ⟨position, .registerOutOfRange (field w 0 11) file⟩
    else
      return ⟨file, field w 0 11, none⟩

/-- The relative address that follows a register word: one more word, or `a0.x` without a word in
the first shader model. -/
def relativeAddress (v : Version) : OperandReader RelativeAddress := do
  if v.major < 2 then
    return ⟨.addr, 0, .x⟩
  let position := (← get).position
  let w ← next
  let r ← registerOf v w position .index
  if r.file = .addr ∨ r.file = .loop then
    return ⟨r.file, r.index, (Swizzle.ofCode (field w 16 8)).x⟩
  else
    fail position (.relativeThrough r.file)

def register (v : Version) : OperandReader (RegisterRef × Word) := do
  let position := (← get).position
  let w ← next
  let r ← registerOf v w position .operand
  if flag w 13 then
    return ({ r with relative := some (← relativeAddress v) }, w)
  else
    return (r, w)

def destination (v : Version) : OperandReader Destination := do
  let (r, w) ← register v
  return ⟨r, if field w 16 4 = 0 then .full else ⟨field w 16 4⟩⟩

def source (v : Version) : OperandReader Source := do
  let position := (← get).position
  let (r, w) ← register v
  match SourceModifier.ofCode? (field w 24 4) with
  | none => fail position (.unknownModifier (field w 24 4))
  | some m => return ⟨r, .ofCode (field w 16 8), m⟩

def resultModifier (w : Word) : ResultModifier where
  saturate := flag w 20
  partialPrecision := flag w 21
  centroid := flag w 22
  shift :=
    match field w 24 4 with
    | 1 => .mul2
    | 2 => .mul4
    | 3 => .mul8
    | 15 => .div2
    | 14 => .div4
    | 13 => .div8
    | _ => .one

/-- What has been read of an instruction's operands. -/
structure Parts where
  operands : List Operand
  predicate : Option Source
  result : ResultModifier
  declaration : Option Word
  deriving DecidableEq, Repr

def operand (v : Version) (parts : Parts) : OperandKind → OperandReader Parts
  | .dst => do
    let result := resultModifier (← peek)
    let d ← destination v
    return { parts with operands := parts.operands ++ [.dst d], result }
  | .src => do
    let s ← source v
    return { parts with operands := parts.operands ++ [.src s] }
  | .imm => do
    let w ← next
    return { parts with operands := parts.operands ++ [.imm w] }
  | .decl => do
    let w ← next
    return { parts with declaration := some w }

def predicate (v : Version) (parts : Parts) : OperandReader Parts := do
  let s ← source v
  return { parts with predicate := some s }

def operands (v : Version) (parts : Parts) : List OperandKind → OperandReader Parts
  | [] => return parts
  | kind :: rest => do
    let parts ← operand v parts kind
    operands v parts rest

/-- Reads the operands of a shape, with the predicate after a leading destination and in front of
everything else when there is none. -/
def shape (v : Version) (predicated : Bool) (kinds : List OperandKind) : OperandReader Parts := do
  let blank : Parts := ⟨[], none, .plain, none⟩
  if !predicated then
    operands v blank kinds
  else
    match kinds with
    | .dst :: rest => do
      let parts ← operand v blank .dst
      let parts ← predicate v parts
      operands v parts rest
    | kinds => do
      let parts ← predicate v blank
      operands v parts kinds

end OperandReader

def Declaration.ofWord (w : Word) (operands : List Operand) : Except DecodeFault Declaration :=
  let declaresSampler : Bool :=
    match operands.head? with
    | some (.dst d) => d.reg.file == RegisterFile.sampler
    | _ => false
  if declaresSampler then
    match field w 27 4 with
    | 1 | 2 => .ok (.texture .flat)
    | 3 => .ok (.texture .cube)
    | 4 => .ok (.texture .volume)
    | n => .error (.unknownTexture n)
  else
    match Usage.ofCode? (field w 0 5) with
    | some u => .ok (.usage ⟨u, field w 16 4⟩)
    | none => .error (.unknownUsage (field w 0 5))

namespace Instruction

def ofComment (index position : Nat) (head : Word) (tail : List Word) :
    Except DecodeError Instruction :=
  let len := field head 16 15
  let words := tail.take len
  if words.length < len then
    throw ⟨position, .commentOverrun len tail.length⟩
  else
    return { marker index position .comment with
      length := 1 + len
      comment := some words }

def operandWords (v : Version) (position : Nat) (head : Word) (tail : List Word)
    (shape : List OperandKind) : Except DecodeError (List Word) :=
  if 2 ≤ v.major then
    let words := tail.take (field head 24 4)
    if words.length < field head 24 4 then
      throw ⟨position, .instructionOverrun (field head 24 4) tail.length⟩
    else
      return words
  else
    let words := tail.take shape.length
    if words.length < shape.length then
      throw ⟨position, .truncatedInstruction⟩
    else
      return words

def ofOperands (v : Version) (index position : Nat) (op : Opcode) (head : Word) (tail : List Word) :
    Except DecodeError Instruction := do
  match operandShape op v with
  | none => throw ⟨position, .opcodeNotInVersion op v⟩
  | some kinds =>
    let words ← operandWords v position head tail kinds
    let (parts, rest) ← (OperandReader.shape v (flag head 28) kinds).run ⟨words, position + 1⟩
    if let some p := parts.predicate then
      if p.reg.file ≠ .predicate then
        throw ⟨position, .notAPredicate p.reg.file⟩
    if rest.words ≠ [] then
      throw ⟨position, .operandCount op (words.length - rest.words.length) words.length⟩
    let declaration ←
      match parts.declaration with
      | none => pure none
      | some w =>
        match Declaration.ofWord w parts.operands with
        | .ok d => pure (some d)
        | .error fault => throw ⟨position + 1, fault⟩
    return {
      index, position
      opcode := op
      control := field head 16 8
      length := 1 + words.length
      coissue := flag head 30
      result := parts.result
      predicate := parts.predicate
      operands := parts.operands
      declaration
      comment := none }

/-- The instruction that starts with word `head`, where `tail` is the rest of the stream. -/
def ofTokens (v : Version) (index position : Nat) (head : Word) (tail : List Word) :
    Except DecodeError Instruction :=
  match Opcode.ofCode (field head 0 16) with
  | .comment => ofComment index position head tail
  | .stop => return marker index position .stop
  | .phase => return marker index position .phase
  | op => ofOperands v index position op head tail

end Instruction

namespace Shader

/-- Reads the instructions of a stream. `skip` words belong to the instruction before, `position`
is that of the next word, `index` is the number of instructions so far, and `done` holds them, the
last one first. -/
def readInstructions (v : Version) :
    (skip position index : Nat) → (done : List Instruction) → List Word →
      Except DecodeError (List Instruction)
  | _, position, _, _, [] => throw ⟨position - 1, .missingEnd⟩
  | skip + 1, position, index, done, _ :: tail =>
    readInstructions v skip (position + 1) index done tail
  | 0, position, index, done, head :: tail => do
    let i ← Instruction.ofTokens v index position head tail
    if i.opcode = .stop then
      return (i :: done).reverse
    else
      readInstructions v (i.length - 1) (position + 1) (index + 1) (i :: done) tail

def ofTokens (tokens : List Word) : Except DecodeError Shader :=
  if DecodeFault.maxTokens < tokens.length then
    throw ⟨0, .tooManyTokens tokens.length⟩
  else
    match tokens with
    | [] => throw ⟨0, .emptyStream⟩
    | head :: tail =>
      match Version.ofToken? head with
      | none => throw ⟨0, .unknownVersion head⟩
      | some v =>
        if v.isKnown then do
          return ⟨v, ← readInstructions v 0 1 0 [] tail⟩
        else
          throw ⟨0, .unknownModel v.major v.minor⟩

def ofBytes (bytes : Bytes) : Except DecodeError Shader :=
  if DecodeFault.maxBytes < bytes.size then
    throw ⟨0, .tooManyBytes bytes.size⟩
  else if bytes.size % 4 ≠ 0 then
    throw ⟨0, .unevenBytes bytes.size⟩
  else
    ofTokens (wordsOfBytes bytes.toList)

end Shader

end ShaderPipeline
