import ShaderPipeline.Symbol.Table

/-!
# Writing constant tables

A table is laid out as its header, the constants' entries, the types, and a pool of names: the
creator, the target, then the constants' names. A type's entry is followed by the entries of its
members, and then, member by member, by the member's type and name. Offsets count from the first
byte of the header, so every part is written knowing where it will stand.
-/

namespace ShaderPipeline

namespace ConstantTable

/-- The bytes of a zero-terminated name. -/
def nameBytes (s : String) : List UInt8 := s.toUTF8.data.toList ++ [0]

def wordBytes (n : Nat) : List UInt8 := bytesOfWord (UInt32.ofNat n)

mutual

/-- The bytes of a type whose entry stands at offset `base`. -/
def typeBytes (base : Nat) : TypeInfo → List UInt8
  | ⟨cls, elem, rows, columns, elements, members⟩ =>
    let first := base + typeSize
    let entry :=
      bytesOfHalf cls.code ++ bytesOfHalf elem.code ++ bytesOfHalf rows ++ bytesOfHalf columns ++
        bytesOfHalf elements ++ bytesOfHalf members.length
    match members with
    | [] => entry ++ wordBytes 0
    | ms =>
      let (entries, bodies) := membersBytes (first + memberSize * ms.length) ms
      entry ++ wordBytes first ++ entries ++ bodies

/-- The entries of members, and their types and names, which start at offset `base`. -/
def membersBytes (base : Nat) : List Member → List UInt8 × List UInt8
  | [] => ([], [])
  | ⟨name, info⟩ :: rest =>
    let body := typeBytes base info
    let text := nameBytes name
    let nameAt := base + body.length
    let (entries, bodies) := membersBytes (nameAt + text.length) rest
    (wordBytes nameAt ++ wordBytes base ++ entries, body ++ text ++ bodies)

end

/-- The types of symbols, laid out from offset `base` on, and the offset of each. -/
def typesBytes (base : Nat) : List Symbol → List Nat × List UInt8
  | [] => ([], [])
  | s :: rest =>
    let body := typeBytes base s.info
    let (offsets, bodies) := typesBytes (base + body.length) rest
    (base :: offsets, body ++ bodies)

/-- The names of symbols, laid out from offset `base` on, and the offset of each. -/
def namesBytes (base : Nat) : List Symbol → List Nat × List UInt8
  | [] => ([], [])
  | s :: rest =>
    let text := nameBytes s.name
    let (offsets, bodies) := namesBytes (base + text.length) rest
    (base :: offsets, text ++ bodies)

def symbolBytes (s : Symbol) (nameAt typeAt : Nat) : List UInt8 :=
  wordBytes nameAt ++ bytesOfHalf s.registerSet.code ++ bytesOfHalf s.index ++
    bytesOfHalf s.count ++ [0, 0] ++ wordBytes typeAt ++ wordBytes 0

def creatorName : String := "d3dfx"

def targetName : String := "vs_3_0"

/-- Zero bytes up to a multiple of four. -/
def padded (bytes : List UInt8) : List UInt8 :=
  bytes ++ List.replicate ((4 - bytes.length % 4) % 4) 0

/-- The bytes of a table of symbols, without its tag. -/
def toBytes (symbols : List Symbol) : List UInt8 :=
  let typesAt := headerSize + constantSize * symbols.length
  let (typeOffsets, types) := typesBytes typesAt symbols
  let creatorAt := typesAt + types.length
  let targetAt := creatorAt + (nameBytes creatorName).length
  let namesAt := targetAt + (nameBytes targetName).length
  let (nameOffsets, names) := namesBytes namesAt symbols
  let header :=
    wordBytes headerSize ++ wordBytes creatorAt ++ wordBytes 0xFFFE0300 ++
      wordBytes symbols.length ++ wordBytes headerSize ++ wordBytes 0 ++ wordBytes targetAt
  let entries :=
    (symbols.zip (nameOffsets.zip typeOffsets)).flatMap fun (s, nameAt, typeAt) =>
      symbolBytes s nameAt typeAt
  padded (header ++ entries ++ types ++ nameBytes creatorName ++ nameBytes targetName ++ names)

/-- The words of a table of symbols, its tag first. -/
def toWords (symbols : List Symbol) : List Word := tag :: wordsOfBytes (toBytes symbols)

end ConstantTable

end ShaderPipeline
