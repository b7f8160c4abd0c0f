import ShaderPipeline.Numeric.Natural

/-!
# Words, their bit fields and their bytes

Shader streams, constant tables and effect containers are made of 32-bit words, stored with the
low byte first. Bit fields are read by division and remainder on the natural number a word stands
for.
-/

namespace ShaderPipeline

abbrev Word := UInt32

abbrev Bytes := Array UInt8

/-- The `width` bits of `w` from bit `low` on. -/
def field (w : Word) (low width : Nat) : Nat := w.toNat / 2 ^ low % 2 ^ width

/-- Bit `i` of `w`. -/
def flag (w : Word) (i : Nat) : Bool := field w i 1 == 1

def wrap32 (n : Nat) : Nat := n % 2 ^ 32

/-- The word with the given bytes, the low one first. -/
def wordOfBytes (a b c d : UInt8) : Word :=
  UInt32.ofNat (a.toNat + b.toNat * 2 ^ 8 + c.toNat * 2 ^ 16 + d.toNat * 2 ^ 24)

/-- The four bytes of a word, the low one first. -/
def bytesOfWord (w : Word) : List UInt8 :=
  [UInt8.ofNat (field w 0 8), UInt8.ofNat (field w 8 8), UInt8.ofNat (field w 16 8),
    UInt8.ofNat (field w 24 8)]

/-- The two bytes of a 16-bit quantity, the low one first; higher bits are dropped. -/
def bytesOfHalf (n : Nat) : List UInt8 := [UInt8.ofNat (n % 256), UInt8.ofNat (n / 256 % 256)]

def bytesOfWords (ws : List Word) : List UInt8 := ws.flatMap bytesOfWord

def wordsOfBytes : List UInt8 → List Word
  | a :: b :: c :: d :: rest => wordOfBytes a b c d :: wordsOfBytes rest
  | _ => []

/-- The word at byte offset `i`, when it lies inside the byte string. -/
def wordAt? (b : Bytes) (i : Nat) : Option Word := do
  return wordOfBytes (← b[i]?) (← b[i + 1]?) (← b[i + 2]?) (← b[i + 3]?)

/-- The 16-bit quantity at byte offset `i`, when it lies inside the byte string. -/
def halfAt? (b : Bytes) (i : Nat) : Option Nat := do
  return (← b[i]?).toNat + (← b[i + 1]?).toNat * 2 ^ 8

/-- The `len` bytes from offset `i` on, when they lie inside the byte string. -/
def slice? (b : Bytes) (i len : Nat) : Option Bytes :=
  if i + len ≤ b.size then some (b.extract i (i + len)) else none

/-- The bytes from offset `i` up to the next zero byte, which must come within the byte string;
at most `fuel` bytes are looked at. -/
def zeroTerminated? (b : Bytes) : (fuel i : Nat) → Option (List UInt8)
  | 0, _ => none
  | fuel + 1, i => do
    let c ← b[i]?
    if c = 0 then return []
    return c :: (← zeroTerminated? b fuel (i + 1))

/-- The word spelled by four ASCII characters, the first in the low byte. -/
def tagWord (a b c d : Char) : Word :=
  wordOfBytes (UInt8.ofNat a.toNat) (UInt8.ofNat b.toNat) (UInt8.ofNat c.toNat)
    (UInt8.ofNat d.toNat)

end ShaderPipeline
