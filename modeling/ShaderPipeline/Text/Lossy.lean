/-!
# Text from bytes that may not be UTF-8

Names inside binary tables are meant to be UTF-8 but need not be. `lossyText` reads what is well
formed and puts one U+FFFD in place of each longest stretch of bytes that starts a character
without completing it.
-/

namespace ShaderPipeline

/-- The character that stands for bytes that are not UTF-8. -/
def replacementChar : Char := '�'

def isContinuation (b : UInt8) : Bool := 0x80 ≤ b && b ≤ 0xBF

/-- Whether `b` may follow the first byte `a` of a three-byte character: overlong forms and
surrogates are left out. -/
def secondOfThree (a b : UInt8) : Bool :=
  if a == 0xE0 then 0xA0 ≤ b && b ≤ 0xBF
  else if a == 0xED then 0x80 ≤ b && b ≤ 0x9F
  else isContinuation b

/-- Whether `b` may follow the first byte `a` of a four-byte character: overlong forms and code
points past the last plane are left out. -/
def secondOfFour (a b : UInt8) : Bool :=
  if a == 0xF0 then 0x90 ≤ b && b ≤ 0xBF
  else if a == 0xF4 then 0x80 ≤ b && b ≤ 0x8F
  else isContinuation b

def payload (b : UInt8) : Nat := b.toNat % 64

/-- The characters of a byte string, one replacement character for each longest stretch of bytes
that starts a character without completing it. -/
def lossyChars : List UInt8 → List Char
  | [] => []
  | a :: r₁ =>
    if a < 0x80 then Char.ofNat a.toNat :: lossyChars r₁
    else if 0xC2 ≤ a && a ≤ 0xDF then
      match r₁ with
      | [] => [replacementChar]
      | b :: r₂ =>
        if isContinuation b then
          Char.ofNat (a.toNat % 32 * 64 + payload b) :: lossyChars r₂
        else replacementChar :: lossyChars (b :: r₂)
    else if 0xE0 ≤ a && a ≤ 0xEF then
      match r₁ with
      | [] => [replacementChar]
      | b :: r₂ =>
        if secondOfThree a b then
          match r₂ with
          | [] => [replacementChar]
          | c :: r₃ =>
            if isContinuation c then
              Char.ofNat (a.toNat % 16 * 4096 + payload b * 64 + payload c) :: lossyChars r₃
            else replacementChar :: lossyChars (c :: r₃)
        else replacementChar :: lossyChars (b :: r₂)
    else if 0xF0 ≤ a && a ≤ 0xF4 then
      match r₁ with
      | [] => [replacementChar]
      | b :: r₂ =>
        if secondOfFour a b then
          match r₂ with
          | [] => [replacementChar]
          | c :: r₃ =>
            if isContinuation c then
              match r₃ with
              | [] => [replacementChar]
              | d :: r₄ =>
                if isContinuation d then
                  Char.ofNat (a.toNat % 8 * 262144 + payload b * 4096 + payload c * 64 + payload d)
                    :: lossyChars r₄
                else replacementChar :: lossyChars (d :: r₄)
            else replacementChar :: lossyChars (c :: r₃)
        else replacementChar :: lossyChars (b :: r₂)
    else replacementChar :: lossyChars r₁

def lossyText (bytes : List UInt8) : String := String.ofList (lossyChars bytes)

/-- The text of a byte string up to its first zero byte. -/
def lossyTextUntilZero (bytes : List UInt8) : String :=
  lossyText (bytes.takeWhile (· != 0))

end ShaderPipeline
