import ShaderPipeline.Numeric.Natural

/-!
# IEEE numbers by their bit patterns

Registers, shader literals and preshader literals carry floating-point numbers whose bit patterns
matter: they are copied, compared and stored as words. `Binary32` and `Binary64` hold a number by
its pattern, so that equality of values is equality of bits; `Binary32.numEq` is the comparison of
the numbers themselves, under which a NaN differs from itself and the two zeros agree.
-/

namespace ShaderPipeline

/-- A single-precision number, given by its bit pattern. -/
structure Binary32 where
  /-- Sign, eight exponent bits, twenty-three fraction bits. -/
  bits : UInt32
  deriving DecidableEq, Repr, Inhabited

/-- A double-precision number, given by its bit pattern. -/
structure Binary64 where
  /-- Sign, eleven exponent bits, fifty-two fraction bits. -/
  bits : UInt64
  deriving DecidableEq, Repr, Inhabited

namespace Binary32

/-- Positive zero. -/
def zero : Binary32 := ⟨0⟩

variable (x : Binary32)

def negative : Bool := x.bits.toNat / 2 ^ 31 == 1

def exponent : Nat := x.bits.toNat / 2 ^ 23 % 2 ^ 8

def fraction : Nat := x.bits.toNat % 2 ^ 23

def isNaN : Bool := x.exponent == 255 && x.fraction != 0

def isInfinite : Bool := x.exponent == 255 && x.fraction == 0

def isZero : Bool := x.bits.toNat % 2 ^ 31 == 0

/-- Equality of the numbers: a NaN equals nothing, and the two zeros are equal. -/
def numEq (x y : Binary32) : Bool :=
  !x.isNaN && !y.isNaN && (x.bits == y.bits || (x.isZero && y.isZero))

/-- The magnitude of a finite number, counted in the least subnormal `2 ^ -149`. -/
def units : Nat :=
  if x.exponent = 0 then x.fraction else (2 ^ 23 + x.fraction) * 2 ^ (x.exponent - 1)

def toInt32 : Int32 := Int32.ofUInt32 x.bits

def ofInt32 (i : Int32) : Binary32 := ⟨(Float32.ofInt i.toInt).toBits⟩

def widen : Binary64 := ⟨(Float32.ofBits x.bits).toFloat.toBits⟩

/-- The integer part as an array index: zero for NaN and for negative numbers, the largest
64-bit index for what lies beyond. -/
def toIndex : Nat := (Float32.ofBits x.bits).toUInt64.toNat

end Binary32

namespace Binary64

/-- Positive zero. -/
def zero : Binary64 := ⟨0⟩

def one : Binary64 := ⟨0x3ff0000000000000⟩

variable (x : Binary64)

def toFloat : Float := Float.ofBits x.bits

def ofFloat (x : Float) : Binary64 := ⟨x.toBits⟩

def isNaN : Bool :=
  x.bits.toNat / 2 ^ 52 % 2 ^ 11 == 2047 && x.bits.toNat % 2 ^ 52 != 0

def isZero : Bool := x.bits.toNat % 2 ^ 63 == 0

/-- Equality of the numbers: a NaN equals nothing, and the two zeros are equal. -/
def numEq (x y : Binary64) : Bool :=
  !x.isNaN && !y.isNaN && (x.bits == y.bits || (x.isZero && y.isZero))

def narrow : Binary32 := ⟨x.toFloat.toFloat32.toBits⟩

def ofInt32 (i : Int32) : Binary64 := ofFloat i.toFloat

/-- A double from 64 bits split into two words, the low one first. -/
def ofWords (low high : UInt32) : Binary64 := ⟨low.toUInt64 ||| (high.toUInt64 <<< 32)⟩

/-- The low word of the pattern. -/
def lowWord : UInt32 := x.bits.toUInt32

/-- The high word of the pattern. -/
def highWord : UInt32 := (x.bits >>> 32).toUInt32

end Binary64

end ShaderPipeline
