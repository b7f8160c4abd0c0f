import ShaderPipeline.Bytecode.Version

/-!
# Registers, swizzles and write masks
-/

namespace ShaderPipeline

/-- A file of registers. -/
inductive RegisterFile where
  | temp
  | input
  | const
  | addr
  | texture
  | rastOut
  | attrOut
  | texCoordOut
  | output
  | constInt
  | colorOut
  | depthOut
  | sampler
  | constBool
  | loop
  | label
  | predicate
  | miscType
  deriving DecidableEq, Repr, Inhabited

namespace RegisterFile

def rank : RegisterFile → Nat
  | temp => 0
  | input => 1
  | const => 2
  | addr => 3
  | texture => 4
  | rastOut => 5
  | attrOut => 6
  | texCoordOut => 7
  | output => 8
  | constInt => 9
  | colorOut => 10
  | depthOut => 11
  | sampler => 12
  | constBool => 13
  | loop => 14
  | label => 15
  | predicate => 16
  | miscType => 17

def name : RegisterFile → String
  | temp => "Temp"
  | input => "Input"
  | const => "Const"
  | addr => "Addr"
  | texture => "Texture"
  | rastOut => "RastOut"
  | attrOut => "AttrOut"
  | texCoordOut => "TexCoordOut"
  | output => "Output"
  | constInt => "ConstInt"
  | colorOut => "ColorOut"
  | depthOut => "DepthOut"
  | sampler => "Sampler"
  | constBool => "ConstBool"
  | loop => "Loop"
  | label => "Label"
  | predicate => "Predicate"
  | miscType => "MiscType"

def letters : RegisterFile → String
  | temp => "r"
  | input => "v"
  | const => "c"
  | addr => "a"
  | texture => "t"
  | rastOut => "oRast"
  | attrOut => "oD"
  | texCoordOut => "oT"
  | output => "o"
  | constInt => "i"
  | colorOut => "oC"
  | depthOut => "oDepth"
  | sampler => "s"
  | constBool => "b"
  | loop => "aL"
  | label => "l"
  | predicate => "p"
  | miscType => "misc"

def maxIndex : RegisterFile → Nat
  | temp => 31
  | texture | texCoordOut => 7
  | sampler => 15
  | addr | loop | predicate | depthOut => 0
  | rastOut | attrOut | miscType => 3
  | _ => 2047

/-- Whether a register is named as an operand or as the index of a relative address. -/
inductive Role where
  | operand
  | index
  deriving DecidableEq, Repr

/-- The file with a given number. Number 3 is the address register in a vertex shader and
wherever it indexes another register, a texture coordinate otherwise; number 6 is the general
output file from the third vertex shader model on, and the texture coordinate outputs before. -/
def ofCode? (n : Nat) (v : Version) (role : Role) : Option RegisterFile :=
  match n with
  | 0 => some temp
  | 1 => some input
  | 2 => some const
  | 3 => some (if role = .index ∨ v.stage = .vertex then addr else texture)
  | 4 => some rastOut
  | 5 => some attrOut
  | 6 => some (if v.stage = .vertex ∧ 3 ≤ v.major then output else texCoordOut)
  | 7 => some constInt
  | 8 => some colorOut
  | 9 => some depthOut
  | 10 => some sampler
  | 14 => some constBool
  | 15 => some loop
  | 17 => some miscType
  | 18 => some label
  | 19 => some predicate
  | _ => none

end RegisterFile

/-- The type of the values in a register. -/
inductive ValueKind where
  | float
  | int
  | bool
  deriving DecidableEq, Repr, Inhabited

def ValueKind.name : ValueKind → String
  | float => "Float"
  | int => "Int"
  | bool => "Bool"

def RegisterFile.valueKind : RegisterFile → ValueKind
  | addr | constInt | loop => .int
  | constBool | predicate => .bool
  | _ => .float

/-- A component of a four-vector. -/
inductive Component where
  | x
  | y
  | z
  | w
  deriving DecidableEq, Repr, Inhabited

namespace Component

def all : List Component := [x, y, z, w]

def index : Component → Nat
  | x => 0
  | y => 1
  | z => 2
  | w => 3

def ofIndex (n : Nat) : Component :=
  match n % 4 with
  | 0 => x
  | 1 => y
  | 2 => z
  | _ => w

def letter : Component → Char
  | x => 'x'
  | y => 'y'
  | z => 'z'
  | w => 'w'

end Component

/-- A selection of a source component for each of the four components. -/
structure Swizzle where
  x : Component
  y : Component
  z : Component
  w : Component
  deriving DecidableEq, Repr, Inhabited

namespace Swizzle

def identity : Swizzle := ⟨.x, .y, .z, .w⟩

def get (s : Swizzle) : Component → Component
  | .x => s.x
  | .y => s.y
  | .z => s.z
  | .w => s.w

def toList (s : Swizzle) : List Component := [s.x, s.y, s.z, s.w]

/-- The swizzle packed into a byte, two bits a component, the first in the low bits. -/
def ofCode (n : Nat) : Swizzle :=
  ⟨.ofIndex n, .ofIndex (n / 4), .ofIndex (n / 16), .ofIndex (n / 64)⟩

def code (s : Swizzle) : Nat :=
  s.x.index + s.y.index * 4 + s.z.index * 16 + s.w.index * 64

/-- Reads `outer` through `s`: component `c` of the result is what `s` selects for the component
that `outer` selects for `c`. -/
def andThen (s outer : Swizzle) : Swizzle :=
  ⟨s.get outer.x, s.get outer.y, s.get outer.z, s.get outer.w⟩

def letters (s : Swizzle) : String := String.ofList (s.toList.map Component.letter)

end Swizzle

/-- The components an instruction writes, one bit each. -/
structure WriteMask where
  bits : Nat
  deriving DecidableEq, Repr, Inhabited

namespace WriteMask

def full : WriteMask := ⟨15⟩

def contains (m : WriteMask) (c : Component) : Bool := m.bits / 2 ^ c.index % 2 == 1

def isFull (m : WriteMask) : Bool := m.bits == 15

def components (m : WriteMask) : List Component := Component.all.filter m.contains

def letters (m : WriteMask) : String := String.ofList (m.components.map Component.letter)

end WriteMask

/-- What is done to a source value before an instruction uses it. -/
inductive SourceModifier where
  | plain
  | negate
  | bias
  | biasNegate
  | sign
  | signNegate
  | comp
  | x2
  | x2Negate
  | dz
  | dw
  | abs
  | absNegate
  | not
  deriving DecidableEq, Repr, Inhabited

namespace SourceModifier

def all : List SourceModifier :=
  [plain, negate, bias, biasNegate, sign, signNegate, comp, x2, x2Negate, dz, dw, abs, absNegate,
    not]

def code : SourceModifier → Nat
  | plain => 0
  | negate => 1
  | bias => 2
  | biasNegate => 3
  | sign => 4
  | signNegate => 5
  | comp => 6
  | x2 => 7
  | x2Negate => 8
  | dz => 9
  | dw => 10
  | abs => 11
  | absNegate => 12
  | not => 13

def ofCode? (n : Nat) : Option SourceModifier := all.find? (·.code == n)

def name : SourceModifier → String
  | plain => "None"
  | negate => "Negate"
  | bias => "Bias"
  | biasNegate => "BiasNegate"
  | sign => "Sign"
  | signNegate => "SignNegate"
  | comp => "Comp"
  | x2 => "X2"
  | x2Negate => "X2Negate"
  | dz => "Dz"
  | dw => "Dw"
  | abs => "Abs"
  | absNegate => "AbsNegate"
  | not => "Not"

end SourceModifier

end ShaderPipeline
