/-!
# Preshader opcodes

A preshader computes constants from parameters before a shader runs. Each of its operations works
on one to four lanes. The scalar operations take one lane of their first source for all of them.
-/

namespace ShaderPipeline.Preshader

/-- An operation of a preshader. -/
inductive Opcode where
  | nop
  | mov
  | neg
  | rcp
  | frc
  | exp
  | log
  | rsq
  | sin
  | cos
  | asin
  | acos
  | atan
  | min
  | max
  | lt
  | ge
  | add
  | mul
  | atan2
  | div
  | cmp
  | movc
  | dot
  | noise
  | minScalar
  | maxScalar
  | ltScalar
  | geScalar
  | addScalar
  | mulScalar
  | atan2Scalar
  | divScalar
  | dotScalar
  | noiseScalar
  deriving DecidableEq, Repr, Inhabited

namespace Opcode

def all : List Opcode :=
  [nop, mov, neg, rcp, frc, exp, log, rsq, sin, cos, asin, acos, atan, min, max, lt, ge, add,
    mul, atan2, div, cmp, movc, dot, noise, minScalar, maxScalar, ltScalar, geScalar, addScalar,
    mulScalar, atan2Scalar, divScalar, dotScalar, noiseScalar]

def code : Opcode → Nat
  | nop => 0
  | mov => 0x1000
  | neg => 0x1010
  | rcp => 0x1030
  | frc => 0x1040
  | exp => 0x1050
  | log => 0x1060
  | rsq => 0x1070
  | sin => 0x1080
  | cos => 0x1090
  | asin => 0x10A0
  | acos => 0x10B0
  | atan => 0x10C0
  | min => 0x2000
  | max => 0x2010
  | lt => 0x2020
  | ge => 0x2030
  | add => 0x2040
  | mul => 0x2050
  | atan2 => 0x2060
  | div => 0x2080
  | cmp => 0x3000
  | movc => 0x3010
  | dot => 0x5000
  | noise => 0x5020
  | minScalar => 0xA000
  | maxScalar => 0xA010
  | ltScalar => 0xA020
  | geScalar => 0xA030
  | addScalar => 0xA040
  | mulScalar => 0xA050
  | atan2Scalar => 0xA060
  | divScalar => 0xA080
  | dotScalar => 0xD000
  | noiseScalar => 0xD020

/-- The opcode with a given number. The operation that does nothing has no number of its own. -/
def ofCode? (n : Nat) : Option Opcode := if n = 0 then none else all.find? (·.code == n)

def name : Opcode → String
  | nop => "Nop"
  | mov => "Mov"
  | neg => "Neg"
  | rcp => "Rcp"
  | frc => "Frc"
  | exp => "Exp"
  | log => "Log"
  | rsq => "Rsq"
  | sin => "Sin"
  | cos => "Cos"
  | asin => "Asin"
  | acos => "Acos"
  | atan => "Atan"
  | min => "Min"
  | max => "Max"
  | lt => "Lt"
  | ge => "Ge"
  | add => "Add"
  | mul => "Mul"
  | atan2 => "Atan2"
  | div => "Div"
  | cmp => "Cmp"
  | movc => "Movc"
  | dot => "Dot"
  | noise => "Noise"
  | minScalar => "MinScalar"
  | maxScalar => "MaxScalar"
  | ltScalar => "LtScalar"
  | geScalar => "GeScalar"
  | addScalar => "AddScalar"
  | mulScalar => "MulScalar"
  | atan2Scalar => "Atan2Scalar"
  | divScalar => "DivScalar"
  | dotScalar => "DotScalar"
  | noiseScalar => "NoiseScalar"

/-- Whether the first source is one lane that serves all lanes. -/
def isScalar : Opcode → Bool
  | minScalar | maxScalar | ltScalar | geScalar | addScalar | mulScalar | atan2Scalar | divScalar
  | dotScalar | noiseScalar => true
  | _ => false

def arity : Opcode → Nat
  | nop => 0
  | mov | neg | rcp | frc | exp | log | rsq | sin | cos | asin | acos | atan | noise
  | noiseScalar => 1
  | cmp | movc => 3
  | _ => 2

end Opcode

end ShaderPipeline.Preshader
