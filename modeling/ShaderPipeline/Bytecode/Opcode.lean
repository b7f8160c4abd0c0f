/-!
# Opcodes

Every instruction starts with a word whose low half is an opcode. `Opcode.code` and
`Opcode.mnemonic` are its number and its name in shader assembly; a number without an opcode is
kept as `Opcode.unknown`.
-/

namespace ShaderPipeline

/-- An instruction's operation, or one of the markers of the stream. -/
inductive Opcode where
  | nop
  | mov
  | add
  | sub
  | mad
  | mul
  | rcp
  | rsq
  | dp3
  | dp4
  | min
  | max
  | slt
  | sge
  | exp
  | log
  | lit
  | dst
  | lrp
  | frc
  | m4x4
  | m4x3
  | m3x4
  | m3x3
  | m3x2
  | call
  | callNonzero
  | loop
  | ret
  | endLoop
  | label
  | dcl
  | pow
  | crs
  | sgn
  | abs
  | nrm
  | sinCos
  | rep
  | endRep
  | ifBool
  | ifCompare
  | orElse
  | endIf
  | breakAlways
  | breakCompare
  | mova
  | defBool
  | defInt
  | texCoord
  | texKill
  | tex
  | texBem
  | texBemL
  | texReg2Ar
  | texReg2Gb
  | texM3x2Pad
  | texM3x2Tex
  | texM3x3Pad
  | texM3x3Tex
  | texM3x3Spec
  | texM3x3VSpec
  | expPartial
  | logPartial
  | cnd
  | defFloat
  | texReg2Rgb
  | texDp3Tex
  | texM3x2Depth
  | texDp3
  | texM3x3
  | texDepth
  | cmp
  | bem
  | dp2Add
  | dsx
  | dsy
  | texLdd
  | setPredicate
  | texLdl
  | breakPredicate
  | phase
  | comment
  | stop
  /-- A number that names no operation. -/
  | unknown (code : Nat)
  deriving DecidableEq, Repr, Inhabited

namespace Opcode

def all : List Opcode :=
  [nop, mov, add, sub, mad, mul, rcp, rsq, dp3, dp4, min, max, slt, sge, exp, log, lit, dst, lrp,
    frc, m4x4, m4x3, m3x4, m3x3, m3x2, call, callNonzero, loop, ret, endLoop, label, dcl, pow, crs,
    sgn, abs, nrm, sinCos, rep, endRep, ifBool, ifCompare, orElse, endIf, breakAlways,
    breakCompare, mova, defBool, defInt, texCoord, texKill, tex, texBem, texBemL, texReg2Ar,
    texReg2Gb, texM3x2Pad, texM3x2Tex, texM3x3Pad, texM3x3Tex, texM3x3Spec, texM3x3VSpec,
    expPartial, logPartial, cnd, defFloat, texReg2Rgb, texDp3Tex, texM3x2Depth, texDp3, texM3x3,
    texDepth, cmp, bem, dp2Add, dsx, dsy, texLdd, setPredicate, texLdl, breakPredicate, phase,
    comment, stop]

def code : Opcode → Nat
  | nop => 0
  | mov => 1
  | add => 2
  | sub => 3
  | mad => 4
  | mul => 5
  | rcp => 6
  | rsq => 7
  | dp3 => 8
  | dp4 => 9
  | min => 10
  | max => 11
  | slt => 12
  | sge => 13
  | exp => 14
  | log => 15
  | lit => 16
  | dst => 17
  | lrp => 18
  | frc => 19
  | m4x4 => 20
  | m4x3 => 21
  | m3x4 => 22
  | m3x3 => 23
  | m3x2 => 24
  | call => 25
  | callNonzero => 26
  | loop => 27
  | ret => 28
  | endLoop => 29
  | label => 30
  | dcl => 31
  | pow => 32
  | crs => 33
  | sgn => 34
  | abs => 35
  | nrm => 36
  | sinCos => 37
  | rep => 38
  | endRep => 39
  | ifBool => 40
  | ifCompare => 41
  | orElse => 42
  | endIf => 43
  | breakAlways => 44
  | breakCompare => 45
  | mova => 46
  | defBool => 47
  | defInt => 48
  | texCoord => 64
  | texKill => 65
  | tex => 66
  | texBem => 67
  | texBemL => 68
  | texReg2Ar => 69
  | texReg2Gb => 70
  | texM3x2Pad => 71
  | texM3x2Tex => 72
  | texM3x3Pad => 73
  | texM3x3Tex => 74
  | texM3x3Spec => 76
  | texM3x3VSpec => 77
  | expPartial => 78
  | logPartial => 79
  | cnd => 80
  | defFloat => 81
  | texReg2Rgb => 82
  | texDp3Tex => 83
  | texM3x2Depth => 84
  | texDp3 => 85
  | texM3x3 => 86
  | texDepth => 87
  | cmp => 88
  | bem => 89
  | dp2Add => 90
  | dsx => 91
  | dsy => 92
  | texLdd => 93
  | setPredicate => 94
  | texLdl => 95
  | breakPredicate => 96
  | phase => 0xFFFD
  | comment => 0xFFFE
  | stop => 0xFFFF
  | unknown n => n

def ofCode (n : Nat) : Opcode := (all.find? (·.code == n)).getD (unknown n)

def mnemonic : Opcode → String
  | nop => "nop"
  | mov => "mov"
  | add => "add"
  | sub => "sub"
  | mad => "mad"
  | mul => "mul"
  | rcp => "rcp"
  | rsq => "rsq"
  | dp3 => "dp3"
  | dp4 => "dp4"
  | min => "min"
  | max => "max"
  | slt => "slt"
  | sge => "sge"
  | exp => "exp"
  | log => "log"
  | lit => "lit"
  | dst => "dst"
  | lrp => "lrp"
  | frc => "frc"
  | m4x4 => "m4x4"
  | m4x3 => "m4x3"
  | m3x4 => "m3x4"
  | m3x3 => "m3x3"
  | m3x2 => "m3x2"
  | call => "call"
  | callNonzero => "callnz"
  | loop => "loop"
  | ret => "ret"
  | endLoop => "endloop"
  | label => "label"
  | dcl => "dcl"
  | pow => "pow"
  | crs => "crs"
  | sgn => "sgn"
  | abs => "abs"
  | nrm => "nrm"
  | sinCos => "sincos"
  | rep => "rep"
  | endRep => "endrep"
  | ifBool => "if"
  | ifCompare => "ifc"
  | orElse => "else"
  | endIf => "endif"
  | breakAlways => "break"
  | breakCompare => "breakc"
  | mova => "mova"
  | defBool => "defb"
  | defInt => "defi"
  | texCoord => "texcoord"
  | texKill => "texkill"
  | tex => "texld"
  | texBem => "texbem"
  | texBemL => "texbeml"
  | texReg2Ar => "texreg2ar"
  | texReg2Gb => "texreg2gb"
  | texM3x2Pad => "texm3x2pad"
  | texM3x2Tex => "texm3x2tex"
  | texM3x3Pad => "texm3x3pad"
  | texM3x3Tex => "texm3x3tex"
  | texM3x3Spec => "texm3x3spec"
  | texM3x3VSpec => "texm3x3vspec"
  | expPartial => "expp"
  | logPartial => "logp"
  | cnd => "cnd"
  | defFloat => "def"
  | texReg2Rgb => "texreg2rgb"
  | texDp3Tex => "texdp3tex"
  | texM3x2Depth => "texm3x2depth"
  | texDp3 => "texdp3"
  | texM3x3 => "texm3x3"
  | texDepth => "texdepth"
  | cmp => "cmp"
  | bem => "bem"
  | dp2Add => "dp2add"
  | dsx => "dsx"
  | dsy => "dsy"
  | texLdd => "texldd"
  | setPredicate => "setp"
  | texLdl => "texldl"
  | breakPredicate => "breakp"
  | phase => "phase"
  | comment => "comment"
  | stop => "end"
  | unknown _ => "unknown"

/-- Declarations and stream markers; these do not count as instructions. -/
def isDeclaration : Opcode → Bool
  | dcl | defFloat | defInt | defBool | comment | stop | phase => true
  | _ => false

/-- How many registers after the one named a matrix operation reads as further rows. -/
def extraRows : Opcode → Nat
  | m4x4 | m3x4 => 3
  | m4x3 | m3x3 => 2
  | m3x2 => 1
  | _ => 0

end Opcode

end ShaderPipeline
