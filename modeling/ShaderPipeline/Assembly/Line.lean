import ShaderPipeline.Bytecode.Instruction
import ShaderPipeline.Text.Literal

/-!
# Lines of assembly

A line has an operation, a target and operands. `Line.text` spells it.
-/

namespace ShaderPipeline.Assembly

/-- An operation. -/
inductive Operation where
  | mov
  | add
  | sub
  | mad
  | mul
  | dp3
  | dp4
  | min
  | max
  | slt
  | sge
  | lit
  | dst
  | frc
  | abs
  | xpd
  | rcp
  | rsq
  | ex2
  | exp
  | lg2
  | log
  | pow
  | arl
  | arr
  | lrp
  | ssg
  | scs
  | cos
  | sin
  | cmp
  | ddx
  | ddy
  | kil
  | tex
  | txp
  | txb
  | txl
  | txd
  deriving DecidableEq, Repr

def Operation.word : Operation → String
  | mov => "MOV"
  | add => "ADD"
  | sub => "SUB"
  | mad => "MAD"
  | mul => "MUL"
  | dp3 => "DP3"
  | dp4 => "DP4"
  | min => "MIN"
  | max => "MAX"
  | slt => "SLT"
  | sge => "SGE"
  | lit => "LIT"
  | dst => "DST"
  | frc => "FRC"
  | abs => "ABS"
  | xpd => "XPD"
  | rcp => "RCP"
  | rsq => "RSQ"
  | ex2 => "EX2"
  | exp => "EXP"
  | lg2 => "LG2"
  | log => "LOG"
  | pow => "POW"
  | arl => "ARL"
  | arr => "ARR"
  | lrp => "LRP"
  | ssg => "SSG"
  | scs => "SCS"
  | cos => "COS"
  | sin => "SIN"
  | cmp => "CMP"
  | ddx => "DDX"
  | ddy => "DDY"
  | kil => "KIL"
  | tex => "TEX"
  | txp => "TXP"
  | txb => "TXB"
  | txl => "TXL"
  | txd => "TXD"

/-- Something that holds a vector. -/
inductive Place where
  /-- A register of the shader, and its name. -/
  | register (r : RegisterRef) (text : String)
  /-- A temporary that the shader itself does not have. -/
  | scratch (stage : Stage) (n : Nat)
  /-- Anything else with a name. -/
  | named (text : String)
  deriving DecidableEq, Repr

def Place.text : Place → String
  | register _ t => t
  | scratch s n => s!"{s.tag}_scratch{n}"
  | named t => t

/-- A name, and components of it after a point; no components stand for the whole. -/
def selected (text : String) (cs : List Component) : String :=
  if cs.isEmpty then text else text ++ "." ++ String.ofList (cs.map Component.letter)

/-- An operand. -/
inductive Operand where
  /-- The components of a place that are read; none stand for all four in order. -/
  | read (negate : Bool) (p : Place) (cs : List Component)
  /-- A vector of four equal numbers, in thousandths. -/
  | splat (thousandths : Nat)
  /-- A texture and its target. -/
  | texture (sampler : Nat) (kind : SamplerKind)
  deriving DecidableEq, Repr

def targetWord : SamplerKind → String
  | .flat => "2D"
  | .cube => "CUBE"
  | .volume => "3D"

def Operand.text : Operand → String
  | read negate p cs => (if negate then "-" else "") ++ selected p.text cs
  | splat n =>
    let t := thousandthsText n
    "\x7b" ++ ", ".intercalate [t, t, t, t] ++ "\x7d"
  | texture n kind => s!"texture[{n}], {targetWord kind}"

/-- The components of a place that are written; none stand for all four. -/
structure Target where
  place : Place
  components : List Component
  deriving DecidableEq, Repr

def Target.text (t : Target) : String := selected t.place.text t.components

/-- A line of a program. -/
structure Line where
  op : Operation
  saturate : Bool
  target : Option Target
  operands : List Operand
  deriving DecidableEq, Repr

def Line.text (l : Line) : String :=
  l.op.word ++ (if l.saturate then "_SAT " else " ") ++
    ", ".intercalate (l.target.toList.map Target.text ++ l.operands.map Operand.text) ++ ";\n"

end ShaderPipeline.Assembly
