import ShaderPipeline.Bytecode.Instruction
import ShaderPipeline.Text.Literal

/-!
# Expressions of the shading language

The value of an instruction is built as an expression tree; `Expr.text` spells it. Parentheses are
part of the tree, so a tree is spelled exactly as it stands.
-/

namespace ShaderPipeline.Glsl

/-- A function of the language, or a constructor of one of its types. -/
inductive Builtin where
  | vec2
  | vec3
  | vec4
  | ivec4
  | abs
  | any
  | clamp
  | cos
  | cross
  | dot
  | exp2
  | floor
  | fract
  | inversesqrt
  | log2
  | max
  | min
  | mix
  | pow
  | sign
  | sin
  /-- The derivative along the first window axis. -/
  | derivX
  /-- The derivative along the second window axis. -/
  | derivY
  /-- The lighting function that is written in front of the shader. -/
  | lighting
  /-- A componentwise comparison. -/
  | compare (c : Comparison)
  /-- A function that samples a texture. -/
  | sample (word : String)
  deriving DecidableEq, Repr

def comparisonSign : Comparison → String
  | .gt => ">"
  | .eq => "=="
  | .ge => ">="
  | .lt => "<"
  | .ne => "!="
  | .le => "<="
  | .unknown _ => ""

def comparisonWord : Comparison → String
  | .gt => "greaterThan"
  | .eq => "equal"
  | .ge => "greaterThanEqual"
  | .lt => "lessThan"
  | .ne => "notEqual"
  | .le => "lessThanEqual"
  | .unknown _ => ""

def Builtin.word : Builtin → String
  | vec2 => "vec2"
  | vec3 => "vec3"
  | vec4 => "vec4"
  | ivec4 => "ivec4"
  | abs => "abs"
  | any => "any"
  | clamp => "clamp"
  | cos => "cos"
  | cross => "cross"
  | dot => "dot"
  | exp2 => "exp2"
  | floor => "floor"
  | fract => "fract"
  | inversesqrt => "inversesqrt"
  | log2 => "log2"
  | max => "max"
  | min => "min"
  | mix => "mix"
  | pow => "pow"
  | sign => "sign"
  | sin => "sin"
  | derivX => "dFdx"
  | derivY => "dFdy"
  | lighting => "LIT"
  | compare c => comparisonWord c
  | sample word => word

/-- An operator between two expressions. -/
inductive Operator where
  | add
  | sub
  | mul
  | div
  | compare (c : Comparison)
  deriving DecidableEq, Repr

def Operator.sign : Operator → String
  | add => "+"
  | sub => "-"
  | mul => "*"
  | div => "/"
  | compare c => comparisonSign c

/-- An expression. -/
inductive Expr where
  /-- A number, in thousandths. -/
  | number (thousandths : Nat)
  /-- A register, and how it is spelled at this place. -/
  | register (r : RegisterRef) (text : String)
  /-- Any other name. -/
  | name (text : String)
  /-- Components of a vector. -/
  | select (e : Expr) (cs : List Component)
  | paren (e : Expr)
  | neg (e : Expr)
  | not (e : Expr)
  | binary (op : Operator) (a b : Expr)
  | call (f : Builtin) (args : List Expr)
  deriving Repr, Inhabited

namespace Expr

mutual

def text : Expr → String
  | number n => thousandthsText n
  | register _ t => t
  | name t => t
  | select e cs => e.text ++ "." ++ String.ofList (cs.map Component.letter)
  | paren e => "(" ++ e.text ++ ")"
  | neg e => "-" ++ e.text
  | not e => "!" ++ e.text
  | binary op a b => a.text ++ " " ++ op.sign ++ " " ++ b.text
  | call f args => f.word ++ "(" ++ ", ".intercalate (texts args) ++ ")"

def texts : List Expr → List String
  | [] => []
  | e :: es => e.text :: texts es

end

/-- The number zero. -/
def zero : Expr := number 0

def half : Expr := number 500

def one : Expr := number 1000

def two : Expr := number 2000

def splat (e : Expr) : Expr := call .vec4 [e]

def product (a b : Expr) : Expr := paren (binary .mul a b)

def pick (e : Expr) (cs : List Component) : Expr := select (paren e) cs

/-- The first component. -/
def x (e : Expr) : Expr := pick e [.x]

/-- The first two components. -/
def xy (e : Expr) : Expr := pick e [.x, .y]

/-- The first three components. -/
def xyz (e : Expr) : Expr := pick e [.x, .y, .z]

/-- The last component. -/
def w (e : Expr) : Expr := pick e [.w]

end Expr

end ShaderPipeline.Glsl
