import ShaderPipeline.Glsl.Expr

/-!
# Statements of the shading language

The body of a shader is a list of lines. A line inside a function has an indentation and a
statement; the lines that open and close functions stand at the margin.
-/

namespace ShaderPipeline.Glsl

/-- One line inside a function. -/
inductive Statement where
  | assign (target value : Expr)
  /-- An assignment under a condition. -/
  | assignIf (condition target value : Expr)
  /-- A local variable that holds a result until its components are stored. -/
  | hold (kind : ValueKind) (value : Expr)
  | openBlock
  | closeBlock
  | openIf (condition : Expr)
  | orElse
  | initCounter (name : String) (value : Expr)
  | openFor (name : String) (limit : Expr)
  | advance (name : String) (step : Expr)
  | breakLoop
  | breakIf (condition : Expr)
  | call (function : String)
  | callIf (condition : Expr) (function : String)
  | discardIf (condition : Expr)
  | ret

def vectorType : ValueKind → String
  | .float => "vec4"
  | .int => "ivec4"
  | .bool => "bvec4"

def heldName : String := "tmp"

def Statement.text : Statement → String
  | assign t v => s!"{t.text} = {v.text};"
  | assignIf c t v => s!"if ({c.text}) {t.text} = {v.text};"
  | hold k v => s!"{vectorType k} {heldName} = {v.text};"
  | openBlock => "\x7b"
  | closeBlock => "\x7d"
  | openIf c => s!"if ({c.text}) \x7b"
  | orElse => "\x7d else \x7b"
  | initCounter n v => s!"int {n} = {v.text};"
  | openFor n l => s!"for (int {n} = 0; {n} < {l.text}; {n}++) \x7b"
  | advance n s => s!"{n} += {s.text};"
  | breakLoop => "break;"
  | breakIf c => s!"if ({c.text}) \x7b break; \x7d"
  | call f => s!"{f}();"
  | callIf c f => s!"if ({c.text}) \x7b {f}(); \x7d"
  | discardIf c => s!"if ({c.text}) discard;"
  | ret => "return;"

/-- A line of a shader's body. -/
inductive Line where
  | inside (indent : Nat) (s : Statement)
  /-- The two lines that start a function. -/
  | openFunction (name : String)
  | closeFunction

def indentation (n : Nat) : String := String.ofList (List.replicate (4 * n) ' ')

def Line.text : Line → String
  | inside n s => indentation n ++ s.text ++ "\n"
  | openFunction name => s!"void {name}()\n\x7b\n"
  | closeFunction => "\x7d\n"

end ShaderPipeline.Glsl
