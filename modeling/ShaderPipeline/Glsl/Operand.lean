import ShaderPipeline.Glsl.Expr
import ShaderPipeline.Layout.Basic

/-!
# Operands as expressions

Registers become global variables named after the stage and the register. Constants are names
that the header defines, and a relative access is an element of the array it reaches into.
-/

namespace ShaderPipeline.Glsl

/-- What the spelling of a register depends on: the layout, and the number of loops around the
place, whose innermost counter is the loop register. -/
structure Scope where
  layout : Layout
  loops : Nat

namespace Scope

def tag (s : Scope) : String := s.layout.tag

def outputName (tag : String) (file : RegisterFile) (n : Nat) : Except Fault String :=
  match file with
  | .rastOut =>
    match n with
    | 0 => .ok "vs_oPos"
    | 1 => .ok "vs_oFog"
    | _ => .ok "vs_oPts"
  | .attrOut => .ok s!"vs_oD{n}"
  | .texCoordOut => .ok s!"vs_oT{n}"
  | .output => .ok s!"vs_o{n}"
  | .colorOut => .ok s!"{tag}_oC{n}"
  | .depthOut => .ok s!"{tag}_oDepth"
  | file => .error (.notAnOutput file)

variable (s : Scope)

def loopCounter : Except Fault String :=
  match s.loops with
  | 0 => .error .counterOutsideLoop
  | n + 1 => .ok s!"{s.tag}_aL{n}"

def relativeText (a : RelativeAddress) : Except Fault String :=
  match a.file with
  | .addr => .ok s!"{s.tag}_a{a.index}.{a.component.letter}"
  | .loop => s.loopCounter
  | file => .error (.relativeThrough file)

def elementText (n : Nat) (a : RelativeAddress) : Except Fault String := do
  let rel ← s.relativeText a
  match s.layout.arrayOf? n with
  | none => throw (.notInRelativeRange n)
  | some array =>
    match s.layout.floatSlot? n with
    | some slot => return s!"{s.tag}_uniforms_vec4[{slot} + {rel}]"
    | none => return s!"{array.name s.layout.stage}[{n - array.index} + {rel}]"

def inputText (n : Nat) : String :=
  match s.layout.stage, s.layout.survey.inputs.lookup n with
  | .vertex, none => s!"vs_v{n}"
  | .vertex, some semantic =>
    match s.layout.options.swizzleOf? semantic with
    | none => s!"vs_v{n}"
    | some r => if r.isTrivial then s!"vs_v{n}" else s!"vs_v{n}.{r.swizzle.letters}"
  | .pixel, some semantic => semantic.varyingName
  | .pixel, none => (Semantic.mk .color n).varyingName

def registerText (r : RegisterRef) : Except Fault String :=
  let n := r.index
  match r.relative with
  | some a => s.elementText n a
  | none =>
    match r.file with
    | .temp => .ok s!"{s.tag}_r{n}"
    | .input => .ok (s.inputText n)
    | .const => .ok s!"{s.tag}_c{n}"
    | .addr => .ok s!"{s.tag}_a{n}"
    | .texture =>
      if s.layout.textureIsVarying then .ok (Semantic.mk .texCoord n).varyingName
      else .ok s!"ps_t{n}"
    | .constInt => .ok s!"{s.tag}_i{n}"
    | .constBool => .ok s!"{s.tag}_b{n}"
    | .sampler => .ok s!"{s.tag}_s{n}"
    | .predicate => .ok s!"{s.tag}_p{n}"
    | .label => .ok s!"{s.tag}_l{n}"
    | .loop => s.loopCounter
    | .miscType => .ok (if n = 0 then "gl_FragCoord" else "vec4(gl_FrontFacing ? 1.0 : -1.0)")
    | file => outputName s.tag file n

def register (s : Scope) (r : RegisterRef) : Except Fault Expr := do
  return .register r (← s.registerText r)

/-- An expression under a source modifier. Integers can only be negated and made absolute,
booleans only be inverted. -/
def modified (m : SourceModifier) (kind : ValueKind) (e : Expr) : Except Fault Expr :=
  let biased := Expr.paren (.binary .sub e (.splat .half))
  let signed := Expr.paren (.binary .sub (.product e .two) (.splat .one))
  match kind, m with
  | _, .plain => .ok e
  | .float, .negate | .int, .negate => .ok (.neg e)
  | .bool, .not => .ok (.not e)
  | .float, .bias => .ok biased
  | .float, .biasNegate => .ok (.neg biased)
  | .float, .sign => .ok signed
  | .float, .signNegate => .ok (.neg signed)
  | .float, .comp => .ok (.paren (.binary .sub (.splat .one) e))
  | .float, .x2 => .ok (.product e .two)
  | .float, .x2Negate => .ok (.neg (.product e .two))
  | .float, .dz => .ok (.paren (.binary .div e (.select e [.z])))
  | .float, .dw => .ok (.paren (.binary .div e (.select e [.w])))
  | .float, .abs | .int, .abs => .ok (.call .abs [e])
  | .float, .absNegate | .int, .absNegate => .ok (.neg (.call .abs [e]))
  | kind, m => .error (.modifierOnKind m kind)

/-- An expression under a swizzle; the identity is not spelled. -/
def swizzled (z : Swizzle) (e : Expr) : Expr :=
  if z = .identity then e else .select e z.toList

def source (s : Scope) (src : Source) : Except Fault Expr := do
  modified src.modifier src.reg.file.valueKind (swizzled src.swizzle (← s.register src.reg))

def sourceAt (i : Instruction) (n : Nat) : Except Fault Expr := do
  s.source (← i.needSrc n)

/-- The first selected component of the source at a position. -/
def scalarAt (i : Instruction) (n : Nat) : Except Fault Expr := do
  return (← s.sourceAt i n).x

def inverted (m : SourceModifier) (e : Expr) : Expr := if m = .not then .not e else e

def condition (s : Scope) (src : Source) : Except Fault Expr := do
  let e ← s.register src.reg
  match src.reg.file with
  | .constBool => return inverted src.modifier e
  | .predicate => return inverted src.modifier (.select e [src.swizzle.x])
  | file => throw (.notACondition file)

end Scope

end ShaderPipeline.Glsl
