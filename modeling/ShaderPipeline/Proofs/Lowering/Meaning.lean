import Mathlib.Algebra.Order.Field.Rat
import Mathlib.Tactic.Linarith
import Mathlib.Tactic.Ring
import ShaderPipeline.Layout.Basic

/-!
# What arithmetic instructions compute

Vectors of rationals stand for the contents of registers. A source is a register read through a
swizzle and a modifier, and a vertex input also through the reordering that the caller has asked
for. `Instruction.meaning` gives the value of an instruction component by component, and
`ResultModifier.finish` what is made of it before it is stored.
-/

namespace ShaderPipeline

abbrev Vector4 : Type := Component → ℚ

abbrev RegisterContents : Type := RegisterRef → Vector4

/-! ### Modifiers -/

/-- The nearest number between zero and one. -/
def clampUnit (x : ℚ) : ℚ := min (max x 0) 1

def signOf (x : ℚ) : ℚ := if 0 < x then 1 else if x < 0 then -1 else 0

variable (m : SourceModifier)

def SourceModifier.Componentwise : Prop := m ≠ .dz ∧ m ≠ .dw ∧ m ≠ .not

instance : Decidable m.Componentwise :=
  inferInstanceAs (Decidable (_ ∧ _ ∧ _))

def SourceModifier.apply (x : ℚ) : ℚ :=
  match m with
  | .negate => -x
  | .bias => x - 1 / 2
  | .biasNegate => -(x - 1 / 2)
  | .sign => x * 2 - 1
  | .signNegate => -(x * 2 - 1)
  | .comp => 1 - x
  | .x2 => x * 2
  | .x2Negate => -(x * 2)
  | .abs => |x|
  | .absNegate => -|x|
  | .plain | .dz | .dw | .not => x

def ResultShift.factor (s : ResultShift) : ℚ := (s.factor?.getD 1000 : ℚ) / 1000

def ResultModifier.finish (m : ResultModifier) (x : ℚ) : ℚ :=
  let scaled := x * m.shift.factor
  if m.saturate then clampUnit scaled else scaled

/-! ### Sources -/

@[simp] theorem Swizzle.get_identity (c : Component) : Swizzle.identity.get c = c := by
  cases c <;> rfl

@[simp] theorem Swizzle.get_andThen (s outer : Swizzle) (c : Component) :
    (s.andThen outer).get c = s.get (outer.get c) := by
  cases c <;> rfl

/-- The order in which a register is read: that asked for, if it is an input of a vertex shader. -/
def Layout.reordering (l : Layout) (r : RegisterRef) : Swizzle :=
  if r.file = .input ∧ r.relative = none ∧ l.stage = .vertex then
    (((l.survey.inputs.lookup r.index).bind l.options.swizzleOf?).map (·.swizzle)).getD .identity
  else .identity

def Layout.contents (l : Layout) (regs : RegisterContents) (r : RegisterRef) : Vector4 :=
  fun c => regs r ((l.reordering r).get c)

def Layout.sourceValue (l : Layout) (regs : RegisterContents) (src : Source) : Vector4 :=
  fun c => src.modifier.apply (l.contents regs src.reg (src.swizzle.get c))

/-! ### Instructions -/

def Opcode.produces? : Opcode → Option Nat
  | .lrp | .cmp | .cnd | .sgn | .dp2Add | .m4x4 | .m3x4 => some 4
  | .m4x3 | .m3x3 => some 3
  | .m3x2 => some 2
  | _ => none

def Opcode.arity : Opcode → Nat
  | .sgn => 1
  | .m4x4 | .m3x4 | .m4x3 | .m3x3 | .m3x2 => 2
  | _ => 3

/-- The product of two vectors in their first three components. -/
def dot3 (a b : Vector4) : ℚ := a .x * b .x + a .y * b .y + a .z * b .z

def dot4 (a b : Vector4) : ℚ := a .x * b .x + a .y * b .y + a .z * b .z + a .w * b .w

/-- The value of an opcode at a component, from its sources and the rows of the matrix that the
second one starts. `tie` tells whether one half counts as above one half. -/
def Opcode.meaning (op : Opcode) (tie : Bool) (v rows : Nat → Vector4) (c : Component) : ℚ :=
  match op with
  | .lrp => v 0 c * v 1 c + (1 - v 0 c) * v 2 c
  | .cmp => if 0 ≤ v 0 c then v 1 c else v 2 c
  | .cnd => if 1 / 2 < v 0 c ∨ (tie = true ∧ v 0 c = 1 / 2) then v 1 c else v 2 c
  | .sgn => signOf (v 0 c)
  | .dp2Add => v 0 .x * v 1 .x + v 0 .y * v 1 .y + v 2 .x
  | .m4x4 | .m4x3 => dot4 (v 0) (rows c.index)
  | .m3x4 | .m3x3 | .m3x2 => dot3 (v 0) (rows c.index)
  | _ => 0

namespace Instruction

theorem src?_of_needSrc {i : Instruction} {n : Nat} {src : Source} (h : i.needSrc n = .ok src) :
    i.src? n = some src := by
  unfold needSrc at h
  split at h
  · next src' hsrc' => rw [hsrc', Except.ok.inj h]
  · cases h

def sourceValue (i : Instruction) (l : Layout) (regs : RegisterContents) (n : Nat) : Vector4 :=
  match i.src? n with
  | some src => l.sourceValue regs src
  | none => 0

def rowValue (i : Instruction) (l : Layout) (regs : RegisterContents) (k : Nat) : Vector4 :=
  match i.src? 1 with
  | some src => l.sourceValue regs { src with reg := src.reg.shift k }
  | none => 0

/-- The value of an instruction at a component, before it is finished. -/
def meaning (i : Instruction) (tie : Bool) (l : Layout) (regs : RegisterContents)
    (c : Component) : ℚ :=
  i.opcode.meaning tie (i.sourceValue l regs) (i.rowValue l regs) c

def Componentwise (i : Instruction) : Prop :=
  ∀ n < i.opcode.arity, ∀ src, i.src? n = some src → src.modifier.Componentwise

/-- Only float constants are read through relative addresses. -/
def ReachesConstants (i : Instruction) : Prop :=
  ∀ src ∈ i.sources, src.reg.relative.isSome → src.reg.file = .const

theorem ReachesConstants.relative_eq_none {i : Instruction} (h : i.ReachesConstants) {n : Nat}
    {src : Source} (hsrc : i.src? n = some src) (hinput : src.reg.file = .input) :
    src.reg.relative = none := by
  by_contra hrelative
  have hconst := h src (List.mem_of_getElem? hsrc) (Option.isSome_iff_ne_none.mpr hrelative)
  rw [hinput] at hconst
  cases hconst

end Instruction

end ShaderPipeline
