import Mathlib.Tactic.IntervalCases
import ShaderPipeline.Glsl.Body
import ShaderPipeline.Proofs.Lowering.Meaning
import ShaderPipeline.Proofs.Outcomes

/-!
# Values of expressions

Expressions of the shading language are evaluated to numbers or booleans, as many as their type has
components. An expression without a value is one that is ill typed, or one that uses more than
arithmetic.
-/

namespace ShaderPipeline.Glsl

open Expr Instruction Except List

/-- The value of an expression. -/
inductive Value where
  | numbers (xs : List ℚ)
  | flags (bs : List Bool)
  deriving DecidableEq

namespace Value

def ofVector (v : Vector4) : Value := numbers [v .x, v .y, v .z, v .w]

def numbers? : Value → Option (List ℚ)
  | numbers xs => some xs
  | flags _ => none

def select? (cs : List Component) : Value → Option Value
  | numbers xs => (cs.mapM fun c => xs[c.index]?).map numbers
  | flags _ => none

def neg? : Value → Option Value
  | numbers xs => some (numbers (xs.map fun x => -x))
  | flags _ => none

end Value

def combine? (f : ℚ → ℚ → ℚ) : List ℚ → List ℚ → Option Value
  | [x], ys => some (.numbers (ys.map (f x)))
  | xs, [y] => some (.numbers (xs.map (f · y)))
  | xs, ys => if xs.length = ys.length then some (.numbers (xs.zipWith f ys)) else none

def Operator.result? : Operator → Value → Value → Option Value
  | add, .numbers xs, .numbers ys => combine? (· + ·) xs ys
  | sub, .numbers xs, .numbers ys => combine? (· - ·) xs ys
  | mul, .numbers xs, .numbers ys => combine? (· * ·) xs ys
  | _, _, _ => none

def compare? : Comparison → Option (ℚ → ℚ → Bool)
  | .gt => some fun x y => y < x
  | .eq => some fun x y => x = y
  | .ge => some fun x y => y ≤ x
  | .lt => some fun x y => x < y
  | .ne => some fun x y => x ≠ y
  | .le => some fun x y => x ≤ y
  | .unknown _ => none

def Builtin.result? : Builtin → List Value → Option Value
  | vec4, [.numbers [x]] => some (.numbers [x, x, x, x])
  | vec4, [.flags bs] =>
    if bs.length = 4 then some (.numbers (bs.map fun b => if b then 1 else 0)) else none
  | vec4, args =>
    (args.mapM Value.numbers?).bind fun xss =>
      if xss.flatten.length = 4 then some (.numbers xss.flatten) else none
  | abs, [.numbers xs] => some (.numbers (xs.map fun x => |x|))
  | sign, [.numbers xs] => some (.numbers (xs.map signOf))
  | clamp, [.numbers xs, .numbers [low], .numbers [high]] =>
    some (.numbers (xs.map fun x => Min.min (Max.max x low) high))
  | dot, [.numbers xs, .numbers ys] =>
    if xs.length = ys.length then some (.numbers [(xs.zipWith (· * ·) ys).sum]) else none
  | mix, [.numbers xs, .numbers ys, .numbers zs] =>
    if xs.length = zs.length ∧ ys.length = zs.length then
      some (.numbers ((xs.zip ys).zipWith (fun p a => p.1 * (1 - a) + p.2 * a) zs))
    else none
  | compare c, [.numbers xs, .numbers ys] =>
    (compare? c).bind fun holds =>
      if xs.length = ys.length then some (.flags (xs.zipWith holds ys)) else none
  | _, _ => none

namespace Expr

mutual

def eval? (read : RegisterContents) : Expr → Option Value
  | number n => some (.numbers [(n : ℚ) / 1000])
  | register r _ => some (.ofVector (read r))
  | select e cs => (eval? read e).bind (Value.select? cs)
  | paren e => eval? read e
  | neg e => (eval? read e).bind Value.neg?
  | binary op a b => (eval? read a).bind fun x => (eval? read b).bind (op.result? x)
  | call f args => (evals? read args).bind f.result?
  | name _ | not _ => none

def evals? (read : RegisterContents) : List Expr → Option (List Value)
  | [] => some []
  | e :: es => (eval? read e).bind fun v => (evals? read es).map (v :: ·)

end

end Expr

-- The equations of the evaluator are made here, once for all the proofs below.
attribute [local simp] Operator.result? Builtin.result? combine? Expr.eval? Expr.evals?

/-! ### Sources -/

section Sources

variable {read : RegisterContents} {e e₁ : Expr} {v : Vector4}

theorem select?_ofVector (v : Vector4) (cs : List Component) :
    (Value.ofVector v).select? cs = some (.numbers (cs.map v)) := by
  have hcomponent (c : Component) : [v .x, v .y, v .z, v .w][c.index]? = some (v c) := by
    cases c <;> rfl
  simp only [Value.ofVector, Value.select?, hcomponent]
  exact congrArg (Option.map Value.numbers) (mapM_pure (m := Option))

theorem eval?_splat {x : ℚ} (h : e.eval? read = some (.numbers [x])) :
    e.splat.eval? read = some (.ofVector fun _ => x) := by
  simp [splat, h, Value.ofVector]

theorem eval?_number (n : Nat) :
    (number n).eval? read = some (.numbers [(n : ℚ) / 1000]) := by
  rw [eval?]

section Vector

variable (h : e.eval? read = some (.ofVector v)) (cs : List Component)

include h

theorem eval?_select : (select e cs).eval? read = some (.numbers (cs.map v)) := by
  rw [eval?, h]
  exact select?_ofVector v cs

theorem eval?_pick : (e.pick cs).eval? read = some (.numbers (cs.map v)) :=
  eval?_select (by rwa [eval?]) cs

theorem eval?_swizzled (z : Swizzle) :
    (Scope.swizzled z e).eval? read = some (.ofVector fun c => v (z.get c)) := by
  unfold Scope.swizzled
  split_ifs with hz
  · subst hz
    simpa using h
  · exact eval?_select h _

theorem eval?_neg : e.neg.eval? read = some (.ofVector fun c => -v c) := by
  rw [eval?, h]
  rfl

theorem eval?_abs :
    (call .abs [e]).eval? read = some (.ofVector fun c => |v c|) := by
  simp [h, Value.ofVector]

theorem eval?_sub {w : Vector4} (h₁ : e₁.eval? read = some (.ofVector w)) :
    (paren (.binary .sub e e₁)).eval? read = some (.ofVector fun c => v c - w c) := by
  simp [h, h₁, Value.ofVector]

theorem eval?_scale (n : Nat) :
    (product e (.number n)).eval? read = some (.ofVector fun c => v c * (n / 1000)) := by
  simp [Expr.product, h, Value.ofVector]

theorem eval?_modified {m : SourceModifier} (hm : m.Componentwise) {kind : ValueKind}
    (he₁ : Scope.modified m kind e = .ok e₁) :
    e₁.eval? read = some (.ofVector fun c => m.apply (v c)) := by
  have hbias := eval?_sub h (eval?_splat (eval?_number 500))
  have hdouble := eval?_scale h 2000
  have hsign := eval?_sub hdouble (eval?_splat (eval?_number 1000))
  have hcomp := eval?_sub (eval?_splat (eval?_number 1000)) h
  norm_num at hbias hdouble hsign hcomp
  obtain ⟨hdz, hdw, hnot⟩ := hm
  cases m <;> cases kind <;> cases he₁
  case dz.float | dw.float | not.bool => contradiction
  case plain.float | plain.int | plain.bool => exact h
  case negate.float | negate.int => exact eval?_neg h
  case abs.float | abs.int => exact eval?_abs h
  case absNegate.float | absNegate.int => exact eval?_neg (eval?_abs h)
  case bias.float => exact hbias
  case biasNegate.float => exact eval?_neg hbias
  case sign.float => exact hsign
  case signNegate.float => exact eval?_neg hsign
  case comp.float => exact hcomp
  case x2.float => exact hdouble
  case x2Negate.float => exact eval?_neg hdouble

end Vector

theorem eval?_source {s : Scope} {src : Source} (h : s.source src = .ok e)
    (hm : src.modifier.Componentwise) (regs : RegisterContents) :
    e.eval? (s.layout.contents regs) = some (.ofVector (s.layout.sourceValue regs src)) := by
  obtain ⟨r, hr, he⟩ := bind_eq_ok.mp h
  obtain ⟨name, -, hr⟩ := bind_eq_ok.mp hr
  obtain rfl := ok.inj hr
  have hregister : (register src.reg name).eval? (s.layout.contents regs) =
      some (.ofVector (s.layout.contents regs src.reg)) := by
    rw [eval?]
  exact eval?_modified (eval?_swizzled hregister src.swizzle) hm he

theorem eval?_sourceAt {s : Scope} {i : Instruction} {n : Nat} (hi : i.Componentwise)
    (hn : n < i.opcode.arity) (h : s.sourceAt i n = .ok e) (regs : RegisterContents) :
    e.eval? (s.layout.contents regs) = some (.ofVector (i.sourceValue s.layout regs n)) := by
  obtain ⟨src, hsrc, he⟩ := bind_eq_ok.mp h
  have hsrc' := src?_of_needSrc hsrc
  rw [sourceValue, hsrc']
  exact eval?_source he (hi n hn src hsrc') regs

end Sources

/-! ### Instructions -/

section Instructions

variable {read : RegisterContents} {a b c e : Expr} {u v w : Vector4} {s : Scope} {i : Instruction}

theorem eval?_mix (hc : c.eval? read = some (.ofVector w)) (hb : b.eval? read = some (.ofVector v))
    (ha : a.eval? read = some (.ofVector u)) :
    (call .mix [c, b, a]).eval? read =
      some (.ofVector fun k => w k * (1 - u k) + v k * u k) := by
  simp [ha, hb, hc, Value.ofVector]

theorem eval?_sign (ha : a.eval? read = some (.ofVector u)) :
    (call .sign [a]).eval? read = some (.ofVector fun k => signOf (u k)) := by
  simp [ha, Value.ofVector]

section Vectors

variable (ha : a.eval? read = some (.ofVector u)) (hb : b.eval? read = some (.ofVector v))

include ha hb

theorem eval?_compare {o : Comparison} {f : ℚ → ℚ → Bool} (hf : compare? o = some f) :
    (splat (.call (.compare o) [a, b])).eval? read =
      some (.ofVector fun k => if f (u k) (v k) then 1 else 0) := by
  simp [splat, ha, hb, hf, Value.ofVector]

theorem eval?_choice {o : Comparison} {f : ℚ → ℚ → Bool} (hf : compare? o = some f) {n : Nat}
    (hc : c.eval? read = some (.ofVector w)) :
    (call .mix [c, b, .splat (.call (.compare o) [a, .splat (.number n)])]).eval? read =
      some (.ofVector fun k => if f (u k) (n / 1000) then v k else w k) := by
  rw [eval?_mix hc hb (eval?_compare ha (eval?_splat (eval?_number n)) hf)]
  congr 2
  funext k
  split_ifs <;> simp

theorem eval?_dot4 :
    (call .dot [a, b]).eval? read = some (.numbers [dot4 u v]) := by
  simp [ha, hb, Value.ofVector, dot4, add_assoc]

theorem eval?_dot3 :
    (call .dot [a.xyz, b.xyz]).eval? read = some (.numbers [dot3 u v]) := by
  simp [xyz, eval?_pick ha, eval?_pick hb, dot3, add_assoc]

theorem eval?_dot2 (hc : c.eval? read = some (.ofVector w)) :
    (splat (.binary .add (.call .dot [a.xy, b.xy]) c.x)).eval? read =
      some (.ofVector fun _ => u .x * v .x + u .y * v .y + w .x) := by
  refine eval?_splat ?_
  simp [xy, x, eval?_pick ha, eval?_pick hb, eval?_pick hc]

end Vectors

theorem three_eq_ok {f : Expr → Expr → Expr → Expr} (h : s.three i f = .ok e) :
    ∃ a b c, s.sourceAt i 0 = .ok a ∧ s.sourceAt i 1 = .ok b ∧ s.sourceAt i 2 = .ok c ∧
      e = f a b c := by
  obtain ⟨a, ha, h⟩ := bind_eq_ok.mp h
  obtain ⟨b, hb, h⟩ := bind_eq_ok.mp h
  obtain ⟨c, hc, h⟩ := bind_eq_ok.mp h
  exact ⟨a, b, c, ha, hb, hc, (ok.inj h).symm⟩

variable {f : Vector4 → Vector4 → ℚ}

theorem evals?_matrixRows {m : Source} (hm : m.modifier.Componentwise) {threeWide : Bool}
    (hf : f = if threeWide then dot3 else dot4) {regs : RegisterContents}
    (ha : a.eval? (s.layout.contents regs) = some (.ofVector u)) {row count : Nat}
    {es : List Expr} (h : s.matrixRows a m threeWide row count = .ok es) :
    evals? (s.layout.contents regs) es = some ((range' row count).map fun k =>
      .numbers [f u (s.layout.sourceValue regs { m with reg := m.reg.shift k })]) := by
  subst hf
  induction count generalizing row es with
  | zero =>
    obtain rfl := ok.inj h
    rw [evals?]
    rfl
  | succ count ih =>
    obtain ⟨r, hr, h⟩ := bind_eq_ok.mp h
    obtain ⟨rest, hrest, h⟩ := bind_eq_ok.mp h
    obtain rfl := ok.inj h
    have hr' := eval?_source hr hm regs
    rw [evals?, ih hrest]
    cases threeWide
    · rw [if_neg (by decide), eval?_dot4 ha hr']
      rfl
    · rw [if_pos rfl, eval?_dot3 ha hr']
      rfl

theorem evals?_append (es es' : List Expr) :
    evals? read (es ++ es') = (evals? read es).bind fun xs =>
      (evals? read es').map (xs ++ ·) := by
  induction es with
  | nil => simp
  | cons e es ih =>
    simp only [cons_append, evals?, ih]
    cases e.eval? read <;> cases evals? read es <;> simp [Function.comp_def]

theorem eval?_matrix (hi : i.Componentwise) (harity : i.opcode.arity = 2) {rows : Nat}
    (hrows : 2 ≤ rows ∧ rows ≤ 4) {threeWide : Bool} (hf : f = if threeWide then dot3 else dot4)
    (h : s.matrix i rows threeWide = .ok e) (regs : RegisterContents) :
    ∃ v, e.eval? (s.layout.contents regs) = some (.ofVector v) ∧ ∀ c, c.index < rows →
      v c = f (i.sourceValue s.layout regs 0) (i.rowValue s.layout regs c.index) := by
  obtain ⟨a, ha, h⟩ := bind_eq_ok.mp h
  have ha' := eval?_sourceAt hi (by omega) ha regs
  cases hmatrix : i.src? 1 with
  | none =>
    rw [hmatrix] at h
    cases h
  | some m =>
    rw [hmatrix] at h
    obtain ⟨es, hes, h⟩ := bind_eq_ok.mp h
    obtain rfl := ok.inj h
    have hevals := evals?_matrixRows (hi 1 (by omega) m hmatrix) hf ha' hes
    have hrow (k : Nat) : s.layout.sourceValue regs { m with reg := m.reg.shift k } =
        i.rowValue s.layout regs k := by
      rw [rowValue, hmatrix]
    simp only [hrow] at hevals
    obtain ⟨hlow, hhigh⟩ := hrows
    refine ⟨fun c => if c.index < rows then
      f (i.sourceValue s.layout regs 0) (i.rowValue s.layout regs c.index) else 0, ?_,
      fun c hc => if_pos hc⟩
    rw [eval?, evals?_append, hevals]
    interval_cases rows <;>
      simp [range', zero, Value.numbers?, Value.ofVector, Component.index]

/-- The value of an arithmetic instruction is its meaning, where one half does not count as above
one half. -/
theorem eval?_value {n : Nat} (hn : i.opcode.produces? = some n) (hi : i.Componentwise)
    (h : s.value i = .ok e) (regs : RegisterContents) :
    ∃ v, e.eval? (s.layout.contents regs) = some (.ofVector v) ∧
      ∀ c, c.index < n → v c = i.meaning false s.layout regs c := by
  unfold Scope.value at h
  cases hop : i.opcode <;> rw [hop] at hn <;> cases hn <;> simp only [hop] at h
  case lrp =>
    obtain ⟨a, b, c, ha, hb, hc, rfl⟩ := three_eq_ok h
    have harity : i.opcode.arity = 3 := by rw [hop]; rfl
    refine ⟨_, eval?_mix (eval?_sourceAt hi (by omega) hc regs)
      (eval?_sourceAt hi (by omega) hb regs) (eval?_sourceAt hi (by omega) ha regs),
      fun k _ => ?_⟩
    rw [meaning, hop, Opcode.meaning]
    ring
  case cmp | cnd =>
    obtain ⟨a, b, c, ha, hb, hc, rfl⟩ := three_eq_ok h
    have harity : i.opcode.arity = 3 := by rw [hop]; rfl
    have ha' := eval?_sourceAt hi (by omega) ha regs
    refine ⟨_, eval?_choice ha' (eval?_sourceAt hi (by omega) hb regs) rfl
      (eval?_sourceAt hi (by omega) hc regs), fun k _ => ?_⟩
    norm_num [meaning, hop, Opcode.meaning]
  case sgn =>
    obtain ⟨a, ha, h⟩ := bind_eq_ok.mp h
    obtain rfl := ok.inj h
    have harity : i.opcode.arity = 1 := by rw [hop]; rfl
    refine ⟨_, eval?_sign (eval?_sourceAt hi (by omega) ha regs), fun k _ => ?_⟩
    rw [meaning, hop, Opcode.meaning]
  case dp2Add =>
    obtain ⟨a, ha, h⟩ := bind_eq_ok.mp h
    obtain ⟨b, hb, h⟩ := bind_eq_ok.mp h
    obtain ⟨x, hx, h⟩ := bind_eq_ok.mp h
    obtain ⟨c, hc, hx⟩ := bind_eq_ok.mp hx
    obtain rfl := ok.inj hx
    obtain rfl := ok.inj h
    have harity : i.opcode.arity = 3 := by rw [hop]; rfl
    refine ⟨_, eval?_dot2 (eval?_sourceAt hi (by omega) ha regs)
      (eval?_sourceAt hi (by omega) hb regs) (eval?_sourceAt hi (by omega) hc regs),
      fun k _ => ?_⟩
    rw [meaning, hop, Opcode.meaning]
  case m4x4 | m4x3 | m3x4 | m3x3 | m3x2 =>
    obtain ⟨v, hv, hrows⟩ := eval?_matrix hi (by rw [hop]; rfl) (by decide) rfl h regs
    refine ⟨v, hv, fun c hc => ?_⟩
    rw [hrows c hc, meaning, hop, Opcode.meaning]
    rfl

end Instructions

/-! ### Results -/

section Results

variable {read : RegisterContents} {e : Expr} {v : Vector4}

theorem eval?_resultValue (m : ResultModifier) (h : e.eval? read = some (.ofVector v)) :
    (resultValue m e).eval? read = some (.ofVector fun c => m.finish (v c)) := by
  obtain ⟨scaled, hscaled, hvalue⟩ : ∃ scaled, scaled.eval? read =
      some (.ofVector fun c => v c * m.shift.factor) ∧ resultValue m e =
        if m.saturate then .call .clamp [scaled, .zero, .one] else scaled := by
    unfold resultValue
    cases hshift : m.shift.factor? with
    | none => exact ⟨e, by simpa [ResultShift.factor, hshift] using h, rfl⟩
    | some n => exact ⟨_, by simpa [ResultShift.factor, hshift] using eval?_scale h n, rfl⟩
  rw [hvalue]
  unfold ResultModifier.finish
  split_ifs
  · simp [zero, one, hscaled, Value.ofVector, clampUnit]
  · exact hscaled

def Statement.stored? (read : RegisterContents) :
    Statement → Option (RegisterRef × (Component → Option ℚ))
  | assign (.register r _) value =>
    match value.eval? read with
    | some (.numbers xs) => if xs.length = 4 then some (r, fun c => xs[c.index]?) else none
    | _ => none
  | assign (.select (.register r _) cs) value =>
    match value.eval? read with
    | some (.numbers xs) => if xs.length = cs.length then some (r, fun c => (cs.zip xs).lookup c)
      else none
    | _ => none
  | _ => none

def assignment (d : Destination) (name : String) (value : Expr) : Statement :=
  if d.mask.isFull then .assign (.register d.reg name) value
  else .assign (.select (.register d.reg name) d.mask.components) (value.pick d.mask.components)

theorem lookup_zip_map (v : Vector4) {cs : List Component} {c : Component} (hc : c ∈ cs) :
    (cs.zip (cs.map v)).lookup c = some (v c) := by
  induction cs with
  | nil => cases hc
  | cons c' cs ih =>
    by_cases heq : c = c'
    · subst heq
      simp
    · have hrest := ih ((mem_cons.mp hc).resolve_left heq)
      rw [map_cons, zip_cons_cons, lookup_cons, beq_false_of_ne heq]
      exact hrest

theorem stored?_assignment (d : Destination) (name : String)
    (h : e.eval? read = some (.ofVector v)) :
    ∃ stored, (assignment d name e).stored? read = some (d.reg, stored) ∧
      ∀ c, d.mask.contains c = true → stored c = some (v c) := by
  unfold assignment
  split_ifs with hfull
  · refine ⟨fun c => [v .x, v .y, v .z, v .w][c.index]?, ?_, fun c _ => by cases c <;> rfl⟩
    simp [Statement.stored?, h, Value.ofVector]
  · refine ⟨fun c => (d.mask.components.zip (d.mask.components.map v)).lookup c, ?_,
      fun c hc => lookup_zip_map v (mem_filter.mpr ⟨?_, hc⟩)⟩
    · simp [Statement.stored?, eval?_pick h]
    · cases c <;> simp [Component.all]

end Results

end ShaderPipeline.Glsl
