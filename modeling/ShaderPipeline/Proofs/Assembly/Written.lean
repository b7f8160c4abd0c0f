import ShaderPipeline.Assembly.Program
import ShaderPipeline.Proofs.Lowering.Meaning
import ShaderPipeline.Proofs.Outcomes

/-!
# The lines that instructions write

A step that writes assembly adds lines behind those that are there and does not look at them.
`Writes` speaks of what such a step gives and adds. A source adds the lines that compute its
modifier, and a result those that finish it.
-/

namespace ShaderPipeline.Assembly

open List Progress

variable {operands : List Operand} {is : List Instruction}

/-- Whatever a step gives and adds, if it comes to its end, has a property. -/
def Writes {α : Type} (m : LineM α) (Q : α → List Line → Prop) : Prop :=
  ∀ lines a lines', m.run lines = .ok (a, lines') → ∃ new, lines' = lines ++ new ∧ Q a new

section Writes

variable {α β : Type} {P Q : α → List Line → Prop} {R : β → List Line → Prop}

theorem Writes.mono {m : LineM α} (h : Writes m P) (hPQ : ∀ a new, P a new → Q a new) :
    Writes m Q := by
  intro lines a lines' hrun
  obtain ⟨new, hnew, hP⟩ := h lines a lines' hrun
  exact ⟨new, hnew, hPQ a new hP⟩

theorem writes_pure {a : α} (h : Q a []) : Writes (pure a) Q := by
  intro lines b lines' hrun
  obtain ⟨rfl, rfl⟩ := run_pure_eq_ok.mp hrun
  exact ⟨[], (append_nil _).symm, h⟩

theorem writes_throw (fault : Fault) : Writes (throw fault : LineM α) Q :=
  fun _ _ _ hrun => absurd hrun run_throw_ne_ok

theorem writes_liftM {x : Except Fault α} (h : ∀ a, x = .ok a → Q a []) :
    Writes (liftM x : LineM α) Q := by
  intro lines b lines' hrun
  obtain ⟨hx, rfl⟩ := run_liftM_eq_ok.mp hrun
  exact ⟨[], (append_nil _).symm, h b hx⟩

theorem writes_line {line : Line} {Q : Unit → List Line → Prop} (h : Q () [line]) :
    Writes (modify (· ++ [line])) Q := by
  intro lines a lines' hrun
  cases hrun
  exact ⟨[line], rfl, h⟩

theorem Writes.bind {m : LineM α} {f : α → LineM β} (hm : Writes m P)
    (hf : ∀ a first, P a first → Writes (f a) fun b new => R b (first ++ new)) :
    Writes (m >>= f) R := by
  intro lines b lines' hrun
  obtain ⟨a, middle, hm', hf'⟩ := run_bind_eq_ok.mp hrun
  obtain ⟨first, rfl, hP⟩ := hm lines a middle hm'
  obtain ⟨new, rfl, hR⟩ := hf a first hP _ b lines' hf'
  exact ⟨first ++ new, append_assoc _ _ _, hR⟩

theorem writes_line_bind {line : Line} {f : Unit → LineM β}
    (hf : Writes (f ()) fun b new => R b (line :: new)) :
    Writes (modify (· ++ [line]) >>= f) R :=
  (writes_line (Q := fun _ new => new = [line]) rfl).bind fun _ _ hfirst => hfirst ▸ hf

theorem writes_emit_bind {op : Operation} {target : Target} {f : Unit → LineM β}
    (hf : Writes (f ()) fun b new => R b (⟨op, false, some target, operands⟩ :: new)) :
    Writes (emit op target operands >>= f) R :=
  writes_line_bind hf

theorem writes_liftM_bind {x : Except Fault α} {f : α → LineM β}
    (hf : ∀ a, x = .ok a → Writes (f a) R) : Writes (liftM x >>= f) R :=
  (writes_liftM (Q := fun a new => x = .ok a ∧ new = []) fun _ ha => ⟨ha, rfl⟩).bind
    fun a _ ⟨ha, hfirst⟩ => hfirst ▸ hf a ha

theorem Writes.instructionLines {l : Layout} {i : Instruction} {Q : Unit → List Line → Prop}
    (h : Writes (writeInstruction l i) Q) {lines : List Line}
    (hlines : instructionLines l i = .ok lines) : Q () lines := by
  obtain ⟨⟨a, lines'⟩, hrun, hlines⟩ := bind_eq_ok.mp hlines
  obtain rfl := Except.ok.inj hlines
  obtain ⟨new, rfl, hQ⟩ := h [] a lines' hrun
  exact hQ

end Writes

/-! ### Sources -/

def modifierLines (s : Place) (v : Operand) : SourceModifier → List Line
  | .bias | .biasNegate => [⟨.sub, false, some s.target, [v, .splat 500]⟩]
  | .sign | .signNegate =>
    [⟨.add, false, some s.target, [v, v]⟩, ⟨.sub, false, some s.target, [s.whole, .splat 1000]⟩]
  | .comp => [⟨.sub, false, some s.target, [.splat 1000, v]⟩]
  | .x2 | .x2Negate => [⟨.add, false, some s.target, [v, v]⟩]
  | .abs | .absNegate => [⟨.abs, false, some s.target, [v]⟩]
  | _ => []

def modifiedValue (s : Place) (plain : Value) : SourceModifier → Value
  | .negate => { plain with negate := true }
  | .bias | .sign | .comp | .x2 | .abs => ⟨false, s, .identity⟩
  | .biasNegate | .signNegate | .x2Negate | .absNegate => ⟨true, s, .identity⟩
  | .plain | .dz | .dw | .not => plain

variable {l : Layout} {i : Instruction}

theorem writes_source (src : Source) (slot : Nat) :
    Writes (source l src slot) fun v new => ∃ p, place l src.reg = .ok p ∧
      src.modifier.Componentwise ∧
      v = modifiedValue (scratch l slot) ⟨false, p, inputSwizzle l src⟩ src.modifier ∧
      new = modifierLines (scratch l slot) (Value.vector ⟨false, p, inputSwizzle l src⟩)
        src.modifier := by
  refine writes_liftM_bind fun p hp => ?_
  cases hm : src.modifier
  case dz | dw | not => exact writes_throw _
  case plain | negate => exact writes_pure ⟨p, hp, by decide, rfl, rfl⟩
  case sign | signNegate =>
    exact writes_emit_bind (writes_emit_bind (writes_pure ⟨p, hp, by decide, rfl, rfl⟩))
  all_goals exact writes_emit_bind (writes_pure ⟨p, hp, by decide, rfl, rfl⟩)

theorem writes_sourceAt (n : Nat) :
    Writes (sourceAt l i n) fun v new => ∃ src p, i.needSrc n = .ok src ∧
      place l src.reg = .ok p ∧ src.modifier.Componentwise ∧
      v = modifiedValue (scratch l n) ⟨false, p, inputSwizzle l src⟩ src.modifier ∧
      new = modifierLines (scratch l n) (Value.vector ⟨false, p, inputSwizzle l src⟩)
        src.modifier :=
  writes_liftM_bind fun src hsrc => (writes_source src n).mono
    fun _ _ ⟨p, hp, hlines, hv, hnew⟩ => ⟨src, p, hsrc, hp, hlines, hv, hnew⟩

/-! ### Results -/

def storeLines (l : Layout) (m : ResultModifier) (op : Operation) (operands : List Operand)
    (d : Target) : List Line :=
  let s := scratch l resultScratch
  if m.shift.factor? = none ∧ (m.saturate = false ∨ isPixel l = true) then
    [⟨op, m.saturate, some d, operands⟩]
  else
    let scale (n : Nat) : Line := ⟨.mul, false, some s.target, [s.whole, .splat n]⟩
    ⟨op, false, some s.target, operands⟩ :: (m.shift.factor?.map scale).toList ++
      if m.saturate = false ∨ isPixel l = true then [⟨.mov, m.saturate, some d, [s.whole]⟩]
      else [⟨.max, false, some s.target, [s.whole, .splat 0]⟩,
        ⟨.min, false, some d, [s.whole, .splat 1000]⟩]

theorem writes_store (op : Operation) (operands : List Operand) :
    Writes (store l i op operands) fun _ new => i.predicate = none ∧
      ∃ d, destination l i = .ok d ∧ new = storeLines l i.result op operands d := by
  unfold store
  cases hpredicate : i.predicate with
  | some p => exact fun _ _ _ hrun => absurd hrun nofun
  | none =>
    refine writes_liftM_bind fun d hd => ?_
    cases hshift : i.result.shift.factor? <;> cases hsaturate : i.result.saturate <;>
      cases hpixel : isPixel l
    all_goals
      simp
    case none.false.false | none.false.true | none.true.true =>
      exact writes_line ⟨d, hd, by simp [storeLines, hshift, hsaturate, hpixel]⟩
    case none.true.false =>
      refine writes_emit_bind (writes_emit_bind (writes_line ⟨d, hd, ?_⟩))
      simp [storeLines, hshift, hsaturate, hpixel]
    case some.true.false =>
      refine writes_emit_bind (writes_emit_bind (writes_emit_bind (writes_line ⟨d, hd, ?_⟩)))
      simp [storeLines, hshift, hsaturate, hpixel]
    all_goals
      refine writes_emit_bind (writes_emit_bind (writes_line ⟨d, hd, ?_⟩))
      simp [storeLines, hshift, hsaturate, hpixel]

theorem writes_store_of {op : Operation} {P : Target → List Line → Prop}
    (h : ∀ t, P t (storeLines l i.result op operands t)) :
    Writes (store l i op operands) fun _ new =>
      i.predicate = none ∧ ∃ t, destination l i = .ok t ∧ P t new :=
  (writes_store op operands).mono fun _ _ ⟨hpredicate, t, ht, hnew⟩ =>
    ⟨hpredicate, t, ht, hnew ▸ h t⟩

/-! ### Whole programs -/

theorem exists_lines_foldl {p : Progress} (h : (is.foldl (step l) p).faults = []) :
    p.faults = [] ∧ ∃ new, (is.foldl (step l) p).lines = new ++ p.lines ∧
      ∀ i ∈ is, ∃ lines, instructionLines l i = .ok lines ∧ lines.reverse <:+: new := by
  induction is generalizing p with
  | nil => exact ⟨h, [], rfl, fun _ hi => nomatch hi⟩
  | cons i rest ih =>
    obtain ⟨hfaults, new, hnew, hrest⟩ := ih h
    unfold step at hfaults hnew
    cases hlines : instructionLines l i with
    | error fault =>
      rw [hlines] at hfaults
      exact absurd hfaults (cons_ne_nil _ _)
    | ok lines =>
      rw [hlines] at hfaults hnew
      refine ⟨hfaults, new ++ lines.reverse, ?_, fun j hj => ?_⟩
      · rw [append_assoc, ← hnew, foldl_cons]
        unfold step
        rw [hlines]
      · rcases mem_cons.mp hj with rfl | hj
        · exact ⟨lines, hlines, (suffix_append new lines.reverse).isInfix⟩
        · obtain ⟨lines', hlines', hinfix⟩ := hrest j hj
          exact ⟨lines', hlines', hinfix.trans (prefix_append new lines.reverse).isInfix⟩

/-- Every instruction of a program without faults has its lines in it. -/
theorem exists_lines_of_ofInstructions (h : (ofInstructions l is).2 = []) (hi : i ∈ is) :
    ∃ lines, instructionLines l i = .ok lines ∧ lines <:+: (ofInstructions l is).1.lines := by
  have hfaults : (is.foldl (step l) ⟨[], []⟩).faults = [] := by
    unfold ofInstructions at h
    cases hheader : header l <;> simp [hheader] at h
    exact h
  obtain ⟨-, new, hnew, hlines⟩ := exists_lines_foldl hfaults
  obtain ⟨lines, hi, hinfix⟩ := hlines i hi
  refine ⟨lines, hi, ?_⟩
  have hprogram : (ofInstructions l is).1.lines = new.reverse ++ epilogue l := by
    unfold ofInstructions
    cases header l <;> simp [hnew]
  rw [hprogram, ← reverse_reverse lines]
  exact (List.reverse_infix.mpr hinfix).trans (prefix_append _ _).isInfix

end ShaderPipeline.Assembly
