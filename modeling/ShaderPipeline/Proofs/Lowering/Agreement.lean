import ShaderPipeline.Proofs.Assembly.Arithmetic
import ShaderPipeline.Proofs.Device.RegisterLimits
import ShaderPipeline.Proofs.Glsl.Written
import ShaderPipeline.Proofs.Layout.Profiles

/-!
# Two translations of an instruction

A shader can be written in assembly and in the shading language. Both translations of an arithmetic
instruction store its meaning, and differ at the one point where the instruction is told apart by a
comparison with one half: assembly takes one half as above one half, the shading language does not.
-/

namespace ShaderPipeline

open Annexes

variable {i : Instruction} {d : Destination} {profile : Profile} {options : Options} {s : Shader}
  (l : Layout) (is : List Instruction)

def Assembly.Emits (i : Instruction) (lines : List Line) : Prop :=
  instructionLines l i = .ok lines ∧ lines <:+: (ofInstructions l is).1.lines

def Glsl.Emits (i : Instruction) (st : Statement) : Prop :=
  ∃ before after, is = before ++ i :: after ∧
    (BodyM.instruction l i).run.run (bodyAfter l before) =
      (.ok (), (bodyAfter l before).write st) ∧
    .inside (bodyAfter l before).indent st ∈ (ofInstructions l is).1.body

def Assembly.Leaves (lines : List Line) (σ : State) (d : Destination) (x : Vector4) : Prop :=
  ∃ σ' name, runLines? lines σ = some σ' ∧ registerText l d.reg = .ok name ∧
    ∀ c, d.mask.contains c = true → σ' name c = x c

def Glsl.Leaves (st : Statement) (read : RegisterContents) (d : Destination) (x : Vector4) : Prop :=
  ∃ stored, st.stored? read = some (d.reg, stored) ∧
    ∀ c, d.mask.contains c = true → stored c = some (x c)

/-! ### Assembly -/

theorem Assembly.leaves_of_stores {l : Layout} {lines : List Line} {σ : State} {t : Target}
    {x : Vector4} (h : Stores l lines σ t x) (ht : destination l i = .ok t) (hd : i.dst? = some d) :
    Leaves l lines σ d x := by
  obtain ⟨σ', hrun, honly⟩ := h
  obtain ⟨d', hd', ht⟩ := bind_eq_ok.mp ht
  obtain rfl : d' = d := Option.some.inj ((Survey.dst?_of_needDst hd').symm.trans hd)
  obtain ⟨p, hp, ht⟩ := bind_eq_ok.mp ht
  obtain ⟨name, hname, hp⟩ := bind_eq_ok.mp hp
  obtain rfl := Except.ok.inj hp
  obtain rfl := Except.ok.inj ht
  refine ⟨σ', name, hrun, hname, fun c hc => ?_⟩
  rw [honly name fun k _ => ne_scratch_of_registerText hname]
  refine if_pos ⟨rfl, ?_⟩
  unfold Target.Covers
  split_ifs
  · exact Or.inl rfl
  · exact Or.inr (List.mem_filter.mpr ⟨by cases c <;> decide, hc⟩)

theorem Assembly.exists_emits (hprofile : profile.isGlsl = false)
    (hok : (LoweredShader.ofShader profile options s).isOk = true) (hi : i ∈ s.instructions) :
    ∃ lines, Emits (s.layout profile options (ofShader s).symbols) s.instructions i
      lines := by
  have hfaults := (Shader.isOk_ofShader_iff.mp hok).2.2
  have hglsl : (s.layout profile options (ofShader s).symbols).profile.isGlsl = false :=
    hprofile
  unfold writeShader at hfaults
  rw [if_neg (by rw [hglsl]; decide)] at hfaults
  exact exists_lines_of_ofInstructions hfaults hi

/-! ### The shading language -/

theorem Glsl.faults_eq_nil_of_isOk (hprofile : profile.isGlsl = true)
    (hok : (LoweredShader.ofShader profile options s).isOk = true) :
    (writeBody (s.layout profile options (ofShader s).symbols) s.instructions).faults =
      [] := by
  have hfaults := (Shader.isOk_ofShader_iff.mp hok).2.2
  have hglsl : (s.layout profile options (ofShader s).symbols).profile.isGlsl = true :=
    hprofile
  unfold writeShader at hfaults
  rw [if_pos hglsl] at hfaults
  exact List.reverse_eq_nil_iff.mp hfaults

theorem Glsl.exists_emits (hprofile : profile.isGlsl = true)
    (hok : (LoweredShader.ofShader profile options s).isOk = true) (hi : i ∈ s.instructions)
    {n : Nat} (hn : i.opcode.produces? = some n) (hpredicate : i.predicate = none)
    (hd : i.dst? = some d) :
    let l := s.layout profile options (ofShader s).symbols
    ∃ loops e name, (Scope.mk l loops).value i = .ok e ∧
      Emits l s.instructions i (assignment d name (assigned d i.result e)) := by
  intro l
  obtain ⟨before, after, b', his, hrun, hlines⟩ :=
    exists_run_of_writeBody (faults_eq_nil_of_isOk hprofile hok) hi
  obtain ⟨e, d', name, he, hd', rfl⟩ := run_instruction_of_produces hn hpredicate hrun
  obtain rfl : d' = d := Option.some.inj ((Survey.dst?_of_needDst hd').symm.trans hd)
  refine ⟨_, e, name, he, before, after, his, hrun, ?_⟩
  exact List.mem_reverse.mpr (hlines.subset List.mem_cons_self)

theorem Glsl.leaves_assigned {l : Layout} {loops : Nat} {e : Expr} {n : Nat}
    (hn : i.opcode.produces? = some n) (hi : i.Componentwise)
    (he : (Scope.mk l loops).value i = .ok e)
    (hmask : ∀ c, d.mask.contains c = true → c.index < n) (name : String)
    (regs : RegisterContents) :
    Leaves (assignment d name (assigned d i.result e)) (l.contents regs) d fun c =>
      if d.reg.file.valueKind = .float then i.result.finish (i.meaning false l regs c)
      else i.meaning false l regs c := by
  obtain ⟨v, hv, hmeaning⟩ := eval?_value hn hi he regs
  have hassigned : (assigned d i.result e).eval? (l.contents regs) = some (.ofVector fun c =>
      if d.reg.file.valueKind = .float then i.result.finish (v c) else v c) := by
    unfold assigned
    split_ifs
    · exact eval?_resultValue i.result hv
    · exact hv
  obtain ⟨stored, hstored, hcomponents⟩ := stored?_assignment d name hassigned
  refine ⟨stored, hstored, fun c hc => ?_⟩
  rw [hcomponents c hc, hmeaning c (hmask c hc)]

/-! ### Agreement -/

/-- What the two translations make of an instruction is the same unless it compares with one half
and finds it. -/
theorem Instruction.finish_meaning_eq_iff (i : Instruction) (l : Layout) (regs : RegisterContents)
    (c : Component) :
    i.result.finish (i.meaning true l regs c) = i.result.finish (i.meaning false l regs c) ↔
      (i.opcode = .cnd → i.sourceValue l regs 0 c = 1 / 2 →
        i.result.finish (i.sourceValue l regs 1 c) =
          i.result.finish (i.sourceValue l regs 2 c)) := by
  unfold meaning
  by_cases hop : i.opcode = .cnd
  · rw [hop]
    by_cases hhalf : i.sourceValue l regs 0 c = 1 / 2
    · simp [Opcode.meaning, hhalf]
    · simp only [Opcode.meaning, hhalf, and_false, or_false, false_imp_iff, implies_true]
  · have hsame : i.opcode.meaning true (i.sourceValue l regs) (i.rowValue l regs) c =
        i.opcode.meaning false (i.sourceValue l regs) (i.rowValue l regs) c := by
      cases hcases : i.opcode <;> first | rfl | exact absurd hcases hop
    simp [hsame, hop]

def choice : Instruction :=
  { Instruction.marker 0 1 .cnd with
    length := 5
    operands := .dst ⟨⟨.temp, 0, none⟩, .full⟩ ::
      [0, 1, 2].map fun n => .src ⟨⟨.temp, n, none⟩, .identity, .plain⟩ }

def choosing : Shader where
  version := ⟨.pixel, 1, 4⟩
  instructions := [choice, .marker 1 6 .stop]

end ShaderPipeline
