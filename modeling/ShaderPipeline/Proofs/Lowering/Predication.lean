import ShaderPipeline.Proofs.Bytecode.Decoded
import ShaderPipeline.Proofs.Lowering.Agreement

/-!
# Predicated instructions

In the shading language the result of a predicated instruction is held in a variable, and each
component is stored under its component of the predicate. Only assignments go this way: kills, flow
control, calls and returns are written as if they had no predicate. Assembly refuses predicates
where it stores a result, so they go unnoticed at kills and when an address register is set.
-/

namespace ShaderPipeline

open List

variable {l : Layout} {i : Instruction} {p : Source} {profile : Profile} {options : Options}

def Opcode.assigns : Opcode → Bool
  | .comment | .stop | .phase | .nop | .dcl | .defFloat | .defInt | .defBool | .texKill | .ifBool
  | .ifCompare | .orElse | .endIf | .loop | .endLoop | .rep | .endRep | .breakAlways
  | .breakCompare | .breakPredicate | .call | .callNonzero | .label | .ret => false
  | _ => true

/-- An instruction without its predicate. -/
def Instruction.always (i : Instruction) : Instruction := { i with predicate := none }

theorem Instruction.Checked.late {v : Version} (h : i.Checked v) (hp : i.predicate = some p) :
    v.isEarlyPixel = false ∧ i.opcode ≠ .texCoord := by
  have hearly : v.isEarlyPixel = false := by
    have hmajor := (h.predicate p hp).2
    rw [Version.isEarlyPixel, Bool.and_eq_false_iff]
    exact Or.inr (beq_false_of_ne (by omega))
  refine ⟨hearly, fun hop => ?_⟩
  obtain ⟨kinds, hkinds, -⟩ := h.shape
  simp [operandShape, hop, hearly] at hkinds

/-! ### The shading language -/

namespace Glsl

open BodyM

/-- Whether a statement has an effect by itself. Opening and closing blocks has none, and a held
result can be seen only by what is stored of it. -/
def Statement.acts : Statement → Bool
  | .hold _ _ | .openBlock | .closeBlock | .openIf _ | .orElse | .openFor _ _ => false
  | _ => true

def Statement.Tests (p : Source) (name : String) (st : Statement) : Prop :=
  ∃ c target value, st = .assignIf (Scope.inverted p.modifier
    (.select (.register p.reg name) [p.swizzle.get c])) (.select target [c]) value

variable {b b' : BodyState} {e : Expr}

theorem exists_lines_storeHeld (target : Expr) (name : String) (cs : List Component)
    (b : BodyState) :
    ∃ new, (b.storeHeld target (.register p.reg name) p cs).lines = new ++ b.lines ∧
      ∀ n st, .inside n st ∈ new → st.Tests p name := by
  induction cs generalizing b with
  | nil => exact ⟨[], rfl, nofun⟩
  | cons c cs ih =>
    obtain ⟨new, hlines, htests⟩ := ih (b.write (.assignIf (Scope.inverted p.modifier
      (.select (.register p.reg name) [p.swizzle.get c])) (.select target [c])
      (.select (.name heldName) [c])))
    refine ⟨new ++ [_], hlines.trans (append_cons _ _ _), fun n st hst => ?_⟩
    rcases mem_append.mp hst with hst | hst
    · exact htests n st hst
    · cases mem_singleton.mp hst
      exact ⟨c, target, _, rfl⟩

theorem exists_tests_of_assign (hp : i.predicate = some p)
    (h : (assign l i e).run.run b = (.ok (), b')) :
    ∃ name new, (b.scope l).registerText p.reg = .ok name ∧ b'.lines = new ++ b.lines ∧
      ∀ n st, .inside n st ∈ new → st.acts = true → st.Tests p name := by
  obtain ⟨d, -, h⟩ := run_inScope_bind.mp h
  obtain ⟨target, -, h⟩ := run_inScope_bind.mp h
  rw [hp] at h
  obtain ⟨predicate, hpredicate, h⟩ := run_inScope_bind.mp h
  obtain ⟨name, hname, hpredicate⟩ := bind_eq_ok.mp hpredicate
  obtain rfl := Except.ok.inj hpredicate
  obtain rfl := congrArg Prod.snd h
  -- The stores stand between the lines that open the block and hold the result, and its end.
  obtain ⟨new, hlines, htests⟩ := exists_lines_storeHeld (p := p) target name d.mask.components _
  let first := [Line.inside (b.indent + 1) (.hold d.reg.file.valueKind (assigned d i.result e)),
    .inside b.indent .openBlock]
  refine ⟨name, .inside _ .closeBlock :: (new ++ first), hname,
    congrArg (cons _) (hlines.trans (append_assoc new first b.lines).symm), ?_⟩
  intro n st hst hacts
  rcases mem_cons.mp hst with heq | hst
  · cases heq
    cases hacts
  rcases mem_append.mp hst with hst | hst
  · exact htests n st hst
  · rcases mem_pair.mp hst with heq | heq <;>
    · cases heq
      cases hacts

/-- Other instructions are written as if they had no predicate. -/
theorem instruction_always (h : i.opcode.assigns = false) :
    instruction l i.always = instruction l i := by
  obtain ⟨index, position, opcode⟩ := i
  cases opcode <;> first | (cases h; done) | rfl

theorem instruction_of_assigns (h : i.opcode.assigns = true) :
    instruction l i = inScope l (·.value i) >>= assign l i := by
  cases hop : i.opcode <;> rw [hop] at h <;>
    first | (cases h; done) | simp only [instruction, hop]

end Glsl

/-! ### Assembly -/

namespace Assembly

theorem refuses_bind {α β : Type} {m : LineM α} {f : α → LineM β}
    (hf : ∀ a, Writes (f a) fun _ _ => False) : Writes (m >>= f) fun _ _ => False := by
  intro lines b lines' hrun
  obtain ⟨a, middle, -, hrun⟩ := run_bind_eq_ok.mp hrun
  exact (hf a middle b lines' hrun).elim fun _ h => h.2.elim

/-- The instructions whose lines are written without a look at their predicate. -/
def Unguarded (i : Instruction) : Prop :=
  i.opcode = .texKill ∨ i.opcode = .mova ∨
    i.opcode = .mov ∧ i.dst?.map (·.reg.file) = some .addr

/-- Of the predicated instructions, only these are written. -/
theorem refuses_writeInstruction (hp : i.predicate = some p)
    (hearly : l.version.isEarlyPixel = false) (hcoord : i.opcode ≠ .texCoord)
    (hassigns : i.opcode.assigns = true) (hguarded : ¬Unguarded i) :
    Writes (writeInstruction l i) fun _ _ => False := by
  have hstore (op : Operation) (os : List Operand) : Writes (store l i op os) fun _ _ => False :=
    (writes_store op os).mono fun _ _ ⟨hnone, _⟩ => absurd (hp.symm.trans hnone) nofun
  unfold writeInstruction
  split
  · rw [if_neg fun h => hguarded (Or.inr (Or.inr h))]
    exact refuses_bind fun _ => hstore _ _
  · exact refuses_bind fun _ => hstore _ _
  · unfold Unguarded at hguarded
    unfold expanded
    cases hop : i.opcode <;> rw [hop] at hassigns hcoord hguarded <;> dsimp only
    case texCoord => exact absurd rfl hcoord
    case mova => simp at hguarded
    all_goals
      first
      | (cases hassigns; done)
      | exact writes_throw _
      | simp only [interpolate, multiply, sign, normalize, sineCosine, choose, chooseAboveHalf,
          twoProductAdd, derivative, hearly, Bool.false_eq_true, if_false, load, loadLevel,
          loadGradient, bump, loadAt, padRow, lastRow]
        repeat' first
          | exact hstore _ _
          | exact writes_throw _
          | refine refuses_bind fun _ => ?_
          | split

theorem writes_nothing (hassigns : i.opcode.assigns = false) (hkill : i.opcode ≠ .texKill) :
    Writes (writeInstruction l i) fun _ new => new = [] := by
  unfold writeInstruction expanded
  cases hop : i.opcode <;> rw [hop] at hassigns hkill
  all_goals
    first
    | (cases hassigns; done)
    | exact absurd rfl hkill
    | exact writes_pure rfl
    | exact writes_throw _

/-- The lines of such an instruction, with or without its predicate. -/
theorem writes_unguarded (h : Unguarded i) :
    Writes (writeInstruction l i) (fun _ new => new ≠ []) ∧
      writeInstruction l i.always = writeInstruction l i := by
  have hsource {f : Value → LineM Unit} (hf : ∀ v, Writes (f v) fun _ new => new ≠ []) :
      Writes (sourceAt l i 0 >>= f) fun _ new => new ≠ [] :=
    (writes_sourceAt 0).bind fun v _ _ => (hf v).mono fun _ _ hnew =>
      append_ne_nil_of_right_ne_nil _ hnew
  have hline {line : Line} : Writes (modify (· ++ [line])) fun _ new => new ≠ [] :=
    writes_line (cons_ne_nil _ _)
  rcases h with hop | hop | ⟨hop, hdst⟩
  · have hkill : ∀ j : Instruction, j.opcode = .texKill → writeInstruction l j = kill l j :=
      fun j hj => by simp [writeInstruction, hj, vectorOperation?, scalarOperation?, expanded]
    rw [hkill i hop, hkill i.always hop]
    refine ⟨?_, rfl⟩
    unfold kill
    cases i.dst? with
    | none => exact writes_throw _
    | some d => exact writes_liftM_bind fun p _ => hline
  · have hround : ∀ j : Instruction, j.opcode = .mova → writeInstruction l j = roundAddress l j :=
      fun j hj => by simp [writeInstruction, hj, vectorOperation?, scalarOperation?, expanded]
    rw [hround i hop, hround i.always hop]
    refine ⟨hsource fun v => writes_liftM_bind fun d _ => ?_, rfl⟩
    split_ifs
    · exact hline
    · exact writes_emit_bind (writes_line (cons_ne_nil _ _))
  · have hset : ∀ j : Instruction, j.opcode = .mov → j.dst?.map (·.reg.file) = some .addr →
        writeInstruction l j = setAddress l j :=
      fun j hj hd => by simp [writeInstruction, hj, vectorOperation?, hd]
    rw [hset i hop hdst, hset i.always hop hdst]
    exact ⟨hsource fun v => writes_liftM_bind fun d _ => hline, rfl⟩

end Assembly

/-! ### Whole shaders -/

/-- What a predicate does, in a shader that is lowered without faults:

* in the shading language, an instruction that assigns a value does so under its predicate alone,
  and every other one is written as if it had none;
* in assembly, a predicated instruction writes something exactly if it is a kill or sets an address
  register, and then as if it had no predicate. -/
theorem Shader.predicates_kept {tokens : List Word} {s : Shader} (h : ofTokens tokens = .ok s)
    (hok : (LoweredShader.ofShader profile options s).isOk = true) (hi : i ∈ s.instructions)
    (hp : i.predicate = some p) :
    let l := s.layout profile options (Annexes.ofShader s).symbols
    (profile.isGlsl = true → ∃ before after b' new, s.instructions = before ++ i :: after ∧
      (Glsl.BodyM.instruction l i).run.run (Glsl.bodyAfter l before) = (.ok (), b') ∧
      b'.lines = new ++ (Glsl.bodyAfter l before).lines ∧
      b'.lines <:+ (Glsl.writeBody l s.instructions).body.lines ∧
      (i.opcode.assigns = true → ∃ name,
        ((Glsl.bodyAfter l before).scope l).registerText p.reg = .ok name ∧
        ∀ n st, .inside n st ∈ new → st.acts = true → st.Tests p name) ∧
      (i.opcode.assigns = false →
        (Glsl.BodyM.instruction l i.always).run.run (Glsl.bodyAfter l before) = (.ok (), b'))) ∧
    (profile.isGlsl = false → ∃ lines, Assembly.Emits l s.instructions i lines ∧
      (lines ≠ [] ↔ Assembly.Unguarded i) ∧
      (lines ≠ [] → Assembly.instructionLines l i.always = .ok lines)) := by
  intro l
  refine ⟨fun hglsl => ?_, fun hglsl => ?_⟩
  · obtain ⟨before, after, b', his, hrun, hlines⟩ :=
      Glsl.exists_run_of_writeBody (Glsl.faults_eq_nil_of_isOk hglsl hok) hi
    by_cases hassigns : i.opcode.assigns = true
    · have hrun' := hrun
      rw [Glsl.instruction_of_assigns hassigns] at hrun'
      obtain ⟨e, -, hrun'⟩ := Glsl.run_inScope_bind.mp hrun'
      obtain ⟨name, new, hname, hnew, htests⟩ := Glsl.exists_tests_of_assign hp hrun'
      exact ⟨before, after, b', new, his, hrun, hnew, hlines, fun _ => ⟨name, hname, htests⟩,
        fun hnot => absurd (hassigns.symm.trans hnot) (by decide)⟩
    · have hgrows := Glsl.grows_instruction l i (Glsl.bodyAfter l before)
      rw [hrun] at hgrows
      obtain ⟨new, hnew⟩ := hgrows
      refine ⟨before, after, b', new, his, hrun, hnew.symm, hlines, fun h => absurd h hassigns,
        fun hnot => ?_⟩
      rw [Glsl.instruction_always hnot]
      exact hrun
  · obtain ⟨lines, hlines⟩ := Assembly.exists_emits hglsl hok hi
    refine ⟨lines, hlines, ?_⟩
    by_cases hunguarded : Assembly.Unguarded i
    · obtain ⟨hwrites, halways⟩ := Assembly.writes_unguarded (l := l) hunguarded
      refine ⟨iff_of_true (hwrites.instructionLines hlines.1) hunguarded, fun _ => ?_⟩
      rw [Assembly.instructionLines, halways]
      exact hlines.1
    · have hnil : lines = [] := by
        by_cases hassigns : i.opcode.assigns = true
        · have hmarker (op : Opcode) (hop : op.assigns = false) : i.opcode ≠ op :=
            fun heq => absurd (hassigns.symm.trans (heq ▸ hop)) (by decide)
          obtain ⟨hearly, hcoord⟩ := (checked_of_ofTokens h i hi (hmarker .comment rfl)
            (hmarker .stop rfl) (hmarker .phase rfl)).late hp
          exact ((Assembly.refuses_writeInstruction hp hearly hcoord hassigns
            hunguarded).instructionLines hlines.1).elim
        · exact (Assembly.writes_nothing (Bool.not_eq_true _ ▸ hassigns) fun hkill =>
            hunguarded (Or.inl hkill)).instructionLines hlines.1
      exact ⟨iff_of_false (not_not.mpr hnil) hunguarded, fun hne => absurd hnil hne⟩

def killTokens : List Word := [0xFFFF0201, 0x12000041, 0x800F0000, 0xB0E41000, 0x0000FFFF]

/-- The kill is written in assembly, and the predicate is not heeded. -/
theorem Shader.predicates_kept_kill : ∃ s i lines, ofTokens killTokens = .ok s ∧
    i ∈ s.instructions ∧ i.predicate.isSome = true ∧ lines ≠ [] ∧
    Assembly.Emits (s.layout .arb1 default (Annexes.ofShader s).symbols) s.instructions i lines := by
  obtain ⟨-, hassembly⟩ := @predicates_kept _ _ .arb1 default killTokens _ rfl (by decide +kernel)
    (.head _) rfl
  obtain ⟨lines, hlines, hne, -⟩ := hassembly rfl
  exact ⟨_, _, lines, rfl, .head _, rfl, hne.mpr (Or.inl rfl), hlines⟩

end ShaderPipeline
