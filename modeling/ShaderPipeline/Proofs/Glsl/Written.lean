import ShaderPipeline.Proofs.Glsl.Evaluation

/-!
# Statements that instructions write

The lines of a body only grow, so what an instruction has written is in the finished shader. An
arithmetic instruction without a predicate writes a single assignment.
-/

namespace ShaderPipeline.Glsl

open BodyM List BodyProgress

/-! ### Lines that stay -/

namespace BodyState

variable (l : Layout) (b : BodyState)

theorem suffix_write (s : Statement) : b.lines <:+ (b.write s).lines := suffix_cons _ _

/-- Statements written one after the other. -/
theorem suffix_foldl {α : Type} {f : BodyState → α → BodyState}
    (hf : ∀ b a, b.lines <:+ (f b a).lines) (as : List α) (b : BodyState) :
    b.lines <:+ (as.foldl f b).lines := by
  induction as generalizing b with
  | nil => exact suffix_rfl
  | cons a as ih => exact (hf b a).trans (ih (f b a))

theorem suffix_epilogue : b.lines <:+ (b.epilogue l).lines :=
  suffix_foldl (fun b _ => b.suffix_write _) _ b

theorem suffix_storeHeld (target predicate : Expr) (p : Source) (cs : List Component) :
    b.lines <:+ (b.storeHeld target predicate p cs).lines :=
  suffix_foldl (fun b _ => b.suffix_write _) cs b

theorem suffix_closeFunction : b.lines <:+ (b.closeFunction l).lines := by
  unfold closeFunction
  split_ifs
  · exact (b.suffix_epilogue l).trans (suffix_cons _ _)
  · exact suffix_cons _ _
  · exact suffix_rfl

end BodyState

/-- A step keeps the lines that are there, whether it stops at a fault or not. -/
def Grows {α : Type} (m : BodyM α) : Prop := ∀ b, b.lines <:+ (m.run.run b).2.lines

section Grows

variable {α β : Type} (l : Layout) (i : Instruction) {f : Scope → Except Fault α}

theorem grows_pure (a : α) : Grows (pure a : BodyM α) := fun _ => suffix_rfl

theorem grows_throw (fault : Fault) : Grows (throw fault : BodyM α) := fun _ => suffix_rfl

theorem grows_modify {f : BodyState → BodyState} (hf : ∀ b, b.lines <:+ (f b).lines) :
    Grows (modify f : BodyM Unit) :=
  hf

theorem Grows.bind {m : BodyM α} {f : α → BodyM β} (hm : Grows m) (hf : ∀ a, Grows (f a)) :
    Grows (m >>= f) := by
  intro b
  have hm' := hm b
  simp only [ExceptT.run_bind, StateT.run_bind]
  rcases hrun : m.run.run b with ⟨fault | a, b'⟩ <;> rw [hrun] at hm'
  · exact hm'
  · exact hm'.trans (hf a b')

theorem run_inScope {l : Layout} (b : BodyState) :
    (inScope l f).run.run b = (f (b.scope l), b) := by
  have hget : (inScope l f).run.run b = (inScope l fun _ => f (b.scope l)).run.run b := rfl
  rw [hget]
  cases f (b.scope l) <;> rfl

theorem grows_inScope (f : Scope → Except Fault α) : Grows (inScope l f) := by
  intro b
  have hsame : ((inScope l f).run.run b).2 = b := congrArg Prod.snd (run_inScope b)
  exact hsame.symm ▸ suffix_rfl

theorem grows_assign (e : Expr) : Grows (assign l i e) := by
  refine (grows_inScope l _).bind fun d => (grows_inScope l _).bind fun target => ?_
  cases i.predicate with
  | some p =>
    refine (grows_inScope l _).bind fun predicate => grows_modify fun b => ?_
    refine List.IsSuffix.trans ?_ (suffix_cons _ _)
    refine List.IsSuffix.trans ?_ (BodyState.suffix_storeHeld _ target predicate p _)
    exact (suffix_cons _ _).trans (suffix_cons _ _)
  | none =>
    by_cases hfull : d.mask.isFull = true
    · rw [if_pos hfull]
      exact grows_modify fun b => b.suffix_write _
    · rw [if_neg hfull]
      exact grows_modify fun b => b.suffix_write _

theorem grows_popLoop : Grows popLoop := fun _ => suffix_rfl

theorem grows_openLoop : Grows (openLoop l i) :=
  (grows_inScope l _).bind fun _ => grows_modify fun _ =>
    ((suffix_cons _ _).trans (suffix_cons _ _)).trans (suffix_cons _ _)

theorem grows_closeLoop : Grows (closeLoop l) := by
  refine grows_popLoop.bind fun innermost => ?_
  split
  · exact grows_modify fun _ =>
      ((suffix_cons _ _).trans (suffix_cons _ _)).trans (suffix_cons _ _)
  · exact grows_throw _

theorem grows_openRep : Grows (openRep l i) :=
  (grows_inScope l _).bind fun _ => grows_modify fun _ => suffix_cons _ _

theorem grows_closeRep : Grows closeRep := by
  refine grows_popLoop.bind fun innermost => ?_
  split
  · exact grows_modify fun _ => suffix_cons _ _
  · exact grows_throw _

theorem grows_ret : Grows (ret l) := by
  refine grows_modify fun b => ?_
  split_ifs
  · exact (b.suffix_epilogue l).trans (suffix_cons _ _)
  · exact suffix_cons _ _
  · exact b.suffix_closeFunction l

theorem grows_inScope_cons {l : Layout} {g : α → BodyState → BodyState}
    {line : α → BodyState → Line} (hg : ∀ a b, (g a b).lines = line a b :: b.lines) :
    Grows (inScope l f >>= fun a => modify (g a)) :=
  (grows_inScope l f).bind fun a => grows_modify fun b => hg a b ▸ suffix_cons _ _

theorem grows_instruction : Grows (instruction l i) := by
  unfold instruction
  split
  -- Markers and declarations write nothing.
  case h_1 | h_2 | h_3 | h_4 | h_5 | h_6 | h_7 | h_8 => exact grows_pure ()
  -- Conditions, breaks and calls write one line.
  case h_9 | h_10 | h_11 | h_19 | h_20 | h_21 => exact grows_inScope_cons fun _ _ => rfl
  case h_12 | h_13 | h_18 => exact grows_modify fun _ => suffix_cons _ _
  case h_14 => exact grows_openLoop l i
  case h_15 => exact grows_closeLoop l
  case h_16 => exact grows_openRep l i
  case h_17 => exact grows_closeRep
  case h_22 => exact (grows_inScope l _).bind fun _ => grows_inScope_cons fun _ _ => rfl
  case h_23 =>
    refine (grows_inScope l _).bind fun _ => grows_modify fun b => ?_
    exact (b.suffix_closeFunction l).trans (suffix_cons _ _)
  case h_24 => exact grows_ret l
  case h_25 => exact (grows_inScope l _).bind fun v => grows_assign l i v

end Grows

/-! ### Whole shaders -/

section Shaders

variable {l : Layout} {i : Instruction} {is : List Instruction} {b b' : BodyState}

theorem suffix_step (p : BodyProgress) (i : Instruction) :
    p.body.lines <:+ (p.step l i).body.lines := by
  have hgrows := grows_instruction l i p.body
  unfold step
  rcases hrun : (instruction l i).run.run p.body with ⟨_ | _, b⟩ <;> rw [hrun] at hgrows <;>
    exact hgrows

theorem suffix_foldl_step (is : List Instruction) (p : BodyProgress) :
    p.body.lines <:+ (is.foldl (step l) p).body.lines := by
  induction is generalizing p with
  | nil => exact suffix_rfl
  | cons i is ih => exact (suffix_step p i).trans (ih _)

theorem run_of_faults_eq_nil {p : BodyProgress} (h : (p.step l i).faults = []) :
    p.faults = [] ∧ (instruction l i).run.run p.body = (.ok (), (p.step l i).body) := by
  unfold step at h ⊢
  rcases hrun : (instruction l i).run.run p.body with ⟨_ | _, b⟩ <;> rw [hrun] at h
  · exact absurd h (cons_ne_nil _ _)
  · exact ⟨h, rfl⟩

theorem exists_run_foldl {p : BodyProgress} (h : (is.foldl (step l) p).faults = []) :
    p.faults = [] ∧ ∀ i ∈ is, ∃ before after b', is = before ++ i :: after ∧
      (instruction l i).run.run (before.foldl (step l) p).body =
        (.ok (), b') ∧
      b'.lines <:+ (is.foldl (step l) p).body.lines := by
  induction is generalizing p with
  | nil => exact ⟨h, fun _ hi => nomatch hi⟩
  | cons i is ih =>
    obtain ⟨hfaults, hrest⟩ := ih h
    obtain ⟨hbefore, hrun⟩ := run_of_faults_eq_nil hfaults
    refine ⟨hbefore, fun j hj => ?_⟩
    rcases mem_cons.mp hj with rfl | hj
    · exact ⟨[], is, _, rfl, hrun, suffix_foldl_step is _⟩
    · obtain ⟨before, after, b', rfl, hrun', hlines⟩ := hrest j hj
      exact ⟨i :: before, after, b', rfl, hrun', hlines⟩

/-- What has been written after the first instructions. -/
def bodyAfter (l : Layout) (before : List Instruction) : BodyState :=
  (before.foldl (BodyProgress.step l) ⟨[], (BodyState.start l).prologue l⟩).body

/-- Every instruction of a shader without faults was written, and what it has written is in the
body. -/
theorem exists_run_of_writeBody (h : (writeBody l is).faults = []) (hi : i ∈ is) :
    ∃ before after b', is = before ++ i :: after ∧
      (instruction l i).run.run (bodyAfter l before) = (.ok (), b') ∧
      b'.lines <:+ (writeBody l is).body.lines := by
  obtain ⟨before, after, b', his, hrun, hlines⟩ := (exists_run_foldl h).2 i hi
  exact ⟨before, after, b', his, hrun, hlines.trans (BodyState.suffix_closeFunction l _)⟩

/-! ### Assignments -/

/-- The value that is assigned: only floats are modified. -/
def assigned (d : Destination) (m : ResultModifier) (value : Expr) : Expr :=
  if d.reg.file.valueKind = .float then resultValue m value else value

theorem run_inScope_bind {α β : Type} {f : Scope → Except Fault α} {g : α → BodyM β} {x : β} :
    (inScope l f >>= g).run.run b = (.ok x, b') ↔
      ∃ a, f (b.scope l) = .ok a ∧ (g a).run.run b = (.ok x, b') := by
  rw [run_run_bind_eq_ok]
  constructor
  · rintro ⟨a, u, hrun, hg⟩
    obtain ⟨ha, rfl⟩ := Prod.mk.inj ((run_inScope b).symm.trans hrun)
    exact ⟨a, ha, hg⟩
  · rintro ⟨a, ha, hg⟩
    exact ⟨a, b, (run_inScope b).trans (congrArg (·, b) ha), hg⟩

/-- Without a predicate, one assignment is written. -/
theorem run_assign {e : Expr} (hpredicate : i.predicate = none)
    (h : (assign l i e).run.run b = (.ok (), b')) :
    ∃ d name, i.needDst = .ok d ∧ b' = b.write (assignment d name (assigned d i.result e)) := by
  obtain ⟨d, hd, h⟩ := run_inScope_bind.mp h
  obtain ⟨target, htarget, h⟩ := run_inScope_bind.mp h
  obtain ⟨name, -, htarget⟩ := bind_eq_ok.mp htarget
  obtain rfl := Except.ok.inj htarget
  refine ⟨d, name, hd, ?_⟩
  rw [hpredicate] at h
  unfold assignment assigned
  by_cases hfull : d.mask.isFull = true
  · rw [if_pos hfull] at h ⊢
    exact (congrArg Prod.snd h).symm
  · rw [if_neg hfull] at h ⊢
    exact (congrArg Prod.snd h).symm

theorem run_instruction_of_produces {n : Nat} (hn : i.opcode.produces? = some n)
    (hpredicate : i.predicate = none) (h : (instruction l i).run.run b = (.ok (), b')) :
    ∃ e d name, (b.scope l).value i = .ok e ∧ i.needDst = .ok d ∧
      b' = b.write (assignment d name (assigned d i.result e)) := by
  have hassign : instruction l i = inScope l (·.value i) >>= assign l i := by
    cases hop : i.opcode <;> rw [hop] at hn <;> cases hn <;> simp [instruction, hop]
  rw [hassign] at h
  obtain ⟨e, he, h⟩ := run_inScope_bind.mp h
  obtain ⟨d, name, hd, hb'⟩ := run_assign hpredicate h
  exact ⟨e, d, name, he, hd, hb'⟩

end Shaders

end ShaderPipeline.Glsl
