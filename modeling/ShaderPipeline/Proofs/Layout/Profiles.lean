import ShaderPipeline.Proofs.Layout.Slots
import ShaderPipeline.Proofs.Lowering.Meaning
import ShaderPipeline.Proofs.Outcomes

/-!
# Surveys for two profiles

The profile is named in a fault of a survey and is not looked at otherwise. So a shader has the same
survey for every profile, whether or not it has faults, and the same layout but for the profile. In
a shader without faults, only float constants are read through relative addresses.
-/

namespace ShaderPipeline

variable {step : Instruction → SurveyM Unit} {is : List Instruction}

namespace Survey

variable {α β : Type}

/-- Two steps leave the same survey, also where they stop, and both stop or come to the same end. -/
def Alike (m m' : SurveyM α) : Prop :=
  ∀ v, (m'.run.run v).2 = (m.run.run v).2 ∧
    (m'.run.run v).1.toOption = (m.run.run v).1.toOption

theorem Alike.refl (m : SurveyM α) : Alike m m := fun _ => ⟨rfl, rfl⟩

theorem Alike.bind {m m' : SurveyM α} {f f' : α → SurveyM β} (hm : Alike m m')
    (hf : ∀ a, Alike (f a) (f' a)) : Alike (m >>= f) (m' >>= f') := by
  intro v
  have hfirst := hm v
  rw [run_bind, run_bind]
  generalize m.run.run v = x, m'.run.run v = y at hfirst ⊢
  obtain ⟨hsurvey, hresult⟩ := hfirst
  rcases x with ⟨_ | a, u⟩ <;> rcases y with ⟨_ | a', u'⟩ <;> cases hsurvey <;> cases hresult
  · exact ⟨rfl, rfl⟩
  · exact hf a u

theorem alike_throw (fault fault' : Fault) : Alike (throw fault : SurveyM α) (throw fault') :=
  fun _ => ⟨rfl, rfl⟩

section Profiles

variable (version : Version) (options : Options) (p q : Profile) (r : RegisterRef)

theorem alike_noteRelative :
    Alike (noteRelative ⟨version, p, options⟩ r) (noteRelative ⟨version, q, options⟩ r) := by
  unfold noteRelative
  cases r.relative with
  | none => exact .refl _
  | some a =>
    -- This fault is all that the profile goes into.
    have hfile : Alike (if r.file ≠ .const then
          throw (.unsupported (.relativeFile r.file) p) else pure () : SurveyM Unit)
        (if r.file ≠ .const then throw (.unsupported (.relativeFile r.file) q) else pure ()) := by
      split_ifs
      · exact alike_throw _ _
      · exact .refl _
    dsimp only
    split
    · exact (Alike.refl _).bind fun _ => hfile
    · exact hfile
    · exact (Alike.refl _).bind fun _ => hfile

theorem alike_noteRead :
    Alike (noteRead ⟨version, p, options⟩ r) (noteRead ⟨version, q, options⟩ r) :=
  (alike_noteRelative version options p q r).bind fun _ => .refl _

theorem alike_noteWrite :
    Alike (noteWrite ⟨version, p, options⟩ r) (noteWrite ⟨version, q, options⟩ r) :=
  (alike_noteRelative version options p q r).bind fun _ => .refl _

theorem alike_noteReads (rs : List RegisterRef) :
    Alike (noteReads ⟨version, p, options⟩ rs) (noteReads ⟨version, q, options⟩ rs) := by
  induction rs with
  | nil => exact .refl _
  | cons r rest ih => exact (alike_noteRead version options p q r).bind fun _ => ih

theorem alike_noteOperands (os : List Operand) :
    Alike (noteOperands ⟨version, p, options⟩ os) (noteOperands ⟨version, q, options⟩ os) := by
  induction os with
  | nil => exact .refl _
  | cons o rest ih =>
    refine Alike.bind ?_ fun _ => ih
    cases o with
    | dst d => exact alike_noteWrite version options p q d.reg
    | src s => exact alike_noteRead version options p q s.reg
    | imm w => exact .refl _

theorem alike_scan (i : Instruction) :
    Alike (scan ⟨version, p, options⟩ i) (scan ⟨version, q, options⟩ i) := by
  unfold scan
  by_cases hdef : i.opcode = .defFloat ∨ i.opcode = .defInt ∨ i.opcode = .defBool
  · simp only [if_pos hdef]
    exact .refl _
  · simp only [if_neg hdef]
    refine (Alike.refl _).bind fun _ => ?_
    by_cases hidle : i.opcode.isDeclaration ∨ i.opcode = .nop ∨ i.opcode = .label
    · simp only [if_pos hidle]
      exact .refl _
    · simp only [if_neg hidle]
      refine (Alike.refl _).bind fun _ => (Alike.refl _).bind fun _ => ?_
      exact (alike_noteReads version options p q _).bind fun _ =>
        (alike_noteOperands version options p q _).bind fun _ =>
          alike_noteReads version options p q _

end Profiles

/-! ### Whole shaders -/

/-- Without faults at the end, there were none before, and every instruction came to its end. -/
theorem exists_run_foldl {x : Progress}
    (h : (is.foldl (fun p i => p.run i (step i)) x).faults = []) :
    x.faults = [] ∧ ∀ i ∈ is, ∃ v v', (step i).run.run v = (.ok (), v') := by
  induction is generalizing x with
  | nil => exact ⟨h, fun _ hi => nomatch hi⟩
  | cons i rest ih =>
    obtain ⟨hfaults, hrest⟩ := ih h
    obtain ⟨hbefore, hrun⟩ := run_of_faults_eq_nil hfaults
    refine ⟨hbefore, fun j hj => ?_⟩
    rcases List.mem_cons.mp hj with rfl | hj
    · exact ⟨_, _, hrun⟩
    · exact hrest j hj

theorem survey_foldl_eq {step' : Instruction → SurveyM Unit}
    (hstep : ∀ i, Alike (step i) (step' i)) (is : List Instruction) {x y : Progress}
    (hxy : y.survey = x.survey) :
    (is.foldl (fun p i => p.run i (step' i)) y).survey =
      (is.foldl (fun p i => p.run i (step i)) x).survey := by
  induction is generalizing x y with
  | nil => exact hxy
  | cons i rest ih =>
    refine ih ?_
    rw [survey_run, survey_run, hxy]
    exact (hstep i x.survey).1

theorem survey_profile (version : Version) (options : Options) (is : List Instruction)
    (p q : Profile) :
    (ofInstructions ⟨version, q, options⟩ is).survey =
      (ofInstructions ⟨version, p, options⟩ is).survey :=
  survey_foldl_eq (alike_scan version options p q) is rfl

/-! ### Relative addresses -/

section Relative

variable {e : Surroundings} {v v' : Survey}

theorem file_of_noteRelative {r : RegisterRef} (h : (noteRelative e r).run.run v = (.ok (), v'))
    (hrelative : r.relative.isSome) : r.file = .const := by
  by_contra hfile
  unfold noteRelative at h
  obtain ⟨a, ha⟩ := Option.isSome_iff_exists.mp hrelative
  rw [ha] at h
  simp only [if_pos (show r.file ≠ .const from hfile)] at h
  split at h
  · obtain ⟨_, _, -, h⟩ := run_run_bind_eq_ok.mp h
    exact nomatch congrArg Prod.fst h
  · exact nomatch congrArg Prod.fst h
  · exact nomatch congrArg Prod.fst h

theorem file_of_noteOperands {os : List Operand} (h : (noteOperands e os).run.run v = (.ok (), v'))
    {src : Source} (hsrc : .src src ∈ os) (hrelative : src.reg.relative.isSome) :
    src.reg.file = .const := by
  induction os generalizing v with
  | nil => cases hsrc
  | cons o rest ih =>
    obtain ⟨_, u, hfirst, hrest⟩ := run_run_bind_eq_ok.mp h
    rcases List.mem_cons.mp hsrc with rfl | hsrc
    · obtain ⟨_, _, hread, -⟩ := run_run_bind_eq_ok.mp hfirst
      exact file_of_noteRelative hread hrelative
    · exact ih hrest hsrc

theorem reachesConstants_of_scan {i : Instruction} (h : (scan e i).run.run v = (.ok (), v'))
    {n : Nat} (hn : i.opcode.produces? = some n) : i.ReachesConstants := by
  have hplain : ¬(i.opcode = .defFloat ∨ i.opcode = .defInt ∨ i.opcode = .defBool) ∧
      ¬(i.opcode.isDeclaration ∨ i.opcode = .nop ∨ i.opcode = .label) := by
    cases hop : i.opcode <;> rw [hop] at hn <;> cases hn <;> decide
  unfold scan at h
  rw [if_neg hplain.1] at h
  obtain ⟨_, _, -, h⟩ := run_run_bind_eq_ok.mp h
  rw [if_neg hplain.2] at h
  obtain ⟨_, _, -, h⟩ := run_run_bind_eq_ok.mp h
  obtain ⟨_, _, -, h⟩ := run_run_bind_eq_ok.mp h
  obtain ⟨_, _, -, h⟩ := run_run_bind_eq_ok.mp h
  obtain ⟨_, _, hoperands, -⟩ := run_run_bind_eq_ok.mp h
  intro src hsrc hrelative
  obtain ⟨o, ho, hsome⟩ := List.mem_filterMap.mp hsrc
  refine file_of_noteOperands hoperands ?_ hrelative
  split at hsome
  · exact Option.some.inj hsome ▸ ho
  · cases hsome

/-- In a shader without faults, only float constants are read through relative addresses. -/
theorem reachesConstants_of_faults_eq_nil (h : (ofInstructions e is).faults = [])
    {i : Instruction} (hi : i ∈ is) {n : Nat} (hn : i.opcode.produces? = some n) :
    i.ReachesConstants := by
  obtain ⟨v, v', hrun⟩ := (exists_run_foldl h).2 i hi
  exact reachesConstants_of_scan hrun hn

end Relative

end Survey

theorem Shader.layout_profile (s : Shader) (options : Options) (symbols : List Symbol)
    (p q : Profile) :
    s.layout q options symbols = { s.layout p options symbols with profile := q } := by
  unfold layout
  rw [Survey.survey_profile s.version options s.instructions p q]
  rfl

end ShaderPipeline
