import ShaderPipeline.Proofs.Device.Courses

/-!
# The programs in use

The driver uses the program, or the two assembly programs, that it was told to use last. A device
tells it when the binding changes and leaves it alone otherwise, so that what is in use is what is
bound. Assembly is the exception: a text is handed to the program at its target, and whoever hands
one over leaves its name there, or nothing if the driver refuses the text. It stays there until the
binding changes.
-/

namespace ShaderPipeline.Device

open List

/-! ### What is in use -/

def usedProgram? : Call → Option Nat
  | .useProgram n => some n
  | _ => none

variable (stage : Stage)

def boundAssembly? : Call → Option Nat
  | .bindProgramArb target n => if target = programTarget stage then some n else none
  | _ => none

/-- The program in use after calls; zero for none. -/
def programInUse (cs : List Call) : Nat := (cs.filterMap usedProgram?).getLast?.getD 0

/-- The assembly program in use for a stage after calls; zero for none. -/
def assemblyInUse (cs : List Call) : Nat :=
  (cs.filterMap (boundAssembly? stage)).getLast?.getD 0

theorem programInUse_append (cs cs' : List Call) :
    programInUse (cs ++ cs') = (cs'.filterMap usedProgram?).getLast?.getD (programInUse cs) := by
  rw [programInUse, filterMap_append, getLast?_append]
  cases (cs'.filterMap usedProgram?).getLast? <;> rfl

theorem assemblyInUse_append (cs cs' : List Call) :
    assemblyInUse stage (cs ++ cs') =
      (cs'.filterMap (boundAssembly? stage)).getLast?.getD (assemblyInUse stage cs) := by
  rw [assemblyInUse, filterMap_append, getLast?_append]
  cases (cs'.filterMap (boundAssembly? stage)).getLast? <;> rfl

def ProgramNames.assembly (names : ProgramNames) : Stage → Nat
  | .vertex => names.vertex
  | .pixel => names.pixel

/-! ### Texts -/

/-- A text that was handed to the driver for a new assembly program. -/
structure Attempt where
  name : Nat
  text : String
  refused : Bool

def Call.targets : Call → Bool
  | .bindProgramArb target _ | .programStringArb target _ => target == programTarget stage
  | _ => false

namespace Attempt

def calls (a : Attempt) (stage : Stage) : List Call :=
  [.bindProgramArb (programTarget stage) a.name, .programStringArb (programTarget stage) a.text] ++
    if a.refused then [.bindProgramArb (programTarget stage) 0] else []

def leaves (a : Attempt) : Nat := if a.refused then 0 else a.name

/-- What is in use after attempts, from what was in use before. -/
def inUse (attempts : List Attempt) (before : Nat) : Nat :=
  (attempts.getLast?.map leaves).getD before

theorem inUse_append (attempts made : List Attempt) (before : Nat) :
    inUse (attempts ++ made) before = inUse made (inUse attempts before) := by
  unfold inUse
  rw [getLast?_append]
  cases made.getLast? <;> rfl

theorem bound_calls (a : Attempt) (stage : Stage) :
    ((a.calls stage).filterMap (boundAssembly? stage)).getLast? = some a.leaves := by
  unfold calls leaves
  cases a.refused <;> simp [boundAssembly?, filterMap_cons]

end Attempt

/-- Calls at a target that come from attempts leave what the last one leaves. -/
theorem bound_of_attempts {stage : Stage} {cs : List Call} {attempts : List Attempt}
    (h : cs.filter (·.targets stage) = attempts.flatMap (·.calls stage)) :
    (cs.filterMap (boundAssembly? stage)).getLast? = attempts.getLast?.map Attempt.leaves := by
  have hfilter : cs.filterMap (boundAssembly? stage) =
      (cs.filter (·.targets stage)).filterMap (boundAssembly? stage) := by
    rw [filterMap_filter]
    congr 1
    funext c
    cases c <;> simp [boundAssembly?, Call.targets]
  rw [hfilter, h]
  rcases eq_nil_or_concat attempts with rfl | ⟨before, a, rfl⟩
  · rfl
  · rw [concat_eq_append, flatMap_append, flatMap_cons, flatMap_nil, append_nil, filterMap_append,
      getLast?_append, a.bound_calls, getLast?_concat, Option.map_some, Option.some_or]

theorem untargeted_of_about {cs : List Call} (h : About [.object, .value, .drawing] cs) :
    cs.filterMap usedProgram? = [] ∧ ∀ stage, cs.filter (·.targets stage) = [] := by
  have hother := h.subject_ne (x := .binding) (by decide)
  refine ⟨?_, fun stage => ?_⟩
  · rw [filterMap_eq_nil_iff]
    intro c hc
    cases c <;> first | rfl | exact absurd rfl (hother _ hc)
  · rw [filter_eq_nil_iff]
    intro c hc
    cases c <;> first | exact Bool.false_ne_true | exact absurd rfl (hother _ hc)

/-! ### Steps -/

def InUse (d : Device) : Prop :=
  (d.profile.isGlsl = true → programInUse d.calls.toList = (namesOf d.bound).program) ∧
    (d.profile.isGlsl = false →
      ∀ stage, assemblyInUse stage d.calls.toList = (namesOf d.bound).assembly stage)

/-- What a step does to the programs in use. If the binding stays, programs are left in use, and at
the targets there are only some attempts. If it changes, what is bound is put in use. -/
structure Binds (attempts : Stage → List Attempt) (d d' : Device) : Prop where
  profile : d'.profile = d.profile
  kept : sameProgram d'.bound d.bound = true → d'.bound = d.bound ∧
    ∃ cs, d'.calls.toList = d.calls.toList ++ cs ∧
      (d.profile.isGlsl = true → (cs.filterMap usedProgram?).getLast?.getD
        (namesOf d.bound).program = (namesOf d.bound).program) ∧
      (d.profile.isGlsl = false →
        ∀ stage, cs.filter (·.targets stage) = (attempts stage).flatMap (·.calls stage))
  changed : sameProgram d'.bound d.bound = false → InUse d'

/-- A step that has nothing to do with the programs in use. -/
theorem InUse.talks {d d' : Device} (hd : InUse d) (h : Talks [.object, .value, .drawing] d d') :
    InUse d' := by
  obtain ⟨cs, hcs, habout⟩ := h.calls
  obtain ⟨huse, htargets⟩ := untargeted_of_about habout
  refine ⟨fun hg => ?_, fun hg stage => ?_⟩
  · rw [hcs, programInUse_append, huse, h.bound]
    exact hd.1 (h.profile ▸ hg)
  · have hnone : cs.filter (·.targets stage) = ([] : List Attempt).flatMap (·.calls stage) :=
      htargets stage
    rw [hcs, assemblyInUse_append, bound_of_attempts hnone, h.bound]
    exact hd.2 (h.profile ▸ hg) stage

namespace Binds

variable {attempts : Stage → List Attempt} {d d₁ d₂ : Device}

/-- A step that changes no binding. -/
theorem of_calls {cs : List Call} (hprofile : d₁.profile = d.profile) (hbound : d₁.bound = d.bound)
    (hcalls : d₁.calls.toList = d.calls.toList ++ cs)
    (hglsl : d.profile.isGlsl = true → (cs.filterMap usedProgram?).getLast?.getD
      (namesOf d.bound).program = (namesOf d.bound).program)
    (hassembly : d.profile.isGlsl = false →
      ∀ stage, cs.filter (·.targets stage) = (attempts stage).flatMap (·.calls stage)) :
    Binds attempts d d₁ where
  profile := hprofile
  kept _ := ⟨hbound, cs, hcalls, hglsl, hassembly⟩
  changed hother := by
    rw [hbound, sameProgram_self] at hother
    exact absurd hother (by decide)

theorem of_talks (h : Talks [.object, .value, .drawing] d d₁) : Binds (fun _ => []) d d₁ := by
  obtain ⟨cs, hcs, habout⟩ := h.calls
  obtain ⟨huse, htargets⟩ := untargeted_of_about habout
  refine .of_calls h.profile h.bound hcs (fun _ => ?_) fun _ stage => htargets stage
  rw [huse]
  rfl

/-- A step after steps that changed no binding and made no attempt. -/
theorem after (h : Binds (fun _ => []) d d₁) (hbound : d₁.bound = d.bound)
    (h' : Binds attempts d₁ d₂) : Binds attempts d d₂ where
  profile := h'.profile.trans h.profile
  kept hsame := by
    obtain ⟨-, cs, hcs, hglsl, hassembly⟩ := h.kept (hbound ▸ sameProgram_self _)
    obtain ⟨hbound', cs', hcs', hglsl', hassembly'⟩ := h'.kept (hbound ▸ hsame)
    refine ⟨hbound'.trans hbound, cs ++ cs', by rw [hcs', hcs, append_assoc], fun hg => ?_,
      fun hg stage => ?_⟩
    · have hlast := hglsl' (h.profile ▸ hg)
      rw [hbound] at hlast
      rw [filterMap_append, getLast?_append]
      cases hcs' : (cs'.filterMap usedProgram?).getLast? with
      | none => exact hglsl hg
      | some n => simpa [hcs'] using hlast
    · rw [filter_append, hassembly hg, hassembly' (h.profile ▸ hg)]
      rfl
  changed hother := h'.changed (hbound ▸ hother)

end Binds

section Steps

variable (d : Device) (p : Option LinkedProgram) (vertex pixel : Option CompiledShader)
  (names : ProgramNames) (code : LoweredShader)

theorem bound_useCalls (stage : Stage) :
    (useCalls false names).filterMap (boundAssembly? stage) = [names.assembly stage] := by
  simp only [useCalls, Bool.false_eq_true, if_false]
  split_ifs <;> cases stage <;> rfl

theorem inUse_say_useCalls :
    InUse { d.say (useCalls d.profile.isGlsl (namesOf p)) with bound := p } := by
  refine ⟨fun hg => ?_, fun hg stage => ?_⟩
  · have hglsl : d.profile.isGlsl = true := hg
    rw [show Array.toList _ = _ from calls_say _ _, programInUse_append, hglsl]
    rfl
  · have hassembly : d.profile.isGlsl = false := hg
    rw [show Array.toList _ = _ from calls_say _ _, assemblyInUse_append, hassembly, bound_useCalls]
    rfl

theorem inUse_switched : InUse (d.switched p) := by
  have hprofile : ∀ q : Option LinkedProgram,
      (if q.isNone then d.cleared.arranged else d.cleared).profile = d.profile := by
    intro q
    split_ifs <;> rfl
  have hused := inUse_say_useCalls (if p.isNone then d.cleared.arranged else d.cleared) p
  rw [hprofile] at hused
  exact hused

theorem binds_bindHeld : Binds (fun _ => []) d ((bindHeld p).run d).2 := by
  rw [bindHeld_run]
  split_ifs with hsame
  · exact .of_talks (.of_eq rfl rfl rfl rfl)
  · refine ⟨(speaks_collected _).profile.trans (grows_switched d p).profile,
      fun hkept => absurd hkept hsame, fun _ => ?_⟩
    exact (inUse_switched d p).talks (.collected (.of_eq rfl rfl rfl rfl))

theorem binds_bind : Binds (fun _ => []) d ((bind p).run d).2 := by
  rw [bind_run]
  have hheld : Binds (fun _ => []) d (d.withStore (d.store.holdProgram? p)) :=
    .of_talks (.of_eq rfl rfl rfl rfl)
  exact hheld.after rfl (binds_bindHeld _ p)

theorem used_setupCalls (shaders : List CompiledShader) :
    ((setupCalls d names shaders).filterMap usedProgram?).getLast?.getD
      (namesOf d.bound).program = (namesOf d.bound).program := by
  unfold setupCalls
  split_ifs
  · rw [filterMap_append, getLast?_append]
    rfl
  · rfl

theorem binds_link : Binds (fun _ => []) d ((link vertex pixel).run.run d).2 := by
  rcases link_cases vertex pixel d with ⟨-, -, hrun⟩ | ⟨-, log, -, hrun⟩ | ⟨name, d', hjoined, hrun⟩
  · rw [hrun]
    exact .of_talks (.of_eq rfl rfl rfl rfl)
  · rw [hrun]
    refine .of_talks ⟨rfl, rfl, fun _ => rfl, _, calls_say _ _,
      .append ((about_createCalls _ _).mono ?_) ?_⟩
    · simp
    · simp [About, Call.subject]
  · have hjoin := speaks_joined d vertex pixel
    rw [hjoined] at hjoin
    refine Binds.after (.of_talks (.of_speaks hjoin)) hjoin.bound ?_
    rcases hrun with ⟨e, hrun⟩ | ⟨attributes, hrun⟩
    · rw [hrun]
      exact .of_talks (.of_eq rfl rfl rfl rfl)
    · rw [hrun]
      refine .of_calls rfl rfl (calls_say _ _) (fun _ => used_setupCalls d' _ _) fun hg stage => ?_
      rw [setupCalls, hg]
      rfl

theorem binds_bindShaders : Binds (fun _ => []) d ((bindShaders vertex pixel).run.run d).2 := by
  have hlink := binds_link d vertex pixel
  have hbound := (speaks_link d vertex pixel).bound
  refine bindShaders_induct (binds_bindHeld d none) (fun p _ => binds_bind d (some p))
    (fun e d' hrun => ?_) fun p d' hrun => ?_ <;> rw [hrun] at hlink hbound
  · exact hlink
  · have hcached : Binds (fun _ => []) d { d' with
        linkCache := d'.linkCache ++ [((nameOf vertex, nameOf pixel), p)] } :=
      hlink.after hbound (.of_talks (.of_eq rfl rfl rfl rfl))
    exact hcached.after hbound (binds_bind _ (some p))

theorem binds_source {d' : Device} (stage : Stage) (n : Nat) (refused : Bool)
    (hprofile : d'.profile = d.profile) (hbound : d'.bound = d.bound)
    (hcalls : d'.calls = (d.say (sourceCalls d.profile.isGlsl code stage n ++ if refused then refusalCalls d.profile.isGlsl stage n else [])).calls) :
    Binds (fun s => if s = stage then [⟨n, code.output, refused⟩] else []) d d' := by
  refine .of_calls hprofile hbound (by rw [hcalls, calls_say]) (fun hg => ?_) fun hg s => ?_
  · rw [hg]
    cases refused <;> rfl
  · rw [hg]
    cases refused <;> cases s <;> cases stage <;> rfl

theorem binds_compileLowered :
    ∃ attempts, Binds attempts d ((compileLowered code).run.run d).2 := by
  have hcollected : Binds (fun _ => []) d d.collected :=
    .of_talks (.collected (.of_eq rfl rfl rfl rfl))
  rcases compileLowered_cases code d with ⟨e, -, hrun⟩ | ⟨stage, -, -, ⟨e, -, hrun⟩ | ⟨-, hrun⟩⟩
  · rw [hrun]
    exact ⟨_, hcollected.after rfl (.of_talks (.of_eq rfl rfl rfl rfl))⟩
  · rw [hrun]
    exact ⟨_, hcollected.after rfl (binds_source _ code stage _ true rfl rfl rfl)⟩
  · rw [hrun]
    refine ⟨_, hcollected.after rfl
      (binds_source _ code stage d.collected.nextName false rfl rfl ?_)⟩
    rw [if_neg Bool.false_ne_true, append_nil]
    rfl

theorem binds_compile (bytes : Bytes) (options : Options) :
    ∃ attempts, Binds attempts d ((compile bytes options).run.run d).2 := by
  rw [compile_run]
  obtain ⟨attempts, hlowered⟩ := binds_compileLowered
    { d with cache := (d.cache.get d.profile options bytes).2.2 }
    (d.cache.get d.profile options bytes).2.1
  exact ⟨attempts, ⟨hlowered.profile, hlowered.kept, hlowered.changed⟩⟩

end Steps

/-! ### Runs -/

def Request.compiles : Request → Bool
  | .compile .. | .compileLowered .. => true
  | _ => false

namespace Client

/-- Only compiling makes attempts. -/
theorem binds_perform (c : Client) (r : Request) :
    ∃ attempts, Binds attempts c.device (c.perform r).device ∧
      (r.compiles = false → attempts = fun _ => []) := by
  have hother : Binds (fun _ => []) c.device (c.perform r).device →
      ∃ attempts, Binds attempts c.device (c.perform r).device ∧
        (r.compiles = false → attempts = fun _ => []) :=
    fun h => ⟨_, h, fun _ => rfl⟩
  cases hr : r.isWrite with
  | true =>
    obtain ⟨files, hperform⟩ := c.perform_write r hr
    refine hother ?_
    rw [hperform]
    exact .of_talks (.of_eq rfl rfl rfl rfl)
  | false =>
    cases hbinds : r.rebinds with
    | false =>
      have hspeaks := c.speaks_perform r hr hbinds
      by_cases hbinding : .binding ∈ r.subjects
      · cases r with
        | compile bytes options =>
          obtain ⟨attempts, hbinds⟩ := binds_compile c.device bytes options
          refine ⟨attempts, ?_, fun h => absurd h (by simp [Request.compiles])⟩
          simpa only [perform, device_keepShader] using hbinds
        | compileLowered code =>
          obtain ⟨attempts, hbinds⟩ := binds_compileLowered c.device code
          refine ⟨attempts, ?_, fun h => absurd h (by simp [Request.compiles])⟩
          simpa only [perform, device_keepShader] using hbinds
        | link vertex pixel =>
          refine hother ?_
          simp only [perform, device_keepProgram]
          exact binds_link _ _ _
        | _ => simp [Request.subjects] at hbinding
      · have hstep : Talks [.object, .value, .drawing] _ _ :=
          .of_speaks hspeaks fun x hx => by cases x <;> simp_all
        exact hother (.of_talks ⟨hstep.profile, hstep.bound, hstep.drawState, hstep.calls⟩)
    | true =>
      cases r with
      | bind p => exact hother (binds_bind _ p)
      | bindShaders vertex pixel => exact hother (binds_bindShaders _ _ _)
      | deleteShader s =>
        refine hother ?_
        simp only [perform, deleteShader_run]
        exact .of_talks (.collected (.of_eq rfl rfl rfl rfl))
      | _ => exact absurd hbinds Bool.false_ne_true

/-- What is in use is what is bound, except for the attempts since the binding last changed. -/
theorem BoundSince.inUse {c₀ m c : Client} (hrun : BoundSince c₀ m c) (h : InUse c₀.device) :
    (c.device.profile.isGlsl = true →
      programInUse c.device.calls.toList = (namesOf c.device.bound).program) ∧
    (c.device.profile.isGlsl = false → ∀ stage, ∃ attempts : List Attempt,
      (callsSince m.device c.device).filter (·.targets stage) =
        attempts.flatMap (·.calls stage) ∧
      assemblyInUse stage c.device.calls.toList =
        Attempt.inUse attempts ((namesOf c.device.bound).assembly stage)) := by
  induction hrun with
  | start => exact ⟨h.1, fun hg stage => ⟨[], by rw [callsSince_self]; rfl, h.2 hg stage⟩⟩
  | keep before r _ hkept ih =>
    obtain ⟨made, hbinds, -⟩ := binds_perform _ r
    obtain ⟨hbound, cs, hcs, hglsl, hassembly⟩ := hbinds.kept hkept
    rw [hbinds.profile, hbound, hcs, before.callsSince_perform hcs]
    refine ⟨fun hg => ?_, fun hg stage => ?_⟩
    · rw [programInUse_append, ih.1 hg, hglsl hg]
    · obtain ⟨attempts, hattempts, huse⟩ := ih.2 hg stage
      refine ⟨attempts ++ made stage, ?_, ?_⟩
      · rw [filter_append, flatMap_append, hattempts, hassembly hg]
      · rw [assemblyInUse_append, bound_of_attempts (hassembly hg stage), huse,
          Attempt.inUse_append]
        rfl
  | change _ r _ hchanged ih =>
    obtain ⟨made, hbinds, -⟩ := binds_perform _ r
    have huse := hbinds.changed (by simpa [KeepsBound] using hchanged)
    exact ⟨huse.1, fun hg stage => ⟨[], by rw [callsSince_self]; rfl, huse.2 hg stage⟩⟩
  | answer _ _ ih => exact ih

/-- The programs in use, along every course. In the shading language what is bound is in use. In
assembly, what is in use for a stage is the bound one's, unless texts were handed over since the
binding last changed: then it is what the last of these has left. Only compiling hands over texts;
all other requests that keep the binding leave alone what is in use. -/
theorem in_use_since_binding {driver : Driver} {config : Config} {d : Device} {m c : Client}
    (hcreate : Device.create driver config = .ok d) (hrun : BoundSince (.new d) m c) :
    (config.profile.isGlsl = true →
      programInUse c.device.calls.toList = (namesOf c.device.bound).program) ∧
    (config.profile.isGlsl = false → ∀ stage,
      (∃ attempts : List Attempt,
        (callsSince m.device c.device).filter (·.targets stage) =
          attempts.flatMap (·.calls stage) ∧
        assemblyInUse stage c.device.calls.toList =
          Attempt.inUse attempts ((namesOf c.device.bound).assembly stage)) ∧
      ∀ r, c.Allows r → c.KeepsBound r → r.compiles = false →
        assemblyInUse stage (c.perform r).device.calls.toList =
          assemblyInUse stage c.device.calls.toList) := by
  have hnew : InUse d := by
    obtain rfl := eq_of_create hcreate
    exact inUse_say_useCalls (blank driver config) none
  have hprofile : c.device.profile = config.profile := by
    obtain rfl := eq_of_create hcreate
    exact hrun.profile
  obtain ⟨hglsl, hassembly⟩ := hrun.inUse hnew
  rw [hprofile] at hglsl hassembly
  refine ⟨hglsl, fun hg stage => ⟨hassembly hg stage, fun r _ hkept hr => ?_⟩⟩
  obtain ⟨made, hbinds, hmade⟩ := c.binds_perform r
  obtain ⟨-, cs, hcs, -, htargets⟩ := hbinds.kept hkept
  have hnone := bound_of_attempts (htargets (hprofile ▸ hg) stage)
  rw [hmade hr] at hnone
  rw [hcs, assemblyInUse_append, hnone]
  rfl

end Client

/-! ### A run -/

def assemblyShader : LoweredShader :=
  { LoweredShader.blank .arb1 default with version := some ⟨.vertex, 1, 1⟩ }

def assemblyCompiled : CompiledShader := ⟨0, 1, .vertex, assemblyShader⟩

/-- The program is bound. Compiling it once more leaves the new one in use for vertices, and still
none for pixels. -/
theorem in_use_since_binding_recompiled : ∃ d m c,
    Device.create .first (.ofProfile .arb1) = .ok d ∧ Client.BoundSince (.new d) m c ∧
    namesOf c.device.bound = ⟨1, 1, 0⟩ ∧
    assemblyInUse .vertex c.device.calls.toList = 2 ∧
    assemblyInUse .pixel c.device.calls.toList = 0 ∧
    ∀ r, c.Allows r → c.KeepsBound r → r.compiles = false →
      assemblyInUse .vertex (c.perform r).device.calls.toList = 2 := by
  obtain ⟨d, hd⟩ : ∃ d, Device.create .first (.ofProfile .arb1) = .ok d := ⟨_, rfl⟩
  let m := ((Client.new d).perform (.compileLowered assemblyShader)).perform
    (.bindShaders (some assemblyCompiled) none)
  let c := m.perform (.compileLowered assemblyShader)
  have hrun : Client.BoundSince (.new d) m c := by
    refine .keep (.change (.keep .start (.compileLowered assemblyShader) trivial ?_)
      (.bindShaders (some assemblyCompiled) none) ⟨fun s hs => ?_, by simp⟩ ?_)
      (.compileLowered assemblyShader) trivial ?_
    · cases hd
      rfl
    · obtain rfl := Option.some.inj hs
      cases hd
      exact List.mem_cons_self
    · cases hd
      exact Bool.false_ne_true
    · cases hd
      rfl
  obtain ⟨hnames, hvertex, hpixel⟩ : namesOf c.device.bound = ⟨1, 1, 0⟩ ∧
      (callsSince m.device c.device).filter (·.targets .vertex) =
        [⟨2, "", false⟩].flatMap (Attempt.calls · .vertex) ∧
      (callsSince m.device c.device).filter (·.targets .pixel) =
        [].flatMap (Attempt.calls · .pixel) := by
    cases hd
    exact ⟨rfl, rfl, rfl⟩
  have huse := (Client.in_use_since_binding hd hrun).2 rfl
  obtain ⟨⟨attempts, hattempts, hlast⟩, hothers⟩ := huse .vertex
  obtain ⟨⟨attempts', hattempts', hlast'⟩, -⟩ := huse .pixel
  have hleft : assemblyInUse .vertex c.device.calls.toList = 2 := by
    rw [hlast, Attempt.inUse, ← bound_of_attempts hattempts, bound_of_attempts hvertex]
    rfl
  refine ⟨d, m, c, hd, hrun, hnames, hleft, ?_, fun r hr hkept hcompiles => ?_⟩
  · rw [hlast', Attempt.inUse, ← bound_of_attempts hattempts', bound_of_attempts hpixel, hnames]
    rfl
  · exact (hothers r hr hkept hcompiles).trans hleft

end ShaderPipeline.Device
