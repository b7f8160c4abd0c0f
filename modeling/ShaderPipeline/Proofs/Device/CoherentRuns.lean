import ShaderPipeline.Proofs.Device.Coherent
import ShaderPipeline.Proofs.Device.Growth

/-!
# Coherence along runs

The operations of a device are sequences of the steps that `Coherent` has lemmas for, so every
request of a client keeps the invariant, and it holds along every run from a new device on.
-/

namespace ShaderPipeline.Device

open List Device RegisterFiles StageRegisters Store

variable {shaders : List CompiledShader} {q : Option LinkedProgram}
  {vertex pixel : Option CompiledShader} {r : Except DeviceError LinkedProgram} {p : LinkedProgram}
  {files : RegisterFiles}

variable {timely : Prop} {d : Device} {refs : List LinkedProgram}

/-! ### Operations -/

theorem silent_of_about {cs : List Call} (h : About [.drawing] cs) :
    ∀ c ∈ cs, UniformMemory.Silent c := by
  intro c hc
  have hmem := h c hc
  cases c <;> first | exact fun _ => rfl | simp [Call.subject] at hmem

private theorem not_live_of_created {cs all : List Call}
    (hall : all = (d.named.say (createCalls d.nextName shaders)).calls.toList ++ cs)
    (h : FreshPrograms all) : d.nextName ∉ d.memory.live := by
  rw [hall, calls_say] at h
  exact h.of_append.not_live

namespace Coherent

section Steps

variable (h : Coherent timely d refs)

include h

theorem drawStep {d' : Device} (hdraw : DrawStep d d') : Coherent timely d' refs := by
  obtain ⟨cs, hcs, habout⟩ := hdraw.calls
  refine h.quiet ⟨hdraw.driver, hdraw.profile, hdraw.registers, hdraw.generation,
    by rw [hdraw.store]⟩ hdraw.store hdraw.bound fun _ => ?_
  rw [memory, hcs, UniformMemory.replay_append,
    UniformMemory.after_of_silent (silent_of_about habout)]
  rfl

theorem hold? (hq : ∀ p ∈ q, p ∈ refs) :
    Coherent timely (d.withStore (d.store.holdProgram? q)) (q.toList ++ refs) := by
  cases q with
  | none => exact h
  | some p => exact h.hold (hq p rfl)

theorem compileLowered (code : LoweredShader) :
    Coherent timely ((compileLowered code).run.run d).2 refs := by
  have hsource : ∀ stage n, ∀ c ∈ sourceCalls true code stage n, UniformMemory.Silent c := by
    intro stage n c hc
    simp only [sourceCalls, if_true, mem_cons, not_mem_nil, or_false] at hc
    rcases hc with rfl | rfl <;> exact fun _ => rfl
  have hrefusal : ∀ stage n, ∀ c ∈ refusalCalls true stage n, UniformMemory.Silent c := by
    intro stage n c hc
    simp only [refusalCalls, if_true, mem_singleton] at hc
    rw [hc]
    exact fun _ => rfl
  have hnamed : Coherent timely d.collected.named refs :=
    h.collect.quiet ⟨rfl, rfl, rfl, rfl, rfl⟩ rfl rfl fun _ => rfl
  rcases compileLowered_cases code d with ⟨e, -, hrun⟩ | ⟨stage, -, -, ⟨e, -, hrun⟩ | ⟨-, hrun⟩⟩
  · rw [hrun]
    exact h.collect.quiet ⟨rfl, rfl, rfl, rfl, rfl⟩ rfl rfl fun _ => rfl
  · rw [hrun]
    refine (hnamed.say _ fun hg c hc => ?_).quiet ⟨rfl, rfl, rfl, rfl, rfl⟩ rfl rfl fun _ => rfl
    have hglsl : d.profile.isGlsl = true := hg
    rw [hglsl] at hc
    rcases mem_append.mp hc with hc | hc
    · exact hsource _ _ c hc
    · exact hrefusal _ _ c hc
  · rw [hrun]
    refine (hnamed.say _ fun hg c hc => ?_).restore rfl rfl fun _ => Iff.rfl
    have hglsl : d.profile.isGlsl = true := hg
    rw [hglsl] at hc
    exact hsource _ _ c hc

theorem compile (bytes : Bytes) (options : Options) :
    Coherent timely ((compile bytes options).run.run d).2 refs := by
  rw [compile_run]
  refine compileLowered ?_ _
  exact h.quiet ⟨rfl, rfl, rfl, rfl, rfl⟩ rfl rfl fun _ => rfl

private theorem joined (hvertex : ∀ s ∈ vertex, s.stage = .vertex)
    (hpixel : ∀ s ∈ pixel, s.stage = .pixel)
    (hfresh : d.profile.isGlsl = true → d.nextName ∉ d.memory.live) {n : Nat} {e : Device}
    (hjoined : d.joined vertex pixel = (n, e)) (attributes : List (Semantic × Int)) :
    Coherent timely (e.withStore (e.store.addProgram vertex pixel (e.generation - 1)).2)
      ({ e.draft n vertex pixel with attributes } :: refs) := by
  have hfields : Keeps d e ∧ e.store = d.store ∧ e.bound = d.bound := by
    unfold Device.joined at hjoined
    split_ifs at hjoined <;> obtain ⟨rfl, rfl⟩ := Prod.mk.inj hjoined <;>
      exact ⟨⟨rfl, rfl, rfl, rfl, rfl⟩, rfl, rfl⟩
  obtain ⟨hkeep, hstore, hbound⟩ := hfields
  rw [hstore, hkeep.generation]
  refine h.add (q := { e.draft n vertex pixel with attributes }) hkeep hbound
    ((id_draft n).trans (by rw [hstore])) (wellFormed_draft hvertex hpixel n attributes)
    fun hg => ⟨?_, ?_⟩
  · rw [← hkeep.driver]
    exact located_draft (by rw [hkeep.profile, hg]) n attributes
  · rw [Device.joined, if_pos hg] at hjoined
    obtain ⟨rfl, rfl⟩ := Prod.mk.inj hjoined
    exact ⟨hfresh hg, (memory_say _ _).trans (after_createCalls _ _ _)⟩

/-- Linking gives a reference to a program, or fails and gives none. -/
theorem link (hvertex : ∀ s ∈ vertex, s.stage = .vertex) (hpixel : ∀ s ∈ pixel, s.stage = .pixel)
    {d' : Device} (hrun : (link vertex pixel).run.run d = (r, d'))
    (hfresh : d.profile.isGlsl = true → FreshPrograms d'.calls.toList) :
    Coherent timely d' (r.toOption.toList ++ refs) := by
  rcases link_cases vertex pixel d with ⟨-, -, hcase⟩ | ⟨hg, log, -, hcase⟩ | ⟨n, e, hjoined, hcase⟩
  · obtain ⟨rfl, rfl⟩ := Prod.mk.inj (hrun.symm.trans hcase)
    exact h.quiet ⟨rfl, rfl, rfl, rfl, rfl⟩ rfl rfl fun _ => rfl
  · obtain ⟨rfl, rfl⟩ := Prod.mk.inj (hrun.symm.trans hcase)
    have hnamed : Coherent timely d.named refs :=
      h.quiet ⟨rfl, rfl, rfl, rfl, rfl⟩ rfl rfl fun _ => rfl
    have hcalls := calls_say (d.named.say (createCalls d.nextName (vertex.toList ++ pixel.toList)))
      [.deleteProgram d.nextName]
    rw [say_say] at hcalls
    have hnew : d.nextName ∉ d.memory.live := not_live_of_created hcalls (hfresh hg)
    exact (hnamed.refuse hnew _).quiet ⟨rfl, rfl, rfl, rfl, rfl⟩ rfl rfl fun _ => rfl
  · have hnew : d.profile.isGlsl = true → d.nextName ∉ d.memory.live := by
      intro hg
      have hcreated := hjoined
      rw [Device.joined, if_pos hg] at hcreated
      obtain ⟨rfl, rfl⟩ := Prod.mk.inj hcreated
      rcases hcase with ⟨e, hcase⟩ | ⟨attributes, hcase⟩
      · obtain ⟨rfl, rfl⟩ := Prod.mk.inj (hrun.symm.trans hcase)
        exact not_live_of_created (append_nil _).symm (hfresh hg)
      · obtain ⟨rfl, rfl⟩ := Prod.mk.inj (hrun.symm.trans hcase)
        exact not_live_of_created (calls_say _ _) (hfresh hg)
    have hadd := h.joined hvertex hpixel hnew hjoined
    rcases hcase with ⟨e, hcase⟩ | ⟨attributes, hcase⟩
    · obtain ⟨rfl, rfl⟩ := Prod.mk.inj (hrun.symm.trans hcase)
      exact (hadd []).drop.quiet ⟨rfl, rfl, rfl, rfl, rfl⟩ rfl rfl fun _ => rfl
    · obtain ⟨rfl, rfl⟩ := Prod.mk.inj (hrun.symm.trans hcase)
      exact (hadd attributes).setup rfl rfl _ _

theorem switched (q : Option LinkedProgram) : Coherent timely (d.switched q) refs := by
  have hcleared : Coherent timely d.cleared refs :=
    h.quiet ⟨rfl, rfl, rfl, rfl, rfl⟩ rfl rfl fun _ => rfl
  cases q with
  | none => exact (hcleared.drawStep (drawStep_arranged _)).use none
  | some p => exact hcleared.use (some p)

theorem idle (hbound : d.bound = none) : Coherent timely (ready.run d).2 refs := by
  rw [ready_run, hbound]
  exact h

theorem ready (hbound : d.bound = some p) (hp : p ∈ refs) :
    Coherent timely (ready.run d).2 refs ∧
      ∃ shadow, (ready.run d).2.store.shadows[p.id]? = some shadow ∧
        (timely → Synced p.uniforms d.registers shadow.values) := by
  rw [ready_run, hbound]
  have hdraw := drawStep_arranged_sized d p
  have hupdate := (h.drawStep hdraw).update hp (hdraw.bound.trans hbound)
  rwa [hdraw.registers] at hupdate

end Steps

theorem drop? (h : Coherent timely d (q.toList ++ refs)) :
    Coherent timely (d.withStore (d.store.dropProgram? q)) refs := by
  cases q with
  | none => exact h
  | some p => exact h.drop

theorem bindHeld (h : Coherent timely d (q.toList ++ (d.bound.toList ++ refs))) :
    Coherent timely ((bindHeld q).run d).2
      (((bindHeld q).run d).2.bound.toList ++ refs) := by
  rw [bindHeld_run]
  split_ifs
  · exact h.drop?
  · have hboth : (q.toList ++ (d.bound.toList ++ refs)).Perm
        (d.bound.toList ++ (q.toList ++ refs)) := by
      rw [← append_assoc, ← append_assoc]
      exact perm_append_comm.append_right refs
    have hold : Coherent timely (d.switched q) (d.bound.toList ++ (q.toList ++ refs)) :=
      (h.switched q).perm hboth
    exact hold.drop?.collect

theorem bind (h : Coherent timely d (d.bound.toList ++ refs))
    (hq : ∀ p ∈ q, p ∈ d.bound.toList ++ refs) :
    Coherent timely ((bind q).run d).2 (((bind q).run d).2.bound.toList ++ refs) :=
  bindHeld (d := d.withStore (d.store.holdProgram? q)) (h.hold? hq)

end Coherent

/-! ### Registers -/

theorem RegisterFiles.sized_zero : zero.Sized := by
  intro stage kind
  cases stage <;> cases kind <;>
    simp [zero, stage, PerStage.both, PerStage.get, words, ValueKind.lanes, registerCount]

theorem RegisterFiles.Sized.modifyStage (h : files.Sized) (stage : Stage)
    {f : StageRegisters → StageRegisters}
    (hf : ∀ r kind, ((f r).words kind).length = (r.words kind).length) :
    (files.modifyStage stage f).Sized := by
  intro stage' kind
  by_cases hs : stage' = stage
  · subst hs
    simp only [RegisterFiles.modifyStage, stage, PerStage.get_set, hf]
    exact h stage' kind
  · simp only [RegisterFiles.modifyStage, RegisterFiles.stage, PerStage.get_set_of_ne _ _ hs]
    exact h stage' kind

theorem RegisterFiles.Sized.setBump (h : files.Sized) (unit : Nat) (values : List Binary32) :
    (files.setBump unit values).Sized :=
  fun stage kind => h stage kind

@[simp] theorem size_writeRegisters {α : Type} (width : Nat) (file : Array α) (start : Nat)
    (values : List α) : (writeRegisters width file start values).size = file.size :=
  size_overwrite _ _ _

namespace Client

theorem sized_perform {c : Client} (h : c.device.registers.Sized) {r : Request}
    (hr : r.isWrite = true) : (c.perform r).device.registers.Sized := by
  cases r with
  | setFloats stage start values =>
    simp only [perform, setFloats_run]
    refine h.modifyStage stage fun r kind => ?_
    cases kind <;> simp [words]
  | setInts stage start values =>
    simp only [perform, setInts_run]
    refine h.modifyStage stage fun r kind => ?_
    cases kind <;> simp [words]
  | setBools stage start values =>
    simp only [perform, setBools_run]
    refine h.modifyStage stage fun r kind => ?_
    cases kind <;> simp [words]
  | setBump unit matrix scale offset =>
    simp only [perform, setBump_run]
    rw [if_pos (by simpa [Request.isWrite] using hr)]
    exact h.setBump unit _
  | _ => simp [Request.isWrite] at hr

/-- References with those of the binding first. -/
theorem references_perm (c : Client) :
    c.references.Perm (c.device.bound.toList ++ (c.programs ++ c.device.linkCache.map (·.2))) :=
  perm_append_comm

theorem references_of_steady {c : Client} (h : Steady c.device d) (shaders : List CompiledShader)
    (programs : List LinkedProgram) :
    references ⟨d, shaders, programs⟩ =
      programs ++ c.device.linkCache.map (·.2) ++ c.device.bound.toList := by
  simp [references, h.linkCache, h.bound]

variable {timely : Prop} {c : Client}

private theorem coherent_of_steady (hsteady : Steady c.device d)
    (h : Coherent timely d c.references) :
    Coherent timely d (references ⟨d, shaders, c.programs⟩) := by
  rw [references_of_steady hsteady]
  exact h

theorem coherent_keepShader {x : Except DeviceError CompiledShader × Device}
    (hsteady : Steady c.device x.2) (h : Coherent timely x.2 c.references) :
    Coherent timely (c.keepShader x).device (c.keepShader x).references := by
  obtain ⟨r, d⟩ := x
  cases r <;> exact coherent_of_steady hsteady h

theorem coherent_keepProgram (hsteady : Steady c.device d)
    (h : Coherent timely d (r.toOption.toList ++ c.references)) :
    Coherent timely (c.keepProgram (r, d)).device (c.keepProgram (r, d)).references := by
  cases r with
  | error e => exact coherent_of_steady hsteady h
  | ok p =>
    have hrefs := references_of_steady hsteady c.shaders (p :: c.programs)
    exact hrefs ▸ h

theorem coherent_bind {programs : List LinkedProgram}
    (h : Coherent timely d (references ⟨d, shaders, programs⟩))
    (hq : ∀ p ∈ q, p ∈ references ⟨d, shaders, programs⟩) :
    Coherent timely ((bind q).run d).2
      (references ⟨((bind q).run d).2, shaders, programs⟩) := by
  have hperm := references_perm ⟨d, shaders, programs⟩
  have hlinks : ((bind q).run d).2.linkCache = d.linkCache := linkCache_bind d q
  have hbound := (h.perm hperm).bind fun p hp => hperm.mem_iff.mp (hq p hp)
  refine hbound.perm ?_
  have hafter := references_perm ⟨((bind q).run d).2, shaders, programs⟩
  dsimp only at hafter ⊢
  rw [hlinks] at hafter
  exact hafter.symm

theorem coherent_bindShaders (h : Coherent timely c.device c.references)
    (hvertex : ∀ s ∈ vertex, s.stage = .vertex) (hpixel : ∀ s ∈ pixel, s.stage = .pixel)
    (hfresh : c.device.profile.isGlsl = true →
      FreshPrograms (c.perform (.bindShaders vertex pixel)).device.calls.toList) :
    Coherent timely (c.perform (.bindShaders vertex pixel)).device
      (c.perform (.bindShaders vertex pixel)).references := by
  revert hfresh
  simp only [perform]
  refine bindShaders_induct (P := fun e => (_ → FreshPrograms e.calls.toList) →
    Coherent timely e (references ⟨e, c.shaders, c.programs⟩)) ?_ ?_ ?_ ?_
  · intro _
    exact coherent_bind (q := none) h fun p hp => absurd hp (by simp)
  · intro p hcached _
    refine coherent_bind (q := some p) h fun p' hp' => ?_
    obtain rfl : p = p' := Option.some.inj hp'
    obtain ⟨first, last, hlinks, -⟩ := lookup_eq_some_iff.mp hcached
    have hmem : p ∈ c.device.linkCache.map (·.2) := by simp [hlinks]
    exact mem_append_left _ (mem_append_right _ hmem)
  · intro error d hrun hfresh
    have hsteady := (speaks_link c.device vertex pixel).steady
    rw [hrun] at hsteady
    exact coherent_of_steady hsteady (h.link hvertex hpixel hrun hfresh)
  · intro p d hrun hfresh
    have hsteady := (speaks_link c.device vertex pixel).steady
    rw [hrun] at hsteady
    generalize he : ({ d with
      linkCache := d.linkCache ++ [((nameOf vertex, nameOf pixel), p)] } : Device) = e at hfresh ⊢
    obtain ⟨cs, hcs⟩ := (grows_bind e (some p)).calls
    have hcalls : e.calls = d.calls := by rw [← he]
    have hlinked := h.link hvertex hpixel hrun fun hg => by
      have hfresh := hfresh hg
      rw [← hcs, hcalls] at hfresh
      exact hfresh.of_append
    have hlinks : d.linkCache = c.device.linkCache := hsteady.linkCache
    have hbound : d.bound = c.device.bound := hsteady.bound
    have hpair : Coherent timely e (references ⟨e, c.shaders, c.programs⟩) := by
      subst he
      refine Coherent.perm (hlinked.quiet ⟨rfl, rfl, rfl, rfl, rfl⟩ rfl rfl fun _ => rfl) ?_
      simp only [references, hlinks, hbound, map_append, map_cons,
        map_nil, Except.toOption, Option.toList_some, append_assoc]
      exact (perm_append_comm_assoc _ _ _).trans
        ((perm_append_comm_assoc _ _ _).append_left _)
    refine coherent_bind (q := some p) hpair fun p' hp' => ?_
    obtain rfl : p = p' := Option.some.inj hp'
    simp [references, ← he]

theorem coherent_deleteShader (h : Coherent timely c.device c.references) (s : CompiledShader) :
    Coherent timely (c.perform (.deleteShader s)).device
      (c.perform (.deleteShader s)).references := by
  simp only [perform, deleteShader_run]
  refine Coherent.collect ?_
  have hperm : c.references.Perm (((c.device.linkCache.filter fun e => e.2.uses s).map (·.2)) ++
      (c.programs ++ (c.device.linkCache.filter fun e => !e.2.uses s).map (·.2) ++
        c.device.bound.toList)) := by
    have hsplit := (filter_append_perm (fun e => e.2.uses s) c.device.linkCache).map (·.2)
    rw [map_append] at hsplit
    refine ((hsplit.symm.append_left c.programs).append_right _).trans ?_
    simp only [append_assoc]
    exact perm_append_comm_assoc _ _ _
  have hdropped := Coherent.drops _ (h.perm hperm)
  have hrestored := hdropped.restore (programHolders_dropShader _ s)
    (shadows_dropShader _ s) fun n => mem_released_dropShader _
  exact hrestored.quiet ⟨rfl, rfl, rfl, rfl, rfl⟩ rfl rfl fun _ => rfl

private theorem references_erase (hp : p ∈ c.programs) :
    c.references.Perm (p :: (c.programs.erase p ++ c.device.linkCache.map (·.2) ++
      c.device.bound.toList)) :=
  ((perm_cons_erase hp).append_right _).append_right _

theorem mem_references_of_programs (hp : p ∈ c.programs) : p ∈ c.references :=
  mem_append_left _ (mem_append_left _ hp)

theorem coherent_perform (h : Coherent timely c.device c.references) {r : Request}
    (hallowed : c.Allows r) (hstaged : r.Staged)
    (hfresh : c.device.profile.isGlsl = true → FreshPrograms (c.perform r).device.calls.toList)
    (hwrite : timely → r.isWrite = true → c.device.generation.toNat + 1 < 2 ^ 64 - 1) :
    Coherent timely (c.perform r).device (c.perform r).references := by
  cases hr : r.isWrite with
  | true =>
    obtain ⟨files, hperform⟩ := c.perform_write r hr
    have hsized := sized_perform h.sized hr
    rw [hperform] at hsized ⊢
    exact h.write hsized fun htimely => hwrite htimely hr
  | false =>
    cases r with
    | compile bytes options =>
      exact coherent_keepShader (steady_compile _ _ _) (h.compile bytes options)
    | compileLowered code =>
      exact coherent_keepShader (speaks_compileLowered _ _).steady (h.compileLowered code)
    | link vertex pixel =>
      have hsteady := (speaks_link c.device vertex pixel).steady
      simp only [perform] at hfresh ⊢
      rcases hrun : (link vertex pixel).run.run c.device with ⟨r, d⟩
      rw [hrun] at hsteady hfresh
      rw [device_keepProgram] at hfresh
      exact coherent_keepProgram hsteady (h.link hstaged.1 hstaged.2 hrun hfresh)
    | bind q => exact coherent_bind h fun p hp => mem_references_of_programs (hallowed p hp)
    | bindShaders vertex pixel => exact coherent_bindShaders h hstaged.1 hstaged.2 hfresh
    | deleteShader s => exact coherent_deleteShader h s
    | deleteProgram p =>
      simp only [perform, deleteProgram_run]
      exact (h.perm (references_erase hallowed)).drop.collect
    | setFloats | setInts | setBools => simp [Request.isWrite] at hr
    | setBump unit matrix scale offset =>
      simp only [perform, setBump_run]
      rw [if_neg (by simpa [Request.isWrite] using hr)]
      exact h
    | setAttribute s f =>
      have hdraw := drawStep_setAttribute c.device s f
      exact coherent_of_steady hdraw.steady (h.drawStep hdraw)
    | setDivisor s n =>
      have hdraw := drawStep_setDivisor c.device s n
      exact coherent_of_steady hdraw.steady (h.drawStep hdraw)
    | ready =>
      refine coherent_of_steady (speaks_ready _).steady ?_
      cases hbound : c.device.bound with
      | none => exact h.idle hbound
      | some p => exact (h.ready hbound (by simp [references, hbound])).1
    | shareShader s => exact h.restore rfl rfl fun _ => Iff.rfl
    | shareProgram p => exact h.hold hallowed
    | dropShader s =>
      exact h.restore (programHolders_dropShader _ s) (shadows_dropShader _ s)
        fun n => mem_released_dropShader _
    | dropProgram p => exact (h.perm (references_erase hallowed)).drop

/-! ### Runs -/

theorem coherent_create {driver : Driver} {config : Config}
    (hcreate : create driver config = .ok d)
    (hsep : config.profile.isGlsl = true → driver.SeparatesUniforms) :
    Coherent timely d [] ∧ d.driver = driver ∧ d.profile = config.profile ∧ d.generation = 0 ∧
      d.bound = none ∧ d.linkCache = [] := by
  obtain rfl := eq_of_create hcreate
  refine ⟨⟨sized_zero, ⟨fun i => rfl, by simp⟩, rfl, by simp, by simp, fun hg => ⟨hsep hg, ⟨by simp,
    by simp, by simp, ?_⟩, ?_, by simp, by simp⟩⟩, rfl, rfl, rfl, rfl, rfl⟩
  · nofun
  · have hglsl : config.profile.isGlsl = true := hg
    simp only [memory_say, hglsl]
    rfl

theorem Run.coherent {driver : Driver} {config : Config} {requests : List Request}
    (hcreate : create driver config = .ok d)
    (hsep : config.profile.isGlsl = true → driver.SeparatesUniforms) (hrun : Run d requests c)
    (hstaged : ∀ r ∈ requests, r.Staged)
    (hwrites : timely → requests.countP (·.isWrite) < 2 ^ 64 - 1)
    (hfresh : config.profile.isGlsl = true → FreshPrograms c.device.calls.toList) :
    Coherent timely c.device c.references ∧ c.device.driver = driver ∧
      c.device.profile = config.profile ∧
      (timely → c.device.generation.toNat = requests.countP (·.isWrite)) := by
  induction hrun with
  | start =>
    obtain ⟨hcoherent, hdriver, hprofile, hgeneration, hbound, hlinks⟩ :=
      coherent_create hcreate hsep
    refine ⟨?_, hdriver, hprofile, by simp [new, hgeneration]⟩
    simpa [new, references, hbound, hlinks] using hcoherent
  | @step requests c before r hallowed ih =>
    have hcount : (requests ++ [r]).countP (·.isWrite) =
        requests.countP (·.isWrite) + if r.isWrite then 1 else 0 := by
      simp [countP_append, countP_cons]
    obtain ⟨cs, hcs⟩ := c.calls_perform r
    obtain ⟨hcoherent, hdriver, hprofile, hgeneration⟩ :=
      ih (fun r' hr' => hstaged r' (mem_append_left _ hr'))
        (fun htimely => by have := hwrites htimely; omega) fun hg => by
        have hfresh := hfresh hg
        rw [← hcs] at hfresh
        exact hfresh.of_append
    have hroom : timely → r.isWrite = true → c.device.generation.toNat + 1 < 2 ^ 64 - 1 := by
      intro htimely hr
      have hfew := hwrites htimely
      rw [hcount, if_pos hr] at hfew
      rw [hgeneration htimely]
      exact hfew
    refine ⟨coherent_perform hcoherent hallowed (hstaged r (by simp)) (hprofile ▸ hfresh) hroom,
      (c.driver_perform r).trans hdriver, (c.profile_perform r).trans hprofile, fun htimely => ?_⟩
    rw [generation_perform, hcount, ← hgeneration htimely]
    split_ifs with hr
    · have := hroom htimely hr
      rw [UInt64.toNat_add, UInt64.toNat_one, Nat.mod_eq_of_lt (by omega)]
    · simp

end Client

end ShaderPipeline.Device
