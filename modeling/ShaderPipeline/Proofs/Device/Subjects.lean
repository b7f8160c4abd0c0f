import ShaderPipeline.Proofs.Device.Effects

/-!
# What calls are about

A call is about an object of the driver, about what is bound, about values, or about the state of
drawing. The text of an assembly program goes to what is bound. Each operation of a device makes
calls about few of these, and leaves alone what the others set.
-/

namespace ShaderPipeline.Device

open List

/-- What a call can be about. -/
inductive Subject where
  | object
  | binding
  | value
  | drawing
  deriving DecidableEq

def Call.subject : Call → Subject
  | .createShader .. | .shaderSource .. | .deleteShader .. => .object
  | .createProgram .. | .attachShader .. | .linkProgram .. | .deleteProgram .. => .object
  | .genProgramArb .. | .deleteProgramArb .. => .object
  | .useProgram .. | .bindProgramArb .. | .programStringArb .. => .binding
  | .enable switch | .disable switch => if switch = pointSizeEnum then .drawing else .binding
  | .uniform1i .. | .uniform4fv .. | .uniform4iv .. | .uniform1iv .. => .value
  | .localParameter4fv .. | .localParameterI4iv .. => .value
  | .enableVertexAttribArray .. | .disableVertexAttribArray .. => .drawing
  | .vertexAttribPointer .. | .vertexAttribDivisor .. => .drawing

def About (subjects : List Subject) (cs : List Call) : Prop := ∀ c ∈ cs, c.subject ∈ subjects

namespace About

variable {subjects subjects' : List Subject} {cs cs' : List Call}

theorem nil (subjects : List Subject) : About subjects [] := nofun

theorem single (c : Call) : About [c.subject] [c] := by simp [About]

theorem append (h : About subjects cs) (h' : About subjects cs') : About subjects (cs ++ cs') :=
  fun c hc => (mem_append.mp hc).elim (h c) (h' c)

theorem mono (h : About subjects cs) (hsub : subjects ⊆ subjects') : About subjects' cs :=
  fun c hc => hsub (h c hc)

theorem subject_ne (h : About subjects cs) {x : Subject} (hx : x ∉ subjects) :
    ∀ c ∈ cs, c.subject ≠ x :=
  fun c hc heq => hx (heq ▸ h c hc)

theorem flatMap {α : Type} {xs : List α} {f : α → List Call} (h : ∀ x ∈ xs, About subjects (f x)) :
    About subjects (xs.flatMap f) := by
  intro c hc
  obtain ⟨x, hx, hc⟩ := mem_flatMap.mp hc
  exact h x hx c hc

theorem map {α : Type} {xs : List α} {f : α → Call} (h : ∀ x ∈ xs, (f x).subject ∈ subjects) :
    About subjects (xs.map f) := by
  intro c hc
  obtain ⟨x, hx, rfl⟩ := mem_map.mp hc
  exact h x hx

end About

/-! ### The calls of operations -/

attribute [local simp] Call.subject

variable (d : Device) (glsl : Bool) (names : ProgramNames)

theorem about_sourceCalls (code : LoweredShader) (stage : Stage) (n : Nat) :
    About [.object, .binding] (sourceCalls glsl code stage n) := by
  cases glsl <;> simp [About, sourceCalls]

theorem about_refusalCalls (stage : Stage) (n : Nat) :
    About [.object, .binding] (refusalCalls glsl stage n) := by
  cases glsl <;> simp [About, refusalCalls]

theorem about_deletions (rs : List Released) : About [.object] (deletions glsl rs) := by
  refine .flatMap fun r _ => ?_
  cases r <;> cases glsl <;> simp [About]

theorem about_createCalls (n : Nat) (shaders : List CompiledShader) :
    About [.object] (createCalls n shaders) := by
  have hattach : About [.object] (shaders.map fun s => Call.attachShader n s.name) :=
    .map fun s _ => mem_singleton.mpr rfl
  have hfirst : About [.object] [.createProgram n] := by simp [About]
  have hlast : About [.object] [.linkProgram n] := by simp [About]
  exact (hfirst.append hattach).append hlast

theorem about_useCalls : About [.binding] (useCalls glsl names) := by
  have hassembly : ∀ n, About [.binding] [if n = 0 then .disable vertexProgramEnum
      else .enable vertexProgramEnum, .bindProgramArb vertexProgramEnum n] ∧
      About [.binding] [if n = 0 then .disable fragmentProgramEnum
      else .enable fragmentProgramEnum, .bindProgramArb fragmentProgramEnum n] := by
    intro n
    constructor <;> split_ifs <;> simp [About, vertexProgramEnum,
      fragmentProgramEnum, pointSizeEnum]
  cases glsl with
  | true => simp [About, useCalls]
  | false => exact (hassembly names.vertex).1.append (hassembly names.pixel).2

theorem about_constantCalls (program : Nat) (s : CompiledShader) :
    About [.value] (constantCalls d program s ++ samplerCalls d program s) := by
  refine .append (.flatMap fun u _ => ?_) (.flatMap fun x _ => ?_)
  · dsimp only
    split_ifs <;> simp [About]
  · dsimp only
    split_ifs <;> simp [About]

theorem about_setupCalls (shaders : List CompiledShader) :
    About [.binding, .value] (setupCalls d names shaders) := by
  have huse : ∀ names, About [.binding, .value] (useCalls true names) :=
    fun names => (about_useCalls true names).mono (by simp)
  have hvalues : ∀ s, About [.binding, .value]
      (constantCalls d names.program s ++ samplerCalls d names.program s) :=
    fun s => (about_constantCalls d names.program s).mono (by simp)
  unfold setupCalls
  split_ifs
  · exact ((huse names).append (.flatMap fun s _ => hvalues s)).append (huse _)
  · exact .nil _

theorem about_stageUploads (l : ArrayLocations) (v : StageUniforms) :
    About [.value] (stageUploads l v) := by
  unfold stageUploads
  refine .append (.append ?_ ?_) ?_ <;> split_ifs <;> simp [About]

theorem about_parameterUploads (integers : Bool) (target : Nat) (v : StageUniforms)
    (kind : ValueKind) (count index : Nat) (c : SlotCursor) :
    About [.value] (parameterUploads integers target v kind count index c) := by
  induction count generalizing index c with
  | zero => exact .nil _
  | succ n ih =>
    intro call hcall
    rcases mem_cons.mp hcall with rfl | hcall
    · cases kind <;> cases integers <;> exact mem_singleton.mpr rfl
    · exact ih _ _ call hcall

theorem about_uniformUploads (integers : Bool) (values : PerStage StageUniforms)
    (us : List (Stage × Uniform)) (stage : Option Stage) (index : Nat) (c : SlotCursor) :
    About [.value] (uniformUploads integers values stage index c us) := by
  induction us generalizing stage index c with
  | nil => exact .nil _
  | cons e us ih => exact (about_parameterUploads _ _ _ _ _ _ _).append (ih _ _ _)

theorem about_uploads (p : LinkedProgram) (values : PerStage StageUniforms) :
    About [.value] (uploads d p values) := by
  unfold uploads
  split_ifs
  · exact (about_stageUploads _ _).append (about_stageUploads _ _)
  · refine .append (about_uniformUploads _ _ _ _ _ _) ?_
    split_ifs
    · exact .map fun _ _ => mem_singleton.mpr rfl
    · exact .nil _

theorem about_enablingCalls : About [.drawing] d.enablingCalls := by
  refine .flatMap fun i _ => ?_
  unfold arrayCalls
  split_ifs <;> simp [About]

/-! ### Steps that make calls -/

/-- What a device keeps about drawing. -/
structure DrawState where
  wanted : Array Bool
  enabled : Array Bool
  divisors : Array Nat
  tracked : Nat
  pointSize : Bool

def drawState : DrawState :=
  ⟨d.wanted, d.enabled, d.divisors, d.trackedArrays, d.pointSize⟩

/-- What a device keeps when it neither writes registers, nor binds, nor asks its cache. -/
structure Core where
  driver : Driver
  capabilities : Capabilities
  profile : Profile
  cache : ShaderCache
  registers : RegisterFiles
  generation : UInt64
  bound : Option LinkedProgram
  linkCache : List ((Nat × Nat) × LinkedProgram)

def core : Core :=
  ⟨d.driver, d.capabilities, d.profile, d.cache, d.registers, d.generation, d.bound, d.linkCache⟩

/-- A step that makes calls about some subjects. It keeps the core, and also what is kept about
drawing if none of the calls is about that. -/
structure Speaks (subjects : List Subject) (d d' : Device) : Prop where
  core : d'.core = d.core
  drawState : .drawing ∉ subjects → d'.drawState = d.drawState
  calls : ∃ cs, d'.calls.toList = d.calls.toList ++ cs ∧ About subjects cs

namespace Speaks

variable {subjects subjects' : List Subject} {d d' d'' : Device}

theorem of_say {cs : List Call} (hcore : d'.core = d.core) (hstate : d'.drawState = d.drawState)
    (hcalls : d'.calls = (d.say cs).calls) (h : About subjects cs) : Speaks subjects d d' :=
  ⟨hcore, fun _ => hstate, cs, by rw [hcalls, calls_say], h⟩

theorem of_draw {c : Call} (hcore : d'.core = d.core) (hcalls : d'.calls = (d.say [c]).calls)
    (h : c.subject = .drawing) : Speaks [.drawing] d d' :=
  ⟨hcore, fun hnot => absurd mem_cons_self hnot, [c], by rw [hcalls, calls_say], h ▸ About.single c⟩

theorem of_eq (hcore : d'.core = d.core) (hstate : d'.drawState = d.drawState)
    (hcalls : d'.calls = d.calls) : Speaks subjects d d' :=
  ⟨hcore, fun _ => hstate, [], by rw [hcalls, append_nil], .nil _⟩

theorem trans (h : Speaks subjects d d') (h' : Speaks subjects d' d'') : Speaks subjects d d'' := by
  obtain ⟨cs, hcs, habout⟩ := h.calls
  obtain ⟨cs', hcs', habout'⟩ := h'.calls
  exact ⟨h'.core.trans h.core, fun hnot => (h'.drawState hnot).trans (h.drawState hnot), cs ++ cs',
    by rw [hcs', hcs, append_assoc], habout.append habout'⟩

theorem mono (h : Speaks subjects d d') (hsub : subjects ⊆ subjects') : Speaks subjects' d d' := by
  obtain ⟨cs, hcs, habout⟩ := h.calls
  exact ⟨h.core, fun hnot => h.drawState fun hmem => hnot (hsub hmem), cs, hcs, habout.mono hsub⟩

section Core

variable (h : Speaks subjects d d')
include h

theorem driver : d'.driver = d.driver := congrArg Core.driver h.core

theorem capabilities : d'.capabilities = d.capabilities := congrArg Core.capabilities h.core

theorem profile : d'.profile = d.profile := congrArg Core.profile h.core

theorem cache : d'.cache = d.cache := congrArg Core.cache h.core

theorem registers : d'.registers = d.registers := congrArg Core.registers h.core

theorem generation : d'.generation = d.generation := congrArg Core.generation h.core

theorem bound : d'.bound = d.bound := congrArg Core.bound h.core

theorem linkCache : d'.linkCache = d.linkCache := congrArg Core.linkCache h.core

end Core

end Speaks

/-- A step that is a matter of drawing only. -/
structure DrawStep (d d' : Device) : Prop extends Speaks [.drawing] d d' where
  store : d'.store = d.store

theorem DrawStep.trans {d d' d'' : Device} (h : DrawStep d d') (h' : DrawStep d' d'') :
    DrawStep d d'' :=
  ⟨h.toSpeaks.trans h'.toSpeaks, h'.store.trans h.store⟩

section Operations

variable (d : Device) (vertex pixel : Option CompiledShader)

theorem speaks_collected : Speaks [.object] d d.collected :=
  .of_say rfl rfl rfl (about_deletions _ _)

theorem speaks_compileLowered (code : LoweredShader) :
    Speaks [.object, .binding] d ((compileLowered code).run.run d).2 := by
  refine ((speaks_collected d).mono (by simp)).trans ?_
  rcases compileLowered_cases code d with ⟨e, -, hrun⟩ | ⟨stage, -, -, ⟨e, -, hrun⟩ | ⟨-, hrun⟩⟩
  · rw [hrun]
    exact .of_eq rfl rfl rfl
  · rw [hrun]
    exact .of_say rfl rfl rfl ((about_sourceCalls _ _ _ _).append (about_refusalCalls _ _ _))
  · rw [hrun]
    exact .of_say rfl rfl rfl (about_sourceCalls _ _ _ _)

theorem speaks_joined : Speaks [.object] d (d.joined vertex pixel).2 := by
  unfold joined
  split_ifs
  · exact .of_say rfl rfl rfl (about_createCalls _ _)
  · exact .of_eq rfl rfl rfl

theorem speaks_link : Speaks [.object, .binding, .value] d ((link vertex pixel).run.run d).2 := by
  rcases link_cases vertex pixel d with ⟨-, -, hrun⟩ | ⟨-, log, -, hrun⟩ | ⟨name, d', hjoined, hrun⟩
  · rw [hrun]
    exact .of_eq rfl rfl rfl
  · rw [hrun]
    refine .of_say rfl rfl rfl (.append ((about_createCalls _ _).mono (by simp)) ?_)
    simp [About]
  · have hspeaks := speaks_joined d vertex pixel
    rw [hjoined] at hspeaks
    refine (hspeaks.mono (by simp)).trans ?_
    rcases hrun with ⟨e, hrun⟩ | ⟨attributes, hrun⟩
    · rw [hrun]
      exact .of_eq rfl rfl rfl
    · rw [hrun]
      exact .of_say rfl rfl rfl ((about_setupCalls _ _ _).mono (by simp))

theorem drawStep_arranged : DrawStep d d.arranged :=
  ⟨⟨rfl, fun hnot => absurd mem_cons_self hnot, _, calls_say _ _, about_enablingCalls d⟩, rfl⟩

theorem drawStep_setAttribute (s : Semantic) (f : ArrayFormat) :
    DrawStep d ((setAttribute s f).run d).2 := by
  rcases setAttribute_cases s f d with hrun | ⟨i, type, -, hrun⟩
  · rw [hrun]
    exact ⟨.of_eq rfl rfl rfl, rfl⟩
  · rw [hrun]
    exact ⟨.of_draw rfl rfl rfl, rfl⟩

theorem drawStep_setDivisor (s : Semantic) (divisor : Nat) :
    DrawStep d ((setDivisor s divisor).run.run d).2 := by
  rcases setDivisor_cases s divisor d with ⟨e, hrun⟩ | hrun | ⟨i, -, -, hrun⟩
  · rw [hrun]
    exact ⟨.of_eq rfl rfl rfl, rfl⟩
  · rw [hrun]
    exact ⟨.of_eq rfl rfl rfl, rfl⟩
  · rw [hrun]
    exact ⟨.of_draw rfl rfl rfl, rfl⟩

/-- Before a draw, vertex arrays are enabled and the size of points is set. -/
theorem drawStep_arranged_sized (p : LinkedProgram) : DrawStep d (d.arranged.sized p) := by
  refine (drawStep_arranged d).trans ?_
  unfold sized
  split_ifs
  · exact ⟨.of_draw rfl rfl rfl, rfl⟩
  · exact ⟨.of_draw rfl rfl rfl, rfl⟩
  · exact ⟨.of_eq rfl rfl rfl, rfl⟩

theorem speaks_updateUniforms (p : LinkedProgram) :
    Speaks [.value] d ((updateUniforms p).run d).2 := by
  cases hs : d.store.shadows[p.id]? with
  | none =>
    rw [updateUniforms_of_missing hs]
    exact .of_eq rfl rfl rfl
  | some shadow =>
    rcases hr : p.refresh d.registers shadow.values with ⟨values, changed⟩
    rw [updateUniforms_run hs hr]
    split_ifs
    · exact .of_say rfl rfl rfl (about_uploads _ _ _)
    · exact .of_eq rfl rfl rfl
    · exact .of_eq rfl rfl rfl

theorem speaks_ready : Speaks [.value, .drawing] d (ready.run d).2 := by
  rw [ready_run]
  cases d.bound with
  | none => exact .of_eq rfl rfl rfl
  | some p =>
    have hdrawn := (drawStep_arranged_sized d p).toSpeaks
    exact (hdrawn.mono (by simp)).trans ((speaks_updateUniforms _ p).mono (by simp))

/-- Binding keeps the core, but for what is bound. -/
theorem core_bindHeld (p : Option LinkedProgram) :
    ∃ bound, ((bindHeld p).run d).2.core = { d.core with bound } := by
  have hswitched : (d.switched p).core = { d.core with bound := p } := by
    unfold switched
    split_ifs <;> rfl
  rw [bindHeld_run]
  split_ifs
  · exact ⟨d.bound, rfl⟩
  · exact ⟨p, (speaks_collected _).core.trans hswitched⟩

end Operations

end ShaderPipeline.Device
