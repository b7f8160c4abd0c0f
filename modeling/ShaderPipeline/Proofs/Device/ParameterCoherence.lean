import ShaderPipeline.Proofs.Device.Codes
import ShaderPipeline.Proofs.Device.ParameterMemory

/-!
# When local parameters hold the registers

A device decides by the arrays of a linked pair whether to send floats, but the driver keeps the
local parameters of each assembly program apart from pairs, and sets those of the programs bound
last. So parameters may be stale when a device is ready to draw: another pair with the same shader
has sent other values since, a compilation has put another program in the shader's place, or the
array reaches past the end of the register file. The theorem here says exactly when the parameter
of a float holds its register.
-/

namespace ShaderPipeline.Device

open RegisterFiles ParameterMemory

def ParameterMemory.Holds (m : ParameterMemory) (files : RegisterFiles) (stage : Stage)
    (program index register : Nat) : Prop :=
  ∀ lane < 4, WordsAgree .float (m.cells stage program index lane)
    ((files.stage stage).word .float (4 * register + lane))

/-- What the driver of assembly programs holds after the calls of a device. -/
def parameters (d : Device) : ParameterMemory := .replay d.calls.toList

/-- Whether the arrays of a program are sent when the device gets ready: registers were written
since its last time, and one that it reads has changed since then. -/
def sends (d : Device) (p : LinkedProgram) : Bool :=
  match d.store.shadows[p.id]? with
  | none => false
  | some shadow =>
    p.hasUniforms && shadow.generation != d.generation &&
      (p.refresh d.registers shadow.values).2

/-! ### Getting ready -/

section Ready

variable {d : Device} {p : LinkedProgram} {shadow : Shadow}

theorem ready_cases (hbound : d.bound = some p) (hshadow : d.store.shadows[p.id]? = some shadow) :
    ∃ drawing, About [.drawing] drawing ∧
      (ready.run d).2.calls.toList = d.calls.toList ++ (drawing ++
        if d.sends p then d.uploads p (p.refresh d.registers shadow.values).1 else []) ∧
      (ready.run d).2.store.shadows[p.id]? = some
        (if p.hasUniforms && shadow.generation != d.generation then
          ⟨d.generation, (p.refresh d.registers shadow.values).1⟩ else shadow) := by
  have hdraw := drawStep_arranged_sized d p
  obtain ⟨drawing, hcalls, hdrawing⟩ := hdraw.calls
  refine ⟨drawing, hdrawing, ?_⟩
  have hsends : d.sends p = (p.hasUniforms && shadow.generation != d.generation &&
      (p.refresh d.registers shadow.values).2) := by rw [sends, hshadow]
  rw [ready_run, hbound, hsends]
  dsimp only
  rw [← List.append_assoc, ← hcalls]
  generalize d.arranged.sized p = e at hdraw
  obtain ⟨values, changed, hrefresh⟩ : ∃ values changed,
      p.refresh d.registers shadow.values = (values, changed) := ⟨_, _, rfl⟩
  rw [updateUniforms_run (hdraw.store ▸ hshadow) (hdraw.registers ▸ hrefresh), hdraw.generation,
    hrefresh]
  cases p.hasUniforms && shadow.generation != d.generation with
  | false => exact ⟨(List.append_nil _).symm, hdraw.store ▸ hshadow⟩
  | true =>
    simp only [Bool.true_and, if_true, calls_say, uploads, hdraw.profile, hdraw.capabilities]
    refine ⟨rfl, ?_⟩
    change (e.store.shadows.setIfInBounds p.id _)[p.id]? = _
    obtain ⟨hid, -⟩ := Array.getElem?_eq_some_iff.mp hshadow
    rw [hdraw.store, Array.getElem?_setIfInBounds_self_of_lt hid]

theorem ParameterMemory.silent_of_about {cs : List Call} (h : About [.drawing] cs) :
    ∀ c ∈ cs, Silent c := by
  intro c hc
  have hmem := h c hc
  cases c <;> first | exact fun _ => rfl | simp [Call.subject] at hmem

theorem parameters_ready (hassembly : d.profile.isGlsl = false) (hbound : d.bound = some p)
    (hshadow : d.store.shadows[p.id]? = some shadow) :
    (ready.run d).2.parameters =
      if d.sends p then d.parameters.after (p.assemblyUploads
        (d.capabilities.has [.nvGpuProgram4]) (p.refresh d.registers shadow.values).1)
      else d.parameters := by
  obtain ⟨drawing, hdrawing, hcalls, -⟩ := ready_cases hbound hshadow
  rw [parameters, hcalls, replay_append, after_append,
    after_of_silent (ParameterMemory.silent_of_about hdrawing)]
  split_ifs
  · rw [uploads, hassembly]
    rfl
  · rfl

variable {timely : Prop} {refs : List LinkedProgram} {stage : Stage} {s : CompiledShader}
  {u : Uniform} {k slot : Nat}

/-- What the refreshed arrays of a program hold at the slot of a float: its register, or zero if its
range reaches past the end of the register file. -/
theorem word_refresh_packed (h : Coherent timely d refs) (hp : p ∈ refs)
    (hshadow : d.store.shadows[p.id]? = some shadow) (hshader : p.shader stage = some s)
    (hkind : u.kind = .float) (hpacked : PackedAt s.code.uniforms u k slot) {lane : Nat}
    (hlane : lane < 4) :
    (u.InFile → WordsAgree .float
      (((p.refresh d.registers shadow.values).1.get stage).word .float (4 * slot + lane))
      ((d.registers.stage stage).word .float (4 * (u.index + k) + lane))) ∧
    (¬u.InFile →
      ((p.refresh d.registers shadow.values).1.get stage).word .float (4 * slot + lane) = 0) := by
  obtain ⟨shadow', hshadow', htracked⟩ := h.tracked p hp
  obtain rfl := Option.some.inj (hshadow'.symm.trans hshadow)
  have hwell := h.wellFormed p hp
  have hroom := hwell.hasRoom htracked.size
  refine ⟨fun hfile => ?_, fun hpast => ?_⟩
  · have hwords := hwell.wordsAgree_packed hshader hpacked
      (LinkedProgram.synced_refresh h.sized hroom) hfile
      (show lane < u.kind.lanes by rw [hkind]; exact hlane)
    rwa [hkind] at hwords
  · obtain ⟨before, after, huniforms, rfl, hk⟩ := hwell.split_packed hshader hpacked
    have hskipped := htracked.skipped.trans (LinkedProgram.skipped_refresh h.sized hroom)
    rw [Nat.mul_add, Nat.add_assoc, hkind,
      hskipped before stage u after huniforms hkind hpast _ (by omega)]
    cases stage <;> exact word_ofShader? _ _ _

theorem cells_ready (h : Coherent timely d refs) (hassembly : d.profile.isGlsl = false)
    (hp : p ∈ refs) (hbound : d.bound = some p)
    (hshadow : d.store.shadows[p.id]? = some shadow) (hshader : p.shader stage = some s)
    (hfloats : s.code.FloatsFirst) (hkind : u.kind = .float)
    (hpacked : PackedAt s.code.uniforms u k slot) (n : Nat) {lane : Nat} (hlane : lane < 4) :
    (ready.run d).2.parameters.cells stage n slot lane =
      if d.sends p ∧ n = d.parameters.bound.get stage then
        ((p.refresh d.registers shadow.values).1.get stage).word .float (4 * slot + lane)
      else d.parameters.cells stage n slot lane := by
  obtain ⟨shadow', hshadow', htracked⟩ := h.tracked p hp
  obtain rfl := Option.some.inj (hshadow'.symm.trans hshadow)
  have hwell := h.wellFormed p hp
  have hsize := p.length_words_refresh d.registers shadow'.values
  rw [parameters_ready hassembly hbound hshadow]
  by_cases hsends : d.sends p = true
  · simp only [hsends, if_true, true_and]
    exact LinkedProgram.cells_assemblyUploads hwell hshader hfloats hkind hpacked _
      (hwell.hasRoom fun stage kind => (hsize stage kind).trans (htracked.size stage kind))
      _ n hlane
  · simp [hsends]

end Ready

namespace Client

variable {c : Client}

/-- Whatever a client of a device of assembly programs has asked for: when the device is ready to
draw with a program, the parameter at the slot of a float of one of its shaders holds the register
exactly if it was sent to that shader, as a register of a range inside the register file, or else if
it held the register before. What is sent for other ranges is zero. -/
theorem parameters_hold_when_ready_iff {driver : Driver} {config : Config} {d : Device}
    {requests : List Request} {p : LinkedProgram} {stage : Stage} {s : CompiledShader}
    {u : Uniform} {k slot : Nat} (hcreate : Device.create driver config = .ok d)
    (hassembly : config.profile.isGlsl = false) (hrun : Run d requests c)
    (hstaged : ∀ r ∈ requests, r.Staged)
    (hlowered : ∀ code, .compileLowered code ∈ requests → code.FloatsFirst)
    (hbound : c.device.bound = some p) (hshader : p.shader stage = some s)
    (hkind : u.kind = .float) (hpacked : PackedAt s.code.uniforms u k slot) :
    (c.perform .ready).device.parameters.Holds (c.perform .ready).device.registers stage s.name
        slot (u.index + k) ↔
      if c.device.sends p ∧ s.name = c.device.parameters.bound.get stage then
        u.InFile ∨ ∀ lane < 4, WordsAgree .float 0
          ((c.device.registers.stage stage).word .float (4 * (u.index + k) + lane))
      else c.device.parameters.Holds c.device.registers stage s.name slot (u.index + k) := by
  obtain ⟨hcoherent, -, hprofile, -⟩ :=
    hrun.coherent hcreate (fun hg => absurd hg (by simp [hassembly])) hstaged
      (fun h : False => h.elim) fun hg => absurd hg (by simp [hassembly])
  have hp : p ∈ c.references := by simp [references, hbound]
  have hfloats : s.code.FloatsFirst := by
    obtain ⟨-, hcodes⟩ := hrun.codes LoweredShader.floatsFirst_ofBytes hcreate hlowered
    obtain ⟨hvertex, hpixel⟩ :=
      Books.mem_shaderRefs_of_program (mem_programRefs_of_references 0 0 hp)
    cases stage with
    | vertex => exact hcodes s (hvertex s hshader)
    | pixel => exact hcodes s (hpixel s hshader)
  obtain ⟨shadow, hshadow, -⟩ := hcoherent.tracked p hp
  have hregisters : (c.perform .ready).device.registers = c.device.registers :=
    (speaks_ready c.device).registers
  have hcells : ∀ lane < 4, (c.perform .ready).device.parameters.cells stage s.name slot lane =
      _ := fun lane hlane =>
    cells_ready hcoherent (hprofile ▸ hassembly) hp hbound hshadow hshader hfloats hkind hpacked
      s.name hlane
  have hvalue := fun lane (hlane : lane < 4) =>
    word_refresh_packed hcoherent hp hshadow hshader hkind hpacked hlane
  rw [hregisters]
  split_ifs with hsent
  · have hholds : (c.perform .ready).device.parameters.Holds c.device.registers stage s.name slot
        (u.index + k) ↔ ∀ lane < 4, WordsAgree .float
          (((p.refresh c.device.registers shadow.values).1.get stage).word .float (4 * slot + lane))
          ((c.device.registers.stage stage).word .float (4 * (u.index + k) + lane)) :=
      forall₂_congr fun lane hlane => by rw [hcells lane hlane, if_pos hsent]
    rw [hholds]
    by_cases hfile : u.InFile
    · exact iff_of_true (fun lane hlane => (hvalue lane hlane).1 hfile) (Or.inl hfile)
    · rw [or_iff_right hfile]
      exact forall₂_congr fun lane hlane => by rw [(hvalue lane hlane).2 hfile]
  · exact forall₂_congr fun lane hlane => by rw [hcells lane hlane, if_neg hsent]

end Client

/-! ### A displaced program -/

def fedAssembly : LoweredShader :=
  { LoweredShader.blank .arb1 default with
    version := some ⟨.vertex, 1, 1⟩
    uniforms := [⟨.float, 5, 0, false⟩] }

def fedAssemblyCompiled : CompiledShader := ⟨0, 1, .vertex, fedAssembly⟩

def fedAssemblyProgram : LinkedProgram where
  id := 0
  names := ⟨1, 1, 0⟩
  vertex := some fedAssemblyCompiled
  pixel := none
  uniforms := [(.vertex, ⟨.float, 5, 0, false⟩)]
  attributes := []
  setsPointSize := false
  bumpCount := 0
  locations := ⟨.absent, .absent⟩

def displacedRequests : List Request :=
  [.compileLowered fedAssembly, .bindShaders (some fedAssemblyCompiled) none,
    .setFloats .vertex 5 [⟨0x3F800000⟩, ⟨0⟩, ⟨0⟩, ⟨0⟩], .compileLowered fedAssembly]

theorem word_of_written_zero (x y z w : Binary32) :
    ((zero.modifyStage .vertex fun r =>
      { r with floats := writeRegisters 4 r.floats 5 [x, y, z, w] }).stage .vertex).word .float 20 =
      x.bits := by
  have hsize : (zero.stage .vertex).floats.size = 32768 := Array.size_replicate
  have hcell : (writeRegisters 4 (zero.stage .vertex).floats 5 [x, y, z, w])[20]? =
      some x := by
    rw [writeRegisters, getElem?_overwrite, hsize]
    simp [transferCount]
  simpa [modifyStage, stage, StageRegisters.word,
    StageRegisters.words] using congrArg (fun x => (x.map Binary32.bits).getD 0) hcell

/-- The shader that was compiled last has taken the place of the bound one, which is then left
without the register. -/
theorem parameters_hold_when_ready_iff_displaced : ∃ d c,
    Device.create .first (.ofProfile .arb1) = .ok d ∧ Client.Run d displacedRequests c ∧
    c.device.bound = some fedAssemblyProgram ∧
    ¬(c.perform .ready).device.parameters.Holds (c.perform .ready).device.registers .vertex 1 0
      5 := by
  obtain ⟨d, hd⟩ : ∃ d, Device.create .first (.ofProfile .arb1) = .ok d := ⟨_, rfl⟩
  obtain ⟨c, hc⟩ : ∃ c, c = (((Client.new d).perform (.compileLowered fedAssembly)).perform
    (.bindShaders (some fedAssemblyCompiled) none) |>.perform
    (.setFloats .vertex 5 [⟨0x3F800000⟩, ⟨0⟩, ⟨0⟩, ⟨0⟩]) |>.perform
    (.compileLowered fedAssembly)) := ⟨_, rfl⟩
  have hrun : Client.Run d displacedRequests c := by
    have hcompiled := Client.Run.step (d := d) .start (.compileLowered fedAssembly) trivial
    have hbound := hcompiled.step (.bindShaders (some fedAssemblyCompiled) none)
      ⟨fun s hs => by
        obtain rfl := Option.some.inj hs
        cases hd
        exact List.mem_cons_self, by simp⟩
    have hwritten := hbound.step (.setFloats .vertex 5 [⟨0x3F800000⟩, ⟨0⟩, ⟨0⟩, ⟨0⟩]) trivial
    exact hc ▸ hwritten.step (.compileLowered fedAssembly) trivial
  obtain ⟨hbound, hplace, hcell, hfiles⟩ : c.device.bound = some fedAssemblyProgram ∧
      c.device.parameters.bound.get .vertex = 2 ∧ c.device.parameters.cells .vertex 1 0 0 = 0 ∧
      c.device.registers = RegisterFiles.zero.modifyStage .vertex fun r =>
        { r with floats := writeRegisters 4 r.floats 5 [⟨0x3F800000⟩, ⟨0⟩, ⟨0⟩, ⟨0⟩] } := by
    subst hc
    cases hd
    exact ⟨rfl, rfl, rfl, rfl⟩
  have hregister : (c.device.registers.stage .vertex).word .float 20 = 0x3F800000 := by
    rw [hfiles]
    exact word_of_written_zero _ _ _ _
  have hpacked : PackedAt fedAssemblyCompiled.code.uniforms ⟨.float, 5, 0, false⟩ 0 0 :=
    ⟨rfl, by decide, [], [], rfl, rfl⟩
  have hiff := Client.parameters_hold_when_ready_iff hd rfl hrun
    (by simp [displacedRequests, Request.Staged, fedAssemblyCompiled])
    (fun code hcode => by
      obtain rfl : code = fedAssembly := by simpa [displacedRequests] using hcode
      decide)
    hbound (rfl : fedAssemblyProgram.shader .vertex = some fedAssemblyCompiled) rfl hpacked
  rw [if_neg (by rw [hplace]; simp [fedAssemblyCompiled])] at hiff
  refine ⟨d, c, hd, hrun, hbound, fun hholds => ?_⟩
  have hagree := hiff.mp hholds 0 (by decide)
  rw [show 4 * (5 + 0) + 0 = 20 from rfl, hregister] at hagree
  change WordsAgree .float (c.device.parameters.cells .vertex 1 0 0) _ at hagree
  rw [hcell] at hagree
  simp [WordsAgree] at hagree

end ShaderPipeline.Device
