import Mathlib
import ShaderPipeline.Proofs.Device.CoherentRuns

/-!
# Uniforms reach the driver

Whatever a client has asked for before, once a device of the shading language is ready to draw, the
driver holds the registers of every uniform of the bound program. Uploads that would change nothing
are left out, and so are those of programs that are not bound.
-/

namespace ShaderPipeline.Device

namespace Client

variable {c : Client}

/-- Whatever a client of a device of the shading language has asked for: when the device is ready to
draw with a program, the driver holds the registers of every fed uniform of that program, at the
uniform's slots in the array of its stage and kind. It is enough that the driver gives different
places to different uniforms and new names to programs, and that registers are not written so often
that generations repeat. -/
theorem uniforms_agree_when_ready {driver : Driver} {config : Config} {d : Device}
    {requests : List Request} {p : LinkedProgram} {stage : Stage} {s : CompiledShader}
    {before after : List Uniform} {u : Uniform}
    (hcreate : Device.create driver config = .ok d) (hglsl : config.profile.isGlsl = true)
    (hsep : driver.SeparatesUniforms) (hrun : Run d requests c)
    (hstaged : ∀ r ∈ requests, r.Staged) (hwrites : requests.countP (·.isWrite) < 2 ^ 64 - 1)
    (hfresh : FreshPrograms c.device.calls.toList) (hbound : c.device.bound = some p)
    (hshader : p.shader stage = some s) (hu : s.code.uniforms = before ++ u :: after)
    (hfed : u.constant = false) (hfile : u.InFile)
    (hplace : 0 ≤ driver.uniformLocation p.names.program (UniformName.array stage u.kind).text) :
    ∀ i < u.kind.lanes * u.width,
      WordsAgree u.kind
        ((UniformMemory.replay (c.perform .ready).device.calls.toList).cells p.names.program
          (driver.uniformLocation p.names.program (UniformName.array stage u.kind).text)
          (u.kind.lanes * slotCount (before.filter (·.kind == u.kind)) + i))
        (((c.perform .ready).device.registers.stage stage).word u.kind
          (u.kind.lanes * u.index + i)) := by
  intro i hi
  obtain ⟨hcoherent, hdriver, hprofile, -⟩ :=
    hrun.coherent hcreate (fun _ => hsep) hstaged (fun _ : True => hwrites) fun _ => hfresh
  have hp : p ∈ c.references := by simp [references, hbound]
  obtain ⟨hready, shadow, hshadow, hsynced⟩ := hcoherent.ready hbound hp
  have hin : InDriver (Device.ready.run c.device).2 c.references := by
    refine hready.inDriver ?_
    rw [(speaks_ready c.device).profile, hprofile]
    exact hglsl
  have hlocated := hin.located p hp stage u.kind
  rw [(speaks_ready c.device).driver, hdriver] at hlocated
  obtain ⟨first, last, hsplit, hfirst, -⟩ :=
    (hcoherent.wellFormed p hp).split_at hshader hu hfed
  have hslots : slotsBefore (first ++ fedUniforms stage before) stage u.kind =
      slotCount (before.filter (·.kind == u.kind)) := by
    rw [slotsBefore_append, slotsBefore_of_other hfirst, slotsBefore_fedUniforms, Nat.zero_add]
  have hword := hin.mirrored p hp shadow hshadow stage u.kind (by rw [hlocated]; exact hplace)
    (u.kind.lanes * slotCount (before.filter (·.kind == u.kind)) + i)
  rw [hlocated, ← hslots] at hword
  have hregisters : (c.perform .ready).device.registers = c.device.registers :=
    (speaks_ready c.device).registers
  rw [hregisters, ← hslots]
  exact hword ▸ hsynced trivial _ stage u _ hsplit hfile i hi

end Client

/-! ### A run -/

def twoArrayDriver : Driver :=
  Driver.second.withUniforms [("vs_uniforms_vec4", 3), ("ps_uniforms_vec4", 4)]

def fedShader : LoweredShader :=
  { LoweredShader.blank .glsl120 default with
    version := some ⟨.vertex, 2, 0⟩
    uniforms := [⟨.float, 5, 0, false⟩, ⟨.float, 9, 2, false⟩] }

theorem separates_twoArrayDriver : twoArrayDriver.SeparatesUniforms := by
  have hplaces : ∀ program name, 0 ≤ twoArrayDriver.uniformLocation program name →
      (name = "vs_uniforms_vec4" ∧ twoArrayDriver.uniformLocation program name = 3) ∨
        (name = "ps_uniforms_vec4" ∧ twoArrayDriver.uniformLocation program name = 4) := by
    intro program name hplace
    by_cases hv : name = "vs_uniforms_vec4"
    · exact Or.inl ⟨hv, by rw [hv]; rfl⟩
    · by_cases hp : name = "ps_uniforms_vec4"
      · exact Or.inr ⟨hp, by rw [hp]; rfl⟩
      · have hnone : twoArrayDriver.uniformLocation program name = -1 := by
          simp [twoArrayDriver, Driver.withUniforms, Driver.second, Driver.plain, List.lookup,
            beq_eq_false_iff_ne.mpr hv, beq_eq_false_iff_ne.mpr hp]
        rw [hnone] at hplace
        exact absurd hplace (by decide)
  intro program a b ha heq
  have hb := hplaces program b.text (heq ▸ ha)
  rcases hplaces program a.text ha with ⟨hname, hat⟩ | ⟨hname, hat⟩ <;>
    rcases hb with ⟨hname', hat'⟩ | ⟨hname', hat'⟩ <;> simp_all

def fedCompiled : CompiledShader := ⟨0, 1, .vertex, fedShader⟩

def fedProgram : LinkedProgram where
  id := 0
  names := ⟨2, 1, 0⟩
  vertex := some fedCompiled
  pixel := none
  uniforms := [(.vertex, ⟨.float, 5, 0, false⟩), (.vertex, ⟨.float, 9, 2, false⟩)]
  attributes := []
  setsPointSize := false
  bumpCount := 0
  locations := ⟨⟨3, -1, -1⟩, ⟨4, -1, -1⟩⟩

def fedRequests : List Request :=
  [.compileLowered fedShader, .setFloats .vertex 9 [⟨1⟩, ⟨2⟩, ⟨3⟩, ⟨4⟩],
    .bindShaders (some fedCompiled) none]

theorem uniforms_agree_when_ready_fed : ∃ d c,
    Device.create twoArrayDriver (.ofProfile .glsl120) = .ok d ∧ Client.Run d fedRequests c ∧
    FreshPrograms c.device.calls.toList ∧ c.device.bound = some fedProgram ∧
    ∀ i < 8, WordsAgree .float
      ((UniformMemory.replay (c.perform .ready).device.calls.toList).cells 2 3 (4 + i))
      (((c.perform .ready).device.registers.stage .vertex).word .float (36 + i)) := by
  obtain ⟨d, hd⟩ : ∃ d, Device.create twoArrayDriver (.ofProfile .glsl120) = .ok d := ⟨_, rfl⟩
  obtain ⟨c, hc⟩ : ∃ c, c = (((Client.new d).perform (.compileLowered fedShader)).perform
    (.setFloats .vertex 9 [⟨1⟩, ⟨2⟩, ⟨3⟩, ⟨4⟩]) |>.perform
    (.bindShaders (some fedCompiled) none)) := ⟨_, rfl⟩
  have hrun : Client.Run d fedRequests c := by
    have hcompiled := Client.Run.step (d := d) .start (.compileLowered fedShader) trivial
    have hwritten := hcompiled.step (.setFloats .vertex 9 [⟨1⟩, ⟨2⟩, ⟨3⟩, ⟨4⟩]) trivial
    refine hc ▸ hwritten.step (.bindShaders (some fedCompiled) none) ⟨fun s hs => ?_, by simp⟩
    obtain rfl := Option.some.inj hs
    cases hd
    exact List.mem_cons_self
  obtain ⟨hbound, hcalls⟩ : c.device.bound = some fedProgram ∧
      c.device.calls.toList = [.useProgram 0, .createShader (shaderKind .vertex) 1,
        .shaderSource 1 "", .createProgram 2, .attachShader 2 1, .linkProgram 2, .useProgram 2] := by
    subst hc
    cases hd
    exact ⟨rfl, rfl⟩
  have hfresh : FreshPrograms c.device.calls.toList := by
    rw [hcalls]
    decide
  have hshader : fedProgram.shader .vertex = some fedCompiled := rfl
  have huniforms : fedCompiled.code.uniforms =
      [⟨.float, 5, 0, false⟩] ++ ⟨.float, 9, 2, false⟩ :: [] := rfl
  exact ⟨d, c, hd, hrun, hfresh, hbound, Client.uniforms_agree_when_ready hd rfl
    separates_twoArrayDriver hrun (by simp [fedRequests, Request.Staged, fedCompiled]) (by decide)
    hfresh hbound hshader huniforms rfl (by decide) (by decide)⟩

end ShaderPipeline.Device
