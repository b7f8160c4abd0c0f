import ShaderPipeline.Proofs.Device.Client
import ShaderPipeline.Proofs.Device.Subjects

/-!
# What requests leave alone

Calls are only ever added to the record of a device, and only writes to registers change its
generation. Compiling, linking and drawing also keep the linked pairs and the bound program.
-/

namespace ShaderPipeline.Device

open Request

/-- A device that has made further calls and written no register. -/
structure Grows (d d' : Device) : Prop where
  calls : d.calls.toList <+: d'.calls.toList
  driver : d'.driver = d.driver
  profile : d'.profile = d.profile
  generation : d'.generation = d.generation

/-- A device that has also kept its linked pairs and its binding. -/
structure Steady (d d' : Device) : Prop extends Grows d d' where
  linkCache : d'.linkCache = d.linkCache
  bound : d'.bound = d.bound

theorem Grows.trans {d d' d'' : Device} (h : Grows d d') (h' : Grows d' d'') : Grows d d'' :=
  ⟨h.calls.trans h'.calls, h'.driver.trans h.driver, h'.profile.trans h.profile,
    h'.generation.trans h.generation⟩

theorem Grows.since {d e d' : Device} (h : Grows e d') (hcalls : e.calls = d.calls)
    (hdriver : e.driver = d.driver) (hprofile : e.profile = d.profile)
    (hgeneration : e.generation = d.generation) : Grows d d' :=
  ⟨hcalls ▸ h.calls, h.driver.trans hdriver, h.profile.trans hprofile,
    h.generation.trans hgeneration⟩

theorem Steady.trans {d d' d'' : Device} (h : Steady d d') (h' : Steady d' d'') : Steady d d'' :=
  ⟨h.toGrows.trans h'.toGrows, h'.linkCache.trans h.linkCache, h'.bound.trans h.bound⟩

theorem Speaks.steady {subjects : List Subject} {d d' : Device} (h : Speaks subjects d d') :
    Steady d d' := by
  obtain ⟨cs, hcs, -⟩ := h.calls
  exact ⟨⟨hcs ▸ List.prefix_append _ _, h.driver, h.profile, h.generation⟩, h.linkCache, h.bound⟩

section Steps

variable (d : Device) (p : Option LinkedProgram)

/-- A device of which only other parts have changed. -/
theorem Steady.of_eq {d d' : Device} (hcalls : d'.calls = d.calls) (hdriver : d'.driver = d.driver)
    (hprofile : d'.profile = d.profile) (hgeneration : d'.generation = d.generation)
    (hlinks : d'.linkCache = d.linkCache) (hbound : d'.bound = d.bound) : Steady d d' :=
  ⟨⟨hcalls ▸ List.prefix_refl _, hdriver, hprofile, hgeneration⟩, hlinks, hbound⟩

theorem steady_compile (bytes : Bytes) (options : Options) :
    Steady d ((compile bytes options).run.run d).2 := by
  have hlowered := (speaks_compileLowered
    { d with cache := (d.cache.get d.profile options bytes).2.2 }
    (d.cache.get d.profile options bytes).2.1).steady
  rw [compile_run]
  exact ⟨⟨hlowered.calls, hlowered.driver, hlowered.profile, hlowered.generation⟩,
    hlowered.linkCache, hlowered.bound⟩

theorem grows_switched : Grows d (d.switched p) := by
  have hcleared : Grows d (if p.isNone then d.cleared.arranged else d.cleared) := by
    split_ifs
    · exact (drawStep_arranged d.cleared).steady.toGrows.since rfl rfl rfl rfl
    · exact ⟨List.prefix_refl _, rfl, rfl, rfl⟩
  exact hcleared.trans ⟨calls_say _ _ ▸ List.prefix_append _ _, rfl, rfl, rfl⟩

theorem grows_bindHeld : Grows d ((bindHeld p).run d).2 := by
  rw [bindHeld_run]
  split_ifs
  · exact ⟨List.prefix_refl _, rfl, rfl, rfl⟩
  · exact (grows_switched d p).trans ((speaks_collected _).steady.toGrows.since rfl rfl rfl rfl)

theorem grows_bind : Grows d ((bind p).run d).2 := by
  rw [bind_run]
  exact (grows_bindHeld (d.withStore _) p).since rfl rfl rfl rfl

theorem core_bind : ∃ bound, ((bind p).run d).2.core = { d.core with bound } := by
  rw [bind_run]
  exact core_bindHeld (d.withStore _) p

theorem linkCache_bind : ((bind p).run d).2.linkCache = d.linkCache := by
  obtain ⟨bound, hcore⟩ := core_bind d p
  exact congrArg Core.linkCache hcore

theorem cache_bind : ((bind p).run d).2.cache = d.cache := by
  obtain ⟨bound, hcore⟩ := core_bind d p
  exact congrArg Core.cache hcore

theorem grows_bindShaders (vertex pixel : Option CompiledShader) :
    Grows d ((bindShaders vertex pixel).run.run d).2 := by
  have hlink := (speaks_link d vertex pixel).steady.toGrows
  refine bindShaders_induct (grows_bindHeld d none) (fun p _ => grows_bind d (some p))
    (fun e d' hrun => ?_) fun p d' hrun => ?_ <;> rw [hrun] at hlink
  · exact hlink
  · exact hlink.trans ((grows_bind _ (some p)).since rfl rfl rfl rfl)

end Steps

def Request.rebinds : Request → Bool
  | .bind .. | .bindShaders .. | .deleteShader .. => true
  | _ => false

/-- What the calls of a request are about, if it neither writes registers nor binds. -/
def Request.subjects : Request → List Subject
  | .compile .. | .compileLowered .. => [.object, .binding]
  | .link .. => [.object, .binding, .value]
  | .deleteProgram .. => [.object]
  | .setAttribute .. | .setDivisor .. => [.drawing]
  | .ready => [.value, .drawing]
  | _ => []

namespace Client

variable (c : Client) (r : Request)

theorem device_keepShader (x : Except DeviceError CompiledShader × Device) :
    (c.keepShader x).device = x.2 := by
  obtain ⟨r, d⟩ := x
  cases r <;> rfl

theorem device_keepProgram (x : Except DeviceError LinkedProgram × Device) :
    (c.keepProgram x).device = x.2 := by
  obtain ⟨r, d⟩ := x
  cases r <;> rfl

/-- The cache once it has been asked, if a request asks it. -/
def cacheAfter : Request → ShaderCache
  | .compile bytes options => (c.device.cache.get c.device.profile options bytes).2.2
  | _ => c.device.cache

/-- A request that neither writes registers nor binds makes calls about its subjects, once the cache
has been asked. -/
theorem speaks_perform (hwrite : r.isWrite = false) (hbinds : r.rebinds = false) :
    Speaks r.subjects { c.device with cache := c.cacheAfter r } (c.perform r).device := by
  cases r with
  | compile bytes options =>
    simp only [perform, device_keepShader, compile_run]
    exact speaks_compileLowered _ _
  | compileLowered code =>
    simp only [perform, device_keepShader]
    exact speaks_compileLowered c.device _
  | link vertex pixel =>
    simp only [perform, device_keepProgram]
    exact speaks_link c.device _ _
  | deleteProgram p =>
    simp only [perform, deleteProgram_run]
    have hdropped : Speaks [.object] c.device (c.device.withStore (c.device.store.dropProgram p)) :=
      .of_eq rfl rfl rfl
    exact hdropped.trans (speaks_collected _)
  | setBump unit matrix scale offset =>
    simp only [perform, setBump_run]
    rw [if_neg (by simpa [isWrite] using hwrite)]
    exact .of_eq rfl rfl rfl
  | setAttribute s f => exact (drawStep_setAttribute c.device s f).toSpeaks
  | setDivisor s n => exact (drawStep_setDivisor c.device s n).toSpeaks
  | ready => exact speaks_ready c.device
  | shareShader | shareProgram | dropShader | dropProgram =>
    exact .of_eq rfl rfl rfl
  | setFloats | setInts | setBools => simp [isWrite] at hwrite
  | bind | bindShaders | deleteShader => simp [rebinds] at hbinds

/-- A request that writes no register only adds calls. -/
theorem grows_perform (hr : r.isWrite = false) : Grows c.device (c.perform r).device := by
  cases hbinds : r.rebinds with
  | false =>
    exact (c.speaks_perform r hr hbinds).steady.toGrows.since rfl rfl rfl rfl
  | true =>
    cases r with
    | bind p => exact grows_bind _ p
    | bindShaders vertex pixel => exact grows_bindShaders _ _ _
    | deleteShader s =>
      simp only [perform, deleteShader_run]
      exact (speaks_collected _).steady.toGrows.since rfl rfl rfl rfl
    | _ => exact absurd hbinds Bool.false_ne_true

theorem perform_write (hr : r.isWrite = true) :
    ∃ files, c.perform r = { c with device := c.device.written files } := by
  cases r with
  | setFloats stage start values =>
    simp only [perform, setFloats_run]
    exact ⟨_, rfl⟩
  | setInts stage start values =>
    simp only [perform, setInts_run]
    exact ⟨_, rfl⟩
  | setBools stage start values =>
    simp only [perform, setBools_run]
    exact ⟨_, rfl⟩
  | setBump unit matrix scale offset =>
    simp only [perform, setBump_run]
    rw [if_pos (by simpa [isWrite] using hr)]
    exact ⟨_, rfl⟩
  | _ => simp [isWrite] at hr

/-- Calls are only ever added. -/
theorem calls_perform : c.device.calls.toList <+: (c.perform r).device.calls.toList := by
  cases hr : r.isWrite with
  | false => exact (c.grows_perform r hr).calls
  | true =>
    obtain ⟨files, hperform⟩ := c.perform_write r hr
    rw [hperform]
    exact List.prefix_refl _

theorem driver_perform : (c.perform r).device.driver = c.device.driver := by
  cases hr : r.isWrite with
  | false => exact (c.grows_perform r hr).driver
  | true =>
    obtain ⟨files, hperform⟩ := c.perform_write r hr
    rw [hperform]
    rfl

theorem profile_perform : (c.perform r).device.profile = c.device.profile := by
  cases hr : r.isWrite with
  | false => exact (c.grows_perform r hr).profile
  | true =>
    obtain ⟨files, hperform⟩ := c.perform_write r hr
    rw [hperform]
    rfl

theorem generation_perform :
    (c.perform r).device.generation = c.device.generation + if r.isWrite then 1 else 0 := by
  cases hr : r.isWrite with
  | false => simpa using (c.grows_perform r hr).generation
  | true =>
    obtain ⟨files, hperform⟩ := c.perform_write r hr
    rw [hperform]
    rfl

end Client

end ShaderPipeline.Device
