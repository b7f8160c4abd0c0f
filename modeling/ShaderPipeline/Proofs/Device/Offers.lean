import ShaderPipeline.Proofs.Device.Effects

/-!
# Profiles that are offered

A desktop driver is offered the profiles that pass their checks. An embedded driver is offered its
one profile unseen, and a device cannot be created for it if the driver has no shading language. An
embedded driver may well have none: the first versions do not, and the shading language is not asked
for below version two unless extensions announce it.
-/

namespace ShaderPipeline.Device

open List Capabilities Device

/-! ### What a driver says of itself -/

namespace Driver

variable (d : Driver)

def Embedded : Prop := "OpenGL ES ".toList <+: d.version.toList

/-- The version in the text, behind the name of an embedded driver if there is one. -/
def number : DriverVersion := versionOfText ((textAfter? "OpenGL ES " d.version).getD d.version)

def AsksShading : Prop :=
  reaches d.number (2, 0) = true ∨
    ∀ e ∈ shadingExtensions, e.name ∈ listedNames d d.number

/-- The driver has a shading language of at least a version. -/
def Shades (v : DriverVersion) : Prop :=
  d.AsksShading ∧ ∃ text, d.shadingVersion = some text ∧
    reaches (shadingOfText text) v = true

end Driver

namespace Capabilities

variable {d : Driver} {c : Capabilities} {p : Profile}

theorem embedded_ofDriver : (ofDriver d).embedded = true ↔ d.Embedded := by
  have hstart : (textAfter? "OpenGL ES " d.version).isSome = true ↔
      "OpenGL ES ".toList.isPrefixOf d.version.toList = true := by
    rw [textAfter?]
    split_ifs with h
    · exact iff_of_true rfl h
    · exact iff_of_false (nomatch ·) h
  exact hstart.trans isPrefixOf_iff_prefix

/-- An extension that is part of no version is there if it is listed. -/
theorem contains_extensions_ofDriver {e : Extension}
    (hcore : isCore (ofDriver d).embedded d.number e = false) :
    (ofDriver d).extensions.contains e = true ↔ e.name ∈ listedNames d d.number := by
  have hall : e ∈ Extension.all := by cases e <;> decide
  rw [contains_iff_mem, ofDriver, mem_filter]
  change e ∈ _ ∧ (_ || isCore (ofDriver d).embedded d.number e) = true ↔ _
  rw [hcore, Bool.or_false, contains_iff_mem]
  exact and_iff_right hall

theorem isCore_of_mem_shadingExtensions {e : Extension} (he : e ∈ shadingExtensions)
    (embedded : Bool) (v : DriverVersion) : isCore embedded v e = false := by
  simp only [shadingExtensions, mem_cons, not_mem_nil, or_false] at he
  rcases he with rfl | rfl | rfl | rfl <;> rfl

theorem shading_ofDriver :
    (ofDriver d).shading = if reaches d.number (2, 0) ||
      shadingExtensions.all ((ofDriver d).extensions.contains ·)
      then d.shadingVersion.map shadingOfText else none := by
  simp only [ofDriver, Driver.number]
  rfl

theorem shadingReaches_ofDriver {v : DriverVersion} :
    (ofDriver d).shadingReaches v = true ↔ d.Shades v := by
  have hasks : (reaches d.number (2, 0) ||
      shadingExtensions.all ((ofDriver d).extensions.contains ·)) = true ↔ d.AsksShading := by
    rw [Bool.or_eq_true, all_eq_true]
    refine or_congr_right (forall₂_congr fun e he => ?_)
    exact contains_extensions_ofDriver (isCore_of_mem_shadingExtensions he _ _)
  rw [shadingReaches, shading_ofDriver, Driver.Shades, ← hasks]
  split_ifs with h
  · rw [and_iff_right h]
    cases d.shadingVersion with
    | none => simp
    | some text => simp
  · exact iff_of_false (nomatch ·) fun hshades => h hshades.1

/-! ### What is offered -/

theorem check_eq_ok_iff : c.check p = .ok () ↔ c.missing? p = none := by
  rw [check]
  cases c.missing? p <;> simp

theorem mem_available_of_best (h : c.best = .ok p) : p ∈ c.available := by
  unfold best at h
  split at h
  case h_1 q rest hoffers =>
    obtain rfl := Except.ok.inj h
    rw [hoffers]
    exact mem_cons_self
  case h_2 => exact nomatch h

theorem check_of_mem_available (h : p ∈ c.available) :
    (c.embedded = false ∧ c.check p = .ok ()) ∨ (c.embedded = true ∧ p = .glslEs) := by
  unfold available at h
  split_ifs at h with hembedded
  · exact .inr ⟨hembedded, mem_singleton.mp h⟩
  · refine .inl ⟨by simpa using hembedded, check_eq_ok_iff.mpr ?_⟩
    exact Option.isNone_iff_eq_none.mp (mem_filter.mp h).2

theorem check_glslEs (c : Capabilities) :
    c.check .glslEs = if c.shadingReaches (1, 0) then .ok ()
      else .error (.profileNeeds .glslEs "missing GLSL support") := by
  unfold check missing? shadingNeeded?
  dsimp only
  split_ifs <;> rfl

end Capabilities

/-! ### Devices for what is offered -/

theorem create_of_check_error {driver : Driver} {config : Config} {e : DeviceError}
    (h : (ofDriver driver).check config.profile = .error e) :
    create driver config = .error e := by
  simp only [create, h]
  rfl

theorem create_eq_ok_iff {driver : Driver} {config : Config} :
    (∃ d, create driver config = .ok d) ↔
      (ofDriver driver).check config.profile = .ok () := by
  cases h : (ofDriver driver).check config.profile with
  | error e => simp [create_of_check_error h]
  | ok =>
    have hcreate : create driver config =
        .ok ((blank driver config).say (useCalls config.profile.isGlsl (namesOf none))) := by
      simp only [create, h]
      rfl
    exact iff_of_true ⟨_, hcreate⟩ rfl

/-- Of the profiles that a driver is offered, those of desktop drivers can all be used. The one of
an embedded driver can be used exactly if the driver has a shading language of version 1.0 at least;
otherwise no device can be created for it. -/
theorem offered_usable_iff {driver : Driver} {p : Profile}
    (hoffered : (Capabilities.ofDriver driver).best = .ok p ∨
      p ∈ (Capabilities.ofDriver driver).available) :
    ((Capabilities.ofDriver driver).check p = .ok () ↔
      (driver.Embedded → driver.Shades (1, 0))) ∧
    ∀ config : Config, config.profile = p →
      ((driver.Embedded → driver.Shades (1, 0)) → ∃ d, Device.create driver config = .ok d) ∧
      (driver.Embedded → ¬driver.Shades (1, 0) →
        Device.create driver config =
          .error (.profileNeeds .glslEs "missing GLSL support")) := by
  have havailable := hoffered.elim Capabilities.mem_available_of_best id
  have hcheck : (Capabilities.ofDriver driver).check p = .ok () ↔
      (driver.Embedded → driver.Shades (1, 0)) := by
    rcases Capabilities.check_of_mem_available havailable with ⟨hdesktop, hok⟩ | ⟨hembedded, rfl⟩
    · refine iff_of_true hok fun h => ?_
      rw [← Capabilities.embedded_ofDriver, hdesktop] at h
      exact nomatch h
    · rw [Capabilities.check_glslEs, ← Capabilities.embedded_ofDriver,
        ← Capabilities.shadingReaches_ofDriver]
      split_ifs with hshades <;> simp [hembedded, hshades]
  refine ⟨hcheck, fun config hconfig => ⟨fun h => ?_, fun hembedded hshades => ?_⟩⟩
  · exact create_eq_ok_iff.mpr (hconfig ▸ hcheck.mpr h)
  · refine create_of_check_error ?_
    rcases Capabilities.check_of_mem_available havailable with ⟨hdesktop, -⟩ | ⟨-, rfl⟩
    · rw [← Capabilities.embedded_ofDriver, hdesktop] at hembedded
      exact nomatch hembedded
    · rw [hconfig, Capabilities.check_glslEs, if_neg]
      exact fun h => hshades (Capabilities.shadingReaches_ofDriver.mp h)

/-- An embedded driver without a shading language. -/
def unshadedDriver : Driver := .plain "OpenGL ES 2.0" none []

/-- It is offered the embedded profile as its best one, and no device can be created for it. -/
theorem offered_usable_iff_unshaded :
    (Capabilities.ofDriver unshadedDriver).best = .ok .glslEs ∧
    ∀ config : Config, config.profile = .glslEs →
      Device.create unshadedDriver config =
        .error (.profileNeeds .glslEs "missing GLSL support") := by
  have hbest : (Capabilities.ofDriver unshadedDriver).best = .ok .glslEs := by decide
  have hembedded : unshadedDriver.Embedded :=
    Capabilities.embedded_ofDriver.mp (by decide)
  have hshades : ¬unshadedDriver.Shades (1, 0) := fun ⟨_, _, h, _⟩ => nomatch h
  exact ⟨hbest, fun config hconfig =>
    ((offered_usable_iff (.inl hbest)).2 config hconfig).2 hembedded hshades⟩

end ShaderPipeline.Device
