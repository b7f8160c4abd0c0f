import ShaderPipeline.Proofs.Device.Passes
import ShaderPipeline.Proofs.Preshader.Carried

/-!
# Commits

A commit first settles which shaders are in use, and then supplies their registers. The first part
writes no register. The second marks the registers as changed when it is through; if the preshader
of a shader in use fails, it does not get there, and what was written until then stays.

A second commit finds everything settled: it selects the same shaders, binds nothing else and feeds
the same values into preshaders. The registers are the same too, except for those which a preshader
computes from what it left there before.
-/

namespace ShaderPipeline.Device

open PerStage Playback Effect.ShaderObject Writes Option

variable {p : Playback} {files : RegisterFiles}

/-! ### Registers and binding -/

section Binding

variable (d : Device)

theorem registers_bindHeld (p : Option LinkedProgram) :
    ((bindHeld p).run d).2.registers = d.registers := by
  obtain ⟨bound, hcore⟩ := core_bindHeld d p
  exact congrArg Core.registers hcore

theorem registers_bindShaders (vertex pixel : Option CompiledShader) :
    ((bindShaders vertex pixel).run.run d).2.registers = d.registers := by
  have hlink := (speaks_link d vertex pixel).registers
  refine bindShaders_induct (P := fun d' => d'.registers = d.registers) (registers_bindHeld d none)
    (fun p _ => registers_bindHeld _ (some p)) (fun e d' hrun => ?_) fun p d' hrun => ?_ <;>
    rw [hrun] at hlink
  · exact hlink
  · exact (registers_bindHeld _ (some p)).trans hlink

theorem sameProgram_bindHeld (p : Option LinkedProgram) :
    sameProgram p ((bindHeld p).run d).2.bound = true := by
  rw [bindHeld_run]
  split_ifs with hsame
  · exact hsame
  · cases p with
    | none => rfl
    | some p => exact beq_self_eq_true p.id

variable {d}

theorem bindHeld_of_same {p : Option LinkedProgram} (h : sameProgram p d.bound = true) :
    (bindHeld p).run d = ((), d.withStore (d.store.dropProgram? p)) := by
  rw [bindHeld_run, if_pos h]

theorem bindShaders_again {vertex pixel : Option CompiledShader} {d₁ d₂ : Device}
    (hrun : (bindShaders vertex pixel).run.run d = (.ok (), d₁)) (hbound : d₂.bound = d₁.bound)
    (hlinks : d₂.linkCache = d₁.linkCache) :
    ∃ store, (bindShaders vertex pixel).run.run d₂ = (.ok (), d₂.withStore store) := by
  by_cases hnone : vertex.isNone = true ∧ pixel.isNone = true
  · rw [isNone_iff_eq_none.mp hnone.1, isNone_iff_eq_none.mp hnone.2, bindShaders_none] at hrun ⊢
    have hsame := sameProgram_bindHeld d none
    rw [(Prod.mk.inj hrun).2, ← hbound] at hsame
    exact ⟨_, by rw [bindHeld_of_same hsame]⟩
  · -- The program is kept for the pair from the first time on.
    have hkept : ∃ q, d₁.cached? vertex pixel = some q ∧ sameProgram (some q) d₁.bound = true := by
      rw [bindShaders_run hnone] at hrun
      cases hcached : d.cached? vertex pixel with
      | some q =>
        rw [hcached] at hrun
        obtain rfl := (Prod.mk.inj hrun).2
        refine ⟨q, ?_, sameProgram_bindHeld _ (some q)⟩
        rw [cached?, linkCache_bind, ← cached?, hcached]
      | none =>
        have hlink := (speaks_link d vertex pixel).linkCache
        rw [hcached] at hrun
        rcases hlinked : (link vertex pixel).run.run d with ⟨r, d'⟩
        rw [hlinked] at hrun hlink
        cases r with
        | error e => exact absurd (Prod.mk.inj hrun).1 (by simp)
        | ok q =>
          obtain rfl := (Prod.mk.inj hrun).2
          refine ⟨q, ?_, sameProgram_bindHeld _ (some q)⟩
          rw [cached?, linkCache_bind, hlink, List.lookup_append, ← cached?, hcached]
          simp
    obtain ⟨q, hcached, hsame⟩ := hkept
    have hcached' : d₂.cached? vertex pixel = some q := by rw [cached?, hlinks, ← cached?, hcached]
    rw [← hbound] at hsame
    have hheld :
        sameProgram (some q) (d₂.withStore (d₂.store.holdProgram? (some q))).bound = true := hsame
    refine ⟨(d₂.store.holdProgram? (some q)).dropProgram? (some q), ?_⟩
    rw [bindShaders_run hnone, hcached']
    dsimp only
    rw [bind_run, bindHeld_of_same hheld]
    rfl

end Binding

namespace PlaybackM

/-! ### The two parts of a commit -/

def settle : PlaybackM Unit := do
  let vertex ← select .vertex
  let pixel ← select .pixel
  if vertex || pixel then
    bindCurrent

def supplying : PlaybackM Unit := do
  feed .vertex
  feed .pixel
  device touch

variable {α β : Type} {p : Playback} {d : Device} (pass : Nat)

theorem commit_outcome : commit.outcome p d = (settle >>= fun _ => supplying).outcome p d := by
  unfold commit settle
  rw [outcome_bind, outcome_bind, outcome_bind]
  rcases (select .vertex).outcome p d with ⟨⟨_ | vertex, p₁⟩, d₁⟩
  · rfl
  · dsimp only
    rw [outcome_bind, outcome_bind]
    rcases (select .pixel).outcome p₁ d₁ with ⟨⟨_ | pixel, p₂⟩, d₂⟩
    · rfl
    · dsimp only
      split_ifs
      · exact outcome_bind _ _ _ _
      · rfl

/-- If no preshader fails, the registers are supplied and marked. -/
theorem supplying_of_none (h : p.supplyAll d.registers = (none, files)) :
    supplying.outcome p d = ((.ok (), (p.fed .vertex).fed .pixel), d.written files) := by
  unfold supplyAll at h
  dsimp only at h
  unfold supplying
  rw [outcome_bind, feed_outcome]
  cases hvertex : (p.supply .vertex (d.registers.stage .vertex)).1 with
  | some fault => simp [hvertex] at h
  | none =>
    rw [hvertex] at h
    obtain ⟨hpixel, rfl⟩ := Prod.mk.inj h
    dsimp only
    rw [outcome_bind, feed_outcome, supply_fed, hpixel]
    rfl

/-- If a preshader fails, the registers keep what was written, and are not marked. -/
theorem supplying_of_some {fault : PreshaderError}
    (h : p.supplyAll d.registers = (some fault, files)) : ∃ p',
      supplying.outcome p d = ((.error (.preshader fault), p'), { d with registers := files }) := by
  unfold supplyAll at h
  dsimp only at h
  unfold supplying
  rw [outcome_bind, feed_outcome]
  cases hvertex : (p.supply .vertex (d.registers.stage .vertex)).1 with
  | some fault' =>
    rw [hvertex] at h
    obtain ⟨hfault, rfl⟩ := Prod.mk.inj h
    rw [some.inj hfault]
    exact ⟨_, rfl⟩
  | none =>
    rw [hvertex] at h
    obtain ⟨hpixel, rfl⟩ := Prod.mk.inj h
    dsimp only
    rw [outcome_bind, feed_outcome, supply_fed, hpixel]
    exact ⟨_, rfl⟩

/-- Supplying succeeds only if no preshader fails. -/
theorem exists_of_supplying {p' : Playback} {d' : Device}
    (h : supplying.outcome p d = ((.ok (), p'), d')) : ∃ files,
      p.supplyAll d.registers = (none, files) ∧ p' = (p.fed .vertex).fed .pixel ∧
      d' = d.written files := by
  rcases hsupply : p.supplyAll d.registers with ⟨_ | fault, files⟩
  · rw [supplying_of_none hsupply] at h
    obtain ⟨hplayback, rfl⟩ := Prod.mk.inj h
    exact ⟨files, rfl, (Prod.mk.inj hplayback).2.symm, rfl⟩
  · obtain ⟨q, hrun⟩ := supplying_of_some hsupply
    rw [hrun] at h
    exact absurd (Prod.mk.inj (Prod.mk.inj h).1).1 (by simp)

/-! ### Steps that spare the registers -/

/-- A step writes no register and does not mark them. -/
def Spares (m : PlaybackM α) : Prop :=
  ∀ p d, (m.outcome p d).2.registers = d.registers ∧ (m.outcome p d).2.generation = d.generation

theorem Spares.bind {m : PlaybackM α} {f : α → PlaybackM β} (hm : m.Spares)
    (hf : ∀ a, (f a).Spares) : (m >>= f).Spares := by
  intro p d
  have hfirst := hm p d
  rw [outcome_bind]
  rcases hrun : m.outcome p d with ⟨⟨_ | a, p'⟩, d'⟩ <;> rw [hrun] at hfirst
  · exact hfirst
  · obtain ⟨hregisters, hgeneration⟩ := hf a p' d'
    exact ⟨hregisters.trans hfirst.1, hgeneration.trans hfirst.2⟩

theorem spares_bindCurrent : bindCurrent.Spares := fun p d =>
  ⟨registers_bindShaders d p.current.vertex p.current.pixel,
    (grows_bindShaders d p.current.vertex p.current.pixel).generation⟩

theorem spares_select (stage : Stage) : (select stage).Spares := by
  intro p d
  have h := chooses_select (p := p) (d := d) stage
  generalize (select stage).outcome p d = r at h
  cases h <;> exact ⟨rfl, rfl⟩

theorem spares_settle : settle.Spares := by
  refine (spares_select .vertex).bind fun vertex => (spares_select .pixel).bind fun pixel => ?_
  split_ifs
  · exact spares_bindCurrent
  · exact fun _ _ => ⟨rfl, rfl⟩

/-- What beginning a pass does before it commits. -/
def opening : PlaybackM Unit := do
  adoptBound
  let (pass, effect) ← usage ((← get).effect.beginPass pass)
  modify fun p => { p with effect }
  let selects ← applyStates pass.states
  if !selects then
    bindCurrent

theorem beginPass_outcome :
    (beginPass pass).outcome p d = (opening pass >>= fun _ => commit).outcome p d := by
  unfold beginPass opening
  rw [outcome_bind, outcome_bind, outcome_bind]
  rcases adoptBound.outcome p d with ⟨⟨_ | _, p₁⟩, d₁⟩
  · rfl
  · dsimp only
    rw [outcome_get_bind, outcome_get_bind, outcome_bind, outcome_bind, outcome_usage]
    rcases p₁.effect.beginPass pass with _ | ⟨pass, effect⟩
    · rfl
    · dsimp only [Except.mapError]
      rw [outcome_modify_bind, outcome_modify_bind, outcome_bind, outcome_bind]
      rcases (applyStates pass.states).outcome _ d₁ with ⟨⟨_ | selects, p₂⟩, d₂⟩
      · rfl
      · dsimp only
        split_ifs
        · exact outcome_bind _ _ _ _
        · rfl

theorem spares_opening : (opening pass).Spares := by
  refine Spares.bind ?_ fun _ => ?_
  · intro p d
    obtain ⟨store, hrun⟩ := adoptBound_outcome (p := p) (d := d)
    rw [hrun]
    exact ⟨rfl, rfl⟩
  · refine Spares.bind (fun _ _ => ⟨rfl, rfl⟩) fun p => Spares.bind ?_ fun r => ?_
    · intro p' d
      rw [outcome_usage]
      exact ⟨rfl, rfl⟩
    · refine Spares.bind (fun _ _ => ⟨rfl, rfl⟩) fun _ => Spares.bind ?_ fun selects => ?_
      · intro p d
        obtain ⟨store, hrun⟩ := applyStates_outcome (p := p) (d := d) r.1.states
        rw [hrun]
        exact ⟨rfl, rfl⟩
      · split_ifs
        · exact spares_bindCurrent
        · exact fun _ _ => ⟨rfl, rfl⟩

end PlaybackM

/-! ### Changes that go unnoticed -/

/-- The calls that supply registers. -/
inductive PassCall where
  | beginPass (pass : Nat)
  | commit

namespace PassCall

def run : PassCall → PlaybackM Unit
  | .beginPass i => PlaybackM.beginPass i
  | .commit => PlaybackM.commit

/-- What a call does before it supplies registers. -/
def settling : PassCall → PlaybackM Unit
  | .beginPass i => do
    PlaybackM.opening i
    PlaybackM.settle
  | .commit => PlaybackM.settle

theorem spares_settling (c : PassCall) : c.settling.Spares := by
  cases c with
  | beginPass pass => exact (PlaybackM.spares_opening pass).bind fun _ => PlaybackM.spares_settle
  | commit => exact PlaybackM.spares_settle

theorem run_outcome (c : PassCall) (p : Playback) (d : Device) :
    c.run.outcome p d = (c.settling >>= fun _ => PlaybackM.supplying).outcome p d := by
  cases c with
  | beginPass pass =>
    rw [run, PlaybackM.beginPass_outcome, settling, PlaybackM.outcome_bind, PlaybackM.outcome_bind,
      PlaybackM.outcome_bind]
    rcases (PlaybackM.opening pass).outcome p d with ⟨⟨_ | _, p₁⟩, d₁⟩
    · rfl
    · exact PlaybackM.commit_outcome.trans (PlaybackM.outcome_bind _ _ _ _)
  | commit => exact PlaybackM.commit_outcome

/-- A call that succeeds marks the registers as changed, and one that fails does not. The changes
that go unnoticed are therefore those of a call that gets as far as supplying registers, and whose
registers have changed by the time a preshader of a shader in use fails. -/
theorem unnoticed_change_iff (c : PassCall) (p : Playback) (d : Device) :
    ((c.run.outcome p d).1.1 = .ok () → (c.run.outcome p d).2.generation = d.generation + 1) ∧
    (∀ e, (c.run.outcome p d).1.1 = .error e →
      (c.run.outcome p d).2.generation = d.generation) ∧
    ((c.run.outcome p d).2.registers ≠ d.registers ∧
        (c.run.outcome p d).2.generation = d.generation ↔
      ∃ p' d' fault files, c.settling.outcome p d = ((.ok (), p'), d') ∧
        p'.supplyAll d.registers = (some fault, files) ∧ files ≠ d.registers) := by
  obtain ⟨hregisters, hgeneration⟩ := c.spares_settling p d
  rw [run_outcome, PlaybackM.outcome_bind]
  rcases hsettling : c.settling.outcome p d with ⟨⟨e | _, p'⟩, d'⟩ <;>
    rw [hsettling] at hregisters hgeneration
  · refine ⟨fun h => ?_, fun _ _ => hgeneration, fun h => absurd hregisters h.1, ?_⟩
    · simp at h
    · rintro ⟨p', d', fault, files, hok, -⟩
      simp at hok
  · dsimp only
    rcases hsupply : p'.supplyAll d.registers with ⟨_ | fault, files⟩
    · rw [PlaybackM.supplying_of_none (hregisters ▸ hsupply)]
      have hmarked : (d'.written files).generation = d.generation + 1 :=
        congrArg (· + 1) hgeneration
      refine ⟨fun _ => hmarked, fun e he => absurd he (by simp), fun h => ?_, ?_⟩
      · exact absurd (hmarked.symm.trans h.2) (by simp)
      · rintro ⟨p'', d'', fault, files', hok, hfault, -⟩
        obtain rfl := (Prod.mk.inj (Prod.mk.inj hok).1).2
        rw [hsupply] at hfault
        exact absurd (Prod.mk.inj hfault).1 (by simp)
    · obtain ⟨q, hrun⟩ := PlaybackM.supplying_of_some (hregisters ▸ hsupply)
      rw [hrun]
      refine ⟨fun h => absurd h (by simp), fun _ _ => hgeneration, fun h => ?_, ?_⟩
      · exact ⟨p', d', fault, files, rfl, hsupply, h.1⟩
      · rintro ⟨p'', d'', fault', files', hok, hfault, hne⟩
        obtain rfl := (Prod.mk.inj (Prod.mk.inj hok).1).2
        rw [hsupply] at hfault
        rw [← (Prod.mk.inj hfault).2] at hne
        exact ⟨hne, hgeneration⟩

end PassCall

/-! ### A preshader that fails -/

def soloEffect (params : List Effect.Param) (code : LoweredShader) (links : List Nat) : Effect where
  profile := .glsl120
  diagnostics := []
  params := params
  techniques := []
  objects := #[⟨.vertexShader, .shader ⟨none, none, .shader code, links, [], []⟩⟩]
  technique := none
  pass := none

def soloPlayback (effect : Effect) : Playback where
  effect := effect
  shaders := []
  selectors := []
  current := .both none
  named := ⟨some 0, none⟩
  selected := .both none
  saved := none
  restores := false
  active := true

def soloDevice : Device :=
  { blank .second (.ofProfile .glsl120) with
    registers := ⟨.both ⟨Array.replicate 2 .zero, #[], #[]⟩, #[]⟩ }

/-- A preshader with an instruction that is not handled. -/
def noisePreshader : Preshader where
  literals := #[.zero]
  tempCount := 0
  symbols := []
  registers := #[]
  instructions := [⟨.noise, 1, [⟨.literal, 0, []⟩, ⟨.output, 1, []⟩]⟩]

def noiseEffect : Effect :=
  soloEffect [⟨⟨none, none, ⟨.scalar, .float, 1, 1, 0, []⟩, .registers [0x3F800000]⟩, []⟩]
    { LoweredShader.blank .glsl120 default with
      symbols := [⟨"scale", .float4, 0, 1, ⟨.scalar, .float, 1, 1, 0, []⟩⟩]
      preshader := some noisePreshader } [0]

/-- The parameter is written, and when the preshader fails, that goes unnoticed. -/
theorem unnoticed_change_noise :
    let after := (PassCall.commit.run.outcome (soloPlayback noiseEffect) soloDevice).2
    after.registers ≠ soloDevice.registers ∧ after.generation = soloDevice.generation := by
  obtain ⟨-, -, hiff⟩ := PassCall.unnoticed_change_iff .commit (soloPlayback noiseEffect) soloDevice
  exact hiff.mpr ⟨_, _, _, _, rfl, rfl, by decide⟩

/-! ### Playbacks that are settled and fed -/

open PlaybackM (shaderObject?)

namespace Playback

def Settled (p : Playback) (stage : Stage) : Prop :=
  match p.selector? stage with
  | none => p.selected.get stage = p.named.get stage
  | some selector => ∃ chosen, p.effect.choice selector = .ok chosen ∧
      p.effect.IsPrimed selector ∧ p.selected.get stage = some chosen ∧
      ∀ x, p.shader? chosen = some x → p.current.get stage = some x

def IsFed (p : Playback) (stage : Stage) : Prop :=
  ∀ object ∈ p.selected.get stage,
    (shaderObject? p.effect object).any (·.isSelector) = false → p.effect.IsPrimed object

variable {p : Playback} {stage : Stage}

theorem IsFed.fed_eq (h : p.IsFed stage) : p.fed stage = p := by
  have heffect : ∀ effect, effect = p.effect → { p with effect } = p := by rintro _ rfl; rfl
  refine heffect _ ?_
  cases hobject : p.selected.get stage with
  | none => rfl
  | some object =>
    dsimp only [Option.elim]
    split_ifs with hselector
    · rfl
    · exact (h object hobject (Bool.eq_false_iff.mpr hselector)).primed_eq

/-- Feeding changes the effect only by feeding one of its preshaders. -/
theorem effect_fed (P : Effect → Prop) (h : P p.effect) (hprimed : ∀ n, P (p.effect.primed n)) :
    P (p.fed stage).effect := by
  unfold fed
  cases p.selected.get stage with
  | none => exact h
  | some object =>
    dsimp only [Option.elim]
    split_ifs
    · exact h
    · exact hprimed object

theorem isSelector_primed (e : Effect) (n m : Nat) :
    (shaderObject? (e.primed n) m).any (·.isSelector) =
      (shaderObject? e m).any (·.isSelector) := by
  rw [Effect.shaderObject?_primed]
  cases shaderObject? e m with
  | none => rfl
  | some x =>
    simp only [map_some, any_some]
    split_ifs
    · cases hcode : x.code with
      | selector pre =>
        rw [primed_of_selector hcode]
        simp [isSelector, hcode]
      | shader code =>
        rw [primed_of_shader hcode]
        simp [isSelector, hcode]
    · rfl

theorem isFed_fed (p : Playback) (stage : Stage) : (p.fed stage).IsFed stage := by
  intro object hobject hselector
  have hselected : p.selected.get stage = some object := hobject
  unfold fed at hselector ⊢
  rw [hselected] at hselector ⊢
  dsimp only [Option.elim] at hselector ⊢
  split_ifs at hselector ⊢ with h
  · simp [hselector] at h
  · exact p.effect.isPrimed_primed object

theorem IsFed.fed (h : p.IsFed stage) (stage' : Stage) : (p.fed stage').IsFed stage := by
  intro object hobject
  refine effect_fed (fun e => (shaderObject? e object).any (·.isSelector) = false →
    e.IsPrimed object) (h object hobject) fun n hselector => ?_
  rw [isSelector_primed] at hselector
  exact (h object hobject hselector).primed n

theorem Settled.fed (h : p.Settled stage) (stage' : Stage) : (p.fed stage').Settled stage := by
  have hselector : (p.fed stage').selector? stage = p.selector? stage := rfl
  unfold Settled at h ⊢
  rw [hselector]
  cases hs : p.selector? stage with
  | none =>
    rw [hs] at h
    exact h
  | some selector =>
    rw [hs] at h
    obtain ⟨chosen, hchoice, hprimed, hselected, hcurrent⟩ := h
    refine ⟨chosen, ?_, ?_, hselected, hcurrent⟩
    · exact effect_fed (·.choice selector = .ok chosen) hchoice fun n =>
        (Effect.choice_primed _ n selector).trans hchoice
    · exact effect_fed (·.IsPrimed selector) hprimed hprimed.primed

end Playback

namespace PlaybackM

variable {p p' : Playback} {d d' : Device} {stage : Stage} {selects : Bool}

theorem settled_of_select (h : Chooses p d stage ((.ok selects, p'), d')) :
    p'.Settled stage ∧ selects = (p'.selector? stage).isSome := by
  unfold Playback.Settled
  cases h with
  | named hnone =>
    have hselector : selector? { p with
        selected := p.selected.set stage (p.named.get stage) } stage = none := hnone
    rw [hselector]
    exact ⟨get_set _ _ _, rfl⟩
  | @chose selector chosen hsome hchosen store =>
    have hselector : (p.chose stage selector chosen).selector? stage = some selector := hsome
    rw [hselector]
    refine ⟨⟨chosen, ?_, p.effect.isPrimed_primed selector, get_set _ _ _, fun x hx => ?_⟩, rfl⟩
    · exact (Effect.choice_primed _ _ _).trans hchosen
    · have hx' : p.shader? chosen = some x := hx
      rw [chose, hx']
      exact get_set _ _ _

theorem settled_select {stage' : Stage} (hsettled : p.Settled stage') (hne : stage' ≠ stage)
    (h : Chooses p d stage ((.ok selects, p'), d')) : p'.Settled stage' := by
  unfold Playback.Settled at hsettled ⊢
  cases h with
  | named hnone =>
    simp only [get_set_of_ne _ _ hne]
    exact hsettled
  | @chose selector chosen hsome hchosen store =>
    have hselector : (p.chose stage selector chosen).selector? stage' = p.selector? stage' := rfl
    rw [hselector]
    cases hs : p.selector? stage' with
    | none =>
      rw [hs] at hsettled
      exact (get_set_of_ne _ _ hne).trans hsettled
    | some other =>
      rw [hs] at hsettled
      obtain ⟨chosen', hchoice, hprimed, hselected, hcurrent⟩ := hsettled
      refine ⟨chosen', (Effect.choice_primed _ _ _).trans hchoice, hprimed.primed selector,
        (get_set_of_ne _ _ hne).trans hselected, fun x hx => ?_⟩
      have hkept : (p.chose stage selector chosen).current.get stage' = p.current.get stage' := by
        unfold chose
        cases p.shader? chosen with
        | none => rfl
        | some y => exact get_set_of_ne _ _ hne
      exact hkept.trans (hcurrent x hx)

theorem select_of_settled (h : p.Settled stage) : ∃ store, (select stage).outcome p d =
    ((.ok (p.selector? stage).isSome, p), d.withStore store) := by
  have hchooses := chooses_select (p := p) (d := d) stage
  generalize (select stage).outcome p d = r at hchooses
  unfold Playback.Settled at h
  cases hchooses with
  | named hnone =>
    rw [hnone] at h ⊢
    refine ⟨d.store, ?_⟩
    rw [← h, set_get]
    rfl
  | failed hsome effect he =>
    rw [hsome] at h
    obtain ⟨chosen, hchoice, -⟩ := h
    exact absurd (he.symm.trans hchoice) (by simp)
  | @chose selector chosen hsome hchosen store =>
    rw [hsome] at h ⊢
    obtain ⟨chosen', hchoice, hprimed, hselected, hcurrent⟩ := h
    obtain rfl := Except.ok.inj (hchosen.symm.trans hchoice)
    refine ⟨store, ?_⟩
    have hsame : p.chose stage selector chosen = p := by
      have hcurrent' : (p.shader? chosen).elim p.current (fun x => p.current.set stage (some x)) =
          p.current := by
        cases hx : p.shader? chosen with
        | none => rfl
        | some x =>
          dsimp only [Option.elim]
          rw [← hcurrent x hx, set_get]
      rw [chose, hcurrent', hprimed.primed_eq, ← hselected, set_get]
    rw [hsame]
    rfl

/-- A playback both of whose stages are settled, on a device that has bound their shaders if one
of them has a selector. -/
structure SettledOn (p : Playback) (d : Device) : Prop where
  stages : ∀ stage, p.Settled stage
  bound : ((p.selector? .vertex).isSome || (p.selector? .pixel).isSome) = true → ∃ d₀ d₁,
    (bindShaders p.current.vertex p.current.pixel).run.run d₀ = (.ok (), d₁) ∧
      d.bound = d₁.bound ∧ d.linkCache = d₁.linkCache

theorem exists_of_bind_ok {α β : Type} {m : PlaybackM α} {f : α → PlaybackM β} {b : β}
    (h : (m >>= f).outcome p d = ((.ok b, p'), d')) : ∃ a p₁ d₁,
      m.outcome p d = ((.ok a, p₁), d₁) ∧ (f a).outcome p₁ d₁ = ((.ok b, p'), d') := by
  rw [outcome_bind] at h
  rcases hm : m.outcome p d with ⟨⟨e | a, p₁⟩, d₁⟩ <;> rw [hm] at h
  · exact absurd (Prod.mk.inj (Prod.mk.inj h).1).1 (by simp)
  · exact ⟨a, p₁, d₁, rfl, h⟩

theorem bindCurrent_outcome : bindCurrent.outcome p d =
    ((((bindShaders p.current.vertex p.current.pixel).run.run d).1, p),
      ((bindShaders p.current.vertex p.current.pixel).run.run d).2) := rfl

theorem settled_of_settle (h : settle.outcome p d = ((.ok (), p'), d')) : SettledOn p' d' := by
  obtain ⟨vertex, p₁, d₁, hvertex, h⟩ := exists_of_bind_ok h
  obtain ⟨pixel, p₂, d₂, hpixel, h⟩ := exists_of_bind_ok h
  replace hvertex := hvertex ▸ chooses_select .vertex
  replace hpixel := hpixel ▸ chooses_select .pixel
  obtain ⟨hsettled, hvertexSelects⟩ := settled_of_select hvertex
  obtain ⟨hsettled', hpixelSelects⟩ := settled_of_select hpixel
  have hstages : ∀ stage, p₂.Settled stage
    | .vertex => settled_select hsettled (by simp) hpixel
    | .pixel => hsettled'
  have hselector : p₂.selector? .vertex = p₁.selector? .vertex := by cases hpixel <;> rfl
  rw [hvertexSelects, ← hselector, hpixelSelects] at h
  split_ifs at h with hselects
  · rw [bindCurrent_outcome, Prod.mk.injEq, Prod.mk.injEq] at h
    obtain ⟨⟨hok, rfl⟩, rfl⟩ := h
    exact ⟨hstages, fun _ => ⟨d₂, _, Prod.ext hok rfl, rfl, rfl⟩⟩
  · rw [outcome_pure, Prod.mk.injEq, Prod.mk.injEq] at h
    obtain ⟨⟨-, rfl⟩, rfl⟩ := h
    exact ⟨hstages, fun hbinds => absurd hbinds hselects⟩

/-- Once settled, settling again only counts references. -/
theorem settle_of_settled (h : SettledOn p d) :
    ∃ store, settle.outcome p d = ((.ok (), p), d.withStore store) := by
  obtain ⟨vertexStore, hvertex⟩ := select_of_settled (d := d) (h.stages .vertex)
  obtain ⟨pixelStore, hpixel⟩ :=
    select_of_settled (d := d.withStore vertexStore) (h.stages .pixel)
  unfold settle
  rw [outcome_bind, hvertex]
  dsimp only
  rw [outcome_bind, hpixel]
  dsimp only
  split_ifs with hselects
  · obtain ⟨d₀, d₁, hrun, hbound, hlinks⟩ := h.bound hselects
    have hagain : ∃ store, (bindShaders p.current.vertex p.current.pixel).run.run
        ((d.withStore vertexStore).withStore pixelStore) = (.ok (), d.withStore store) :=
      bindShaders_again hrun hbound hlinks
    obtain ⟨store, hagain⟩ := hagain
    refine ⟨store, ?_⟩
    rw [bindCurrent_outcome, hagain]
  · exact ⟨pixelStore, rfl⟩

end PlaybackM

/-! ### Supplying again -/

namespace Playback

def source? (p : Playback) (stage : Stage) : Option (ParameterWrites × Option Preshader) :=
  (p.selected.get stage).bind p.effect.source?

/-- Whether a second commit may leave another value in a float register than the first: whether the
preshader of the shader in use computes it from outputs that the parameters do not write anew. -/
def carried (p : Playback) (stage : Stage) (k : Nat) : Bool :=
  match p.source? stage with
  | some (w, some pre) => pre.carried w.floats.covers k
  | _ => false

/-- Registers that are supplied a second time. -/
structure SuppliedAgain (p : Playback) (stage : Stage) (r r' : StageRegisters) : Prop where
  ints : r'.ints = r.ints
  bools : r'.bools = r.bools
  size : r'.floats.size = r.floats.size
  floats : ∀ k, p.carried stage k = false → r'.floats[k]? = r.floats[k]?

/-- A preshader that runs on what it left, where the same writes come before it. -/
theorem run_apply_again {pre : Preshader} {ws : Writes Binary32} {file out : Array Binary32}
    (h : pre.run (ws.apply file) = (none, out)) :
    ∃ out', pre.run (ws.apply out) = (none, out') ∧ out'.size = out.size ∧
      ∀ k, pre.carried ws.covers k = false → out'[k]? = out[k]? := by
  have hsize : out.size = file.size := by
    have hrun := (pre.run_outside (ws.apply file)).1
    rwa [h, size_apply] at hrun
  exact Preshader.run_again h (size_apply _ _)
    (fun k hk => getElem?_apply_of_covers hk hsize)
    fun k hk => getElem?_apply_of_not_covers hk out

theorem supply_again {stage : Stage} {r r₁ : StageRegisters} (h : p.supply stage r = (none, r₁)) :
    ∃ r₂, p.supply stage r₁ = (none, r₂) ∧ p.SuppliedAgain stage r₁ r₂ := by
  have hsupply : ∀ r, p.supply stage r = (p.source? stage).elim (none, r) fun s =>
      s.2.elim (none, r.write s.1) fun pre => ((pre.run (r.write s.1).floats).1,
        { r.write s.1 with floats := (pre.run (r.write s.1).floats).2 }) := by
    intro r
    unfold supply source?
    rcases p.selected.get stage with _ | object
    · rfl
    · rw [Option.bind_some, Option.elim_some, Effect.supply]
      rcases p.effect.source? object with _ | ⟨w, _ | pre⟩ <;> rfl
  rw [hsupply] at h ⊢
  rcases hsource : p.source? stage with _ | ⟨w, _ | pre⟩ <;> rw [hsource] at h
  · exact ⟨r₁, rfl, rfl, rfl, rfl, fun _ _ => rfl⟩
  · obtain rfl := (Prod.mk.inj h).2
    exact ⟨r.write w, congrArg (Prod.mk none) (r.write_write w), rfl, rfl, rfl, fun _ _ => rfl⟩
  · obtain ⟨hfault, rfl⟩ := Prod.mk.inj h
    obtain ⟨out, hrun, hsize, hout⟩ := run_apply_again (Prod.ext hfault rfl)
    dsimp only [StageRegisters.write, Option.elim_some] at hrun ⊢
    rw [hrun]
    refine ⟨_, rfl, apply_apply _ _, apply_apply _ _, hsize, fun k hk => hout k ?_⟩
    rwa [carried, hsource] at hk

variable {files₁ : RegisterFiles}

theorem supplyAll_eq_none_iff :
    p.supplyAll files = (none, files₁) ↔ ∃ vertex pixel,
      p.supply .vertex (files.stage .vertex) = (none, vertex) ∧
      p.supply .pixel (files.stage .pixel) = (none, pixel) ∧
      files₁ = ⟨⟨vertex, pixel⟩, files.bump⟩ := by
  have hpixel : ∀ f, (files.modifyStage .vertex f).stage .pixel = files.stage .pixel := fun f =>
    files.stage_modifyStage_of_ne .vertex f (by simp)
  unfold supplyAll
  dsimp only
  rw [hpixel]
  rcases p.supply .vertex (files.stage .vertex) with ⟨_ | fault, vertex⟩
  · rcases p.supply .pixel (files.stage .pixel) with ⟨fault, pixel⟩
    constructor
    · intro h
      obtain ⟨rfl, rfl⟩ := Prod.mk.inj h
      exact ⟨vertex, pixel, rfl, rfl, rfl⟩
    · rintro ⟨_, _, hv, hp, rfl⟩
      obtain rfl := (Prod.mk.inj hv).2
      obtain ⟨rfl, rfl⟩ := Prod.mk.inj hp
      rfl
  · exact ⟨fun h => absurd (Prod.mk.inj h).1 (by simp),
      fun ⟨_, _, hv, _⟩ => absurd (Prod.mk.inj hv).1 (by simp)⟩

theorem supplyAll_again (h : p.supplyAll files = (none, files₁)) :
    ∃ files₂, p.supplyAll files₁ = (none, files₂) ∧ files₂.bump = files₁.bump ∧
      ∀ stage, p.SuppliedAgain stage (files₁.stage stage) (files₂.stage stage) := by
  obtain ⟨vertex, pixel, hvertex, hpixel, rfl⟩ := supplyAll_eq_none_iff.mp h
  obtain ⟨vertex', hvertex', hagain⟩ := supply_again hvertex
  obtain ⟨pixel', hpixel', hagain'⟩ := supply_again hpixel
  refine ⟨⟨⟨vertex', pixel'⟩, files.bump⟩,
    supplyAll_eq_none_iff.mpr ⟨vertex', pixel', hvertex', hpixel', rfl⟩, rfl, fun stage => ?_⟩
  cases stage with
  | vertex => exact hagain
  | pixel => exact hagain'

theorem SuppliedAgain.eq {stage : Stage} {r r' : StageRegisters} (h : p.SuppliedAgain stage r r')
    (hcarried : ∀ k, p.carried stage k = false) : r' = r := by
  have hfloats : r'.floats = r.floats := Array.ext_getElem? fun k => h.floats k (hcarried k)
  exact congr (congr (congrArg StageRegisters.mk hfloats) h.ints) h.bools

end Playback

namespace PlaybackM

/-- A commit after a commit succeeds too. It leaves the playback, the bound program and the integer
and boolean registers as they are, and of the float registers all that are not carried over by a
preshader of a shader in use. If none is, it changes no register. -/
theorem commit_again {p p₁ : Playback} {d d₁ : Device}
    (h : commit.outcome p d = ((.ok (), p₁), d₁)) :
    ∃ d₂, commit.outcome p₁ d₁ = ((.ok (), p₁), d₂) ∧ d₂.bound = d₁.bound ∧
      d₂.registers.bump = d₁.registers.bump ∧
      (∀ stage, p₁.SuppliedAgain stage (d₁.registers.stage stage) (d₂.registers.stage stage)) ∧
      ((∀ stage k, p₁.carried stage k = false) → d₂.registers = d₁.registers) := by
  rw [commit_outcome] at h
  obtain ⟨_, p', d', hsettle, hsupplying⟩ := exists_of_bind_ok h
  obtain ⟨files, hsupply, rfl, rfl⟩ := exists_of_supplying hsupplying
  -- What the first commit left is settled and fed.
  have hsettled := settled_of_settle hsettle
  have hsettled' : SettledOn ((p'.fed .vertex).fed .pixel) (d'.written files) :=
    ⟨fun stage => ((hsettled.stages stage).fed .vertex).fed .pixel, hsettled.bound⟩
  have hfed : (((p'.fed .vertex).fed .pixel).fed .vertex).fed .pixel =
      (p'.fed .vertex).fed .pixel := by
    rw [((p'.isFed_fed .vertex).fed .pixel).fed_eq, ((p'.fed .vertex).isFed_fed .pixel).fed_eq]
  have hsame : ∀ files, ((p'.fed .vertex).fed .pixel).supplyAll files = p'.supplyAll files := by
    intro files
    simp [Playback.supplyAll, Playback.supply_fed]
  generalize (p'.fed .vertex).fed .pixel = p₁ at hsettled' hfed hsame ⊢
  obtain ⟨store, hagain⟩ := settle_of_settled hsettled'
  obtain ⟨files', hsupply', hbump, hstages⟩ :=
    Playback.supplyAll_again ((hsame _).trans hsupply)
  refine ⟨((d'.written files).withStore store).written files', ?_, rfl, hbump, hstages,
    fun hc => ?_⟩
  · rw [commit_outcome, outcome_bind, hagain]
    dsimp only
    rw [supplying_of_none hsupply', hfed]
  · have hequal : ∀ stage, files'.stage stage = files.stage stage := fun stage =>
      (hstages stage).eq (hc stage)
    obtain ⟨⟨vertex, pixel⟩, bump⟩ := files
    obtain ⟨⟨vertex', pixel'⟩, bump'⟩ := files'
    obtain rfl : vertex' = vertex := hequal .vertex
    obtain rfl : pixel' = pixel := hequal .pixel
    obtain rfl : bump' = bump := hbump
    rfl

end PlaybackM

/-! ### A preshader that counts -/

/-- A preshader that adds one to the first output, and copies one to the second. -/
def countingPreshader : Preshader where
  literals := #[⟨0x3FF0000000000000⟩]
  tempCount := 0
  symbols := []
  registers := #[]
  instructions := [⟨.add, 1, [⟨.output, 0, []⟩, ⟨.literal, 0, []⟩, ⟨.output, 0, []⟩]⟩,
    ⟨.mov, 1, [⟨.literal, 0, []⟩, ⟨.output, 1, []⟩]⟩]

def countingEffect : Effect :=
  soloEffect [] { LoweredShader.blank .glsl120 default with preshader := some countingPreshader } []

/-- The first output is counted up by every commit, and the second one stays. -/
theorem commit_again_counting : ∃ p₁ d₁ d₂,
    PlaybackM.commit.outcome (soloPlayback countingEffect) soloDevice = ((.ok (), p₁), d₁) ∧
    PlaybackM.commit.outcome p₁ d₁ = ((.ok (), p₁), d₂) ∧
    p₁.carried .vertex 0 = true ∧
    (d₂.registers.stage .vertex).floats[1]? = (d₁.registers.stage .vertex).floats[1]? := by
  obtain ⟨p₁, d₁, h, hcarried, hkept⟩ : ∃ p₁ d₁,
      PlaybackM.commit.outcome (soloPlayback countingEffect) soloDevice = ((.ok (), p₁), d₁) ∧
        p₁.carried .vertex 0 = true ∧ p₁.carried .vertex 1 = false := ⟨_, _, rfl, rfl, rfl⟩
  obtain ⟨d₂, hagain, -, -, hstages, -⟩ := PlaybackM.commit_again h
  exact ⟨p₁, d₁, d₂, h, hagain, hcarried, (hstages .vertex).floats 1 hkept⟩

end ShaderPipeline.Device
