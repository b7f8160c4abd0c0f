import ShaderPipeline.Proofs.Device.Commits
import ShaderPipeline.Proofs.Device.Lifetimes
import ShaderPipeline.Proofs.Device.LinkedPairs

/-!
# Shaders in use and shaders bound

A pass supplies the registers of the shaders in use, and the program that draws is the bound one.
The two are not always of the same shaders. What a pass names for a stage stays named in the passes
after it, whereas the binding may have changed in between. Also, a pass that names a selector leaves
the binding to the commit, which binds nothing if another state has replaced the selector.
-/

namespace ShaderPipeline.Device

open PerStage Playback

open Books

/-! ### Binding -/

variable (d : Device)

def boundShaders : PerStage (Option CompiledShader) :=
  ⟨d.bound.bind (·.vertex), d.bound.bind (·.pixel)⟩

section Binding

variable {d d' : Device} {shaders : Multiset CompiledShader} {programs : Multiset LinkedProgram}

theorem boundShaders_of_bindShaders (h : (d.books shaders programs).Ledger)
    (hnames : Registry.Distinct d.calls.toList) {vertex pixel : Option CompiledShader}
    (hvertex : ∀ s ∈ vertex, s ∈ shaders) (hpixel : ∀ s ∈ pixel, s ∈ shaders)
    (hrun : (bindShaders vertex pixel).run.run d = (.ok (), d')) :
    d'.boundShaders = ⟨vertex, pixel⟩ := by
  by_cases hnone : vertex.isNone = true ∧ pixel.isNone = true
  · obtain rfl := Option.isNone_iff_eq_none.mp hnone.1
    obtain rfl := Option.isNone_iff_eq_none.mp hnone.2
    have hsame := sameProgram_bindHeld d none
    rw [bindShaders_none] at hrun
    rw [(Prod.mk.inj hrun).2] at hsame
    cases hbound : d'.bound with
    | none => rw [boundShaders, hbound]; rfl
    | some q => simp [hbound, sameProgram] at hsame
  · obtain ⟨q, hbound, rfl, rfl, -⟩ :=
      exists_bound_of_bindShaders h hnames hvertex hpixel hnone (by rw [hrun])
    rw [hrun] at hbound
    rw [boundShaders, hbound]
    rfl

theorem Grows.distinct (h : Grows d d') (hnames : Registry.Distinct d'.calls.toList) :
    Registry.Distinct d.calls.toList := by
  obtain ⟨rest, hrest⟩ := h.calls
  rw [← hrest] at hnames
  exact hnames.of_append

end Binding

/-! ### What a pass names -/

namespace Playback

variable (p : Playback) (bound : Option LinkedProgram) (states : List Effect.State)

def knows (object : Nat) : Bool :=
  (p.shader? object).isSome || p.selectors.contains object

def names (p : Playback) (states : List Effect.State) (stage : Stage) : Bool :=
  (states.filterMap stateNames?).any fun n => n.1 == stage && p.knows n.2

/-- An object is named for a stage, and its shader, if it has one, is to be bound. -/
def NamesCurrent (stage : Stage) : Prop :=
  ∃ object, p.named.get stage = some object ∧
    ∀ x, p.shader? object = some x → p.current.get stage = some x

theorem name_cases (stage stage' : Stage) (object : Nat) :
    ((stage == stage' && p.knows object) = false ∧
      (p.name stage object).named.get stage' = p.named.get stage' ∧
      (p.name stage object).current.get stage' = p.current.get stage') ∨
    ((stage == stage' && p.knows object) = true ∧
      (p.name stage object).NamesCurrent stage') := by
  by_cases hstage : stage = stage'
  · subst hstage
    rw [beq_self_eq_true, Bool.true_and, knows]
    unfold name
    cases hx : p.shader? object with
    | some x =>
      refine Or.inr ⟨rfl, object, get_set _ _ _, fun y hy => ?_⟩
      rw [← hy]
      exact (get_set _ _ _).trans hx.symm
    | none =>
      cases hselector : p.selectors.contains object with
      | true =>
        exact Or.inr ⟨rfl, object, get_set _ _ _, fun y hy =>
          absurd (hx.symm.trans hy) (by simp)⟩
      | false => exact Or.inl ⟨rfl, rfl, rfl⟩
  · have hne : stage' ≠ stage := fun h => hstage h.symm
    refine Or.inl ⟨by simp [hstage], ?_⟩
    unfold name
    split
    · exact ⟨get_set_of_ne _ _ hne, get_set_of_ne _ _ hne⟩
    · split_ifs
      · exact ⟨get_set_of_ne _ _ hne, rfl⟩
      · exact ⟨rfl, rfl⟩

/-- Naming objects does not change which objects there are. -/
theorem fixed_nameAll (ns : List (Stage × Nat)) :
    (p.nameAll ns).shaders = p.shaders ∧ (p.nameAll ns).selectors = p.selectors := by
  induction ns generalizing p with
  | nil => exact ⟨rfl, rfl⟩
  | cons n rest ih =>
    obtain ⟨hshaders, hselectors⟩ := p.fixed_name n.1 n.2
    exact ⟨(ih _).1.trans hshaders, (ih _).2.trans hselectors⟩

section Objects

variable {p p' : Playback} (hshaders : p'.shaders = p.shaders)
  (hselectors : p'.selectors = p.selectors)

include hshaders hselectors

theorem knows_congr : p'.knows = p.knows := by
  funext object
  rw [knows, knows, shader?, shader?, hshaders, hselectors]

theorem names_congr : p'.names = p.names := by
  unfold names
  rw [knows_congr hshaders hselectors]

theorem namesSelector_congr : p'.namesSelector = p.namesSelector := by
  unfold namesSelector shader?
  rw [hshaders, hselectors]

end Objects

theorem applied_cases (stage : Stage) :
    (p.names states stage = false ∧ (p.applied states).named.get stage = p.named.get stage ∧
      (p.applied states).current.get stage = p.current.get stage) ∨
    (p.names states stage = true ∧ (p.applied states).NamesCurrent stage) := by
  unfold names applied
  induction states.filterMap stateNames? generalizing p with
  | nil => exact Or.inl ⟨rfl, rfl, rfl⟩
  | cons n rest ih =>
    -- What the first naming does is seen at the end only if no later one is for the stage.
    have hrest := ih (p.name n.1 n.2)
    rw [knows_congr (p.fixed_name n.1 n.2).1 (p.fixed_name n.1 n.2).2] at hrest
    rw [List.any_cons]
    rcases hrest with ⟨hnone, hnamed, hcurrent⟩ | ⟨hsome, hlater⟩
    · rw [hnone, Bool.or_false]
      rcases p.name_cases n.1 stage n.2 with ⟨hother, hnamed', hcurrent'⟩ | ⟨hfirst, object, h⟩
      · exact Or.inl ⟨hother, hnamed.trans hnamed', hcurrent.trans hcurrent'⟩
      · have hshaders := (fixed_nameAll (p.name n.1 n.2) rest).1
        refine Or.inr ⟨hfirst, object, hnamed.trans h.1, fun x hx => hcurrent.trans (h.2 x ?_)⟩
        rw [← hx]
        unfold shader?
        rw [← hshaders]
        rfl
    · exact Or.inr ⟨by rw [hsome, Bool.or_true], hlater⟩

def entered (effect : Effect) : Playback :=
  { p.adopted bound with effect }

/-- Entering a pass does not change which objects there are. -/
theorem fixed_entered (effect : Effect) :
    (p.entered bound effect).shaders = p.shaders ∧
      (p.entered bound effect).selectors = p.selectors := by
  cases bound <;> exact ⟨rfl, rfl⟩

/-- Of a shader that is named after the states of a pass, when it is to be bound. -/
theorem current_applied_iff {p : Playback} {states : List Effect.State} {stage : Stage}
    {object : Nat} {x : CompiledShader} (hnamed : (p.applied states).named.get stage = some object)
    (hx : p.shader? object = some x) : (p.applied states).current.get stage = some x ↔
      p.names states stage = true ∨ p.current.get stage = some x := by
  rcases p.applied_cases states stage with ⟨hnames, -, hcurrent⟩ | ⟨hnames, object', h⟩
  · rw [hnames, hcurrent]
    simp
  · obtain rfl := Option.some.inj (h.1.symm.trans hnamed)
    have hshaders := (p.fixed_nameAll (states.filterMap stateNames?)).1
    have hx' : (p.applied states).shader? object' = some x := by
      rw [← hx, shader?, shader?, applied, hshaders]
    simp [hnames, h.2 x hx']

/-- Whether beginning a pass with these states binds shaders, given the playback afterwards: before
the commit if no state names a selector, and in the commit if a selector is named in the end. -/
def rebinds : Bool :=
  !p.namesSelector states || ((p.selector? .vertex).isSome || (p.selector? .pixel).isSome)

end Playback

/-! ### What beginning a pass binds -/

namespace PlaybackM

variable {p p' : Playback} {d d' : Device} {shaders : Multiset CompiledShader}
  {programs : Multiset LinkedProgram} (states : List Effect.State)

theorem boundShaders_of_bindCurrent (h : (p.books d shaders programs).Ledger)
    (hrun : bindCurrent.outcome p d = ((.ok (), p'), d'))
    (hnames : Registry.Distinct d'.calls.toList) :
    p' = p ∧ Registry.Distinct d.calls.toList ∧ d'.boundShaders = p.current := by
  rw [bindCurrent_outcome, Prod.mk.injEq, Prod.mk.injEq] at hrun
  obtain ⟨⟨hok, rfl⟩, rfl⟩ := hrun
  replace hnames := (grows_bindShaders d p.current.vertex p.current.pixel).distinct hnames
  have hheld (stage : Stage) : ∀ x ∈ p.current.get stage, x ∈ p.heldShaders + shaders :=
    fun x hx => Multiset.mem_add.mpr (Or.inl (mem_heldShaders_of_current hx))
  exact ⟨rfl, hnames, boundShaders_of_bindShaders h hnames (hheld .vertex) (hheld .pixel)
    (Prod.ext hok rfl)⟩

/-- Applies the states of a pass, and binds what they name if no selector is among it. -/
def naming : PlaybackM Unit := do
  let selects ← applyStates states
  if !selects then
    bindCurrent

theorem moves_naming : (naming states).Moves := by
  refine (moves_applyStates states).bind fun selects => ?_
  split_ifs
  · exact moves_bindCurrent
  · exact moves_pure _

/-- Until it commits, beginning a pass takes over the bound program and, if the cursor allows the
pass, applies the states. -/
theorem opening_outcome {store : Store} (n : Nat)
    (h : adoptBound.outcome p d = ((.ok (), p.adopted d.bound), d.withStore store)) :
    (opening n).outcome p d = match p.effect.beginPass n with
      | .error e => ((.error (.effect e), p.adopted d.bound), d.withStore store)
      | .ok (pass, effect) =>
        (naming pass.states).outcome (p.entered d.bound effect) (d.withStore store) := by
  have heffect : (p.adopted d.bound).effect = p.effect := by cases d.bound <;> rfl
  unfold opening
  rw [outcome_bind, h]
  dsimp only
  rw [outcome_get_bind, outcome_bind, outcome_usage, heffect]
  cases p.effect.beginPass n <;> rfl

theorem naming_of_opening {n : Nat} (h : (p.books d shaders programs).Ledger)
    (hrun : (opening n).outcome p d = ((.ok (), p'), d')) : ∃ pass effect store,
      p.effect.beginPass n = .ok (pass, effect) ∧
      ((p.entered d.bound effect).books (d.withStore store) shaders programs).Ledger ∧
      (naming pass.states).outcome (p.entered d.bound effect) (d.withStore store) =
        ((.ok (), p'), d') := by
  obtain ⟨store, hadopt⟩ := adoptBound_outcome (p := p) (d := d)
  have hadopted := h.reaches (moves_adoptBound p d shaders programs)
  rw [hadopt] at hadopted
  rw [opening_outcome n hadopt] at hrun
  rcases hbegin : p.effect.beginPass n with e | ⟨pass, effect⟩ <;> rw [hbegin] at hrun
  · exact absurd (Prod.mk.inj (Prod.mk.inj hrun).1).1 (by simp)
  · exact ⟨pass, effect, store, rfl, hadopted, hrun⟩

theorem boundShaders_of_naming {states : List Effect.State}
    (h : (p.books d shaders programs).Ledger)
    (hrun : (naming states).outcome p d = ((.ok (), p'), d'))
    (hnames : Registry.Distinct d'.calls.toList) :
    p' = p.applied states ∧
      d'.boundShaders = if p.namesSelector states then d.boundShaders else p'.current := by
  obtain ⟨store, happly⟩ := applyStates_outcome (p := p) (d := d) states
  have happlied := h.reaches (moves_applyStates states p d shaders programs)
  rw [happly] at happlied
  unfold naming at hrun
  rw [outcome_bind, happly] at hrun
  cases hselects : p.namesSelector states with
  | false =>
    rw [hselects] at hrun
    obtain ⟨rfl, -, hbound⟩ := boundShaders_of_bindCurrent happlied hrun hnames
    exact ⟨rfl, hbound⟩
  | true =>
    rw [hselects] at hrun
    obtain ⟨hplayback, rfl⟩ := Prod.mk.inj hrun
    exact ⟨(Prod.mk.inj hplayback).2.symm, rfl⟩

/-- A playback that keeps what was named, and what was to be bound for the stages for which no
selector is named. -/
structure Keeps (p p' : Playback) : Prop where
  named : p'.named = p.named
  shaders : p'.shaders = p.shaders
  selectors : p'.selectors = p.selectors
  current : ∀ stage, p.selector? stage = none → p'.current.get stage = p.current.get stage

theorem Keeps.selector? (h : Keeps p p') (stage : Stage) :
    p'.selector? stage = p.selector? stage := by
  rw [Playback.selector?, Playback.selector?, h.named, h.selectors]

theorem Keeps.trans {p'' : Playback} (h : Keeps p p') (h' : Keeps p' p'') : Keeps p p'' where
  named := h'.named.trans h.named
  shaders := h'.shaders.trans h.shaders
  selectors := h'.selectors.trans h.selectors
  current stage hnone := (h'.current stage ((h.selector? stage).trans hnone)).trans
    (h.current stage hnone)

/-- Where no selector is named, what is bound in the end was to be bound before the commit, if
anything is bound at all. -/
theorem Keeps.get_bound (h : Keeps p p') {stage : Stage} (hnone : p'.selector? stage = none)
    (states : List Effect.State) (before : PerStage (Option CompiledShader)) :
    (if (p'.selector? .vertex).isSome || (p'.selector? .pixel).isSome then p'.current
      else if p'.namesSelector states then before else p.current).get stage =
    if p'.rebinds states then p.current.get stage else before.get stage := by
  have hcurrent := h.current stage ((h.selector? stage).symm.trans hnone)
  unfold rebinds
  split_ifs <;> simp_all

theorem Chooses.keeps {stage : Stage} {selects : Bool}
    (h : Chooses p d stage ((.ok selects, p'), d')) :
    Keeps p p' ∧ ∃ store, d' = d.withStore store := by
  cases h with
  | named => exact ⟨⟨rfl, rfl, rfl, fun _ _ => rfl⟩, d.store, rfl⟩
  | @chose selector chosen hsome _ store =>
    refine ⟨⟨rfl, rfl, rfl, fun stage' hnone => ?_⟩, store, rfl⟩
    have hne : stage' ≠ stage := by
      rintro rfl
      exact absurd (hsome.symm.trans hnone) (by simp)
    unfold Playback.chose
    cases p.shader? chosen with
    | none => rfl
    | some x => exact get_set_of_ne _ _ hne

/-- Settling binds if a selector is named. -/
theorem boundShaders_of_settle (h : (p.books d shaders programs).Ledger)
    (hrun : settle.outcome p d = ((.ok (), p'), d'))
    (hnames : Registry.Distinct d'.calls.toList) :
    Keeps p p' ∧ Registry.Distinct d.calls.toList ∧ d'.boundShaders =
      if (p'.selector? .vertex).isSome || (p'.selector? .pixel).isSome then p'.current
      else d.boundShaders := by
  obtain ⟨vertex, p₁, d₁, hvertex, hrun⟩ := exists_of_bind_ok hrun
  obtain ⟨pixel, p₂, d₂, hpixel, hrun⟩ := exists_of_bind_ok hrun
  have hledger := h.reaches (moves_select .vertex p d shaders programs)
  rw [hvertex] at hledger
  replace hledger := hledger.reaches (moves_select .pixel p₁ d₁ shaders programs)
  rw [hpixel] at hledger
  replace hvertex := hvertex ▸ chooses_select .vertex
  replace hpixel := hpixel ▸ chooses_select .pixel
  obtain ⟨hkeeps, _, rfl⟩ := hvertex.keeps
  obtain ⟨hkeeps', _, rfl⟩ := hpixel.keeps
  rw [(settled_of_select hvertex).2, ← hkeeps'.selector?, (settled_of_select hpixel).2] at hrun
  split_ifs at hrun with hselects
  · obtain ⟨rfl, hdistinct, hbound⟩ := boundShaders_of_bindCurrent hledger hrun hnames
    exact ⟨hkeeps.trans hkeeps', hdistinct, by rw [if_pos hselects, hbound]⟩
  · obtain ⟨hplayback, rfl⟩ := Prod.mk.inj hrun
    obtain rfl := (Prod.mk.inj hplayback).2
    exact ⟨hkeeps.trans hkeeps', hnames, by rw [if_neg hselects]; rfl⟩

theorem exists_of_beginPass {n : Nat} (h : (p.books d shaders programs).Ledger)
    (hrun : (beginPass n).outcome p d = ((.ok (), p'), d'))
    (hnames : Registry.Distinct d'.calls.toList) : ∃ pass effect q,
      p.effect.beginPass n = .ok (pass, effect) ∧
      q = (p.entered d.bound effect).applied pass.states ∧ Keeps q p' ∧
      (∀ stage, p'.Settled stage) ∧ d'.boundShaders =
        if (p'.selector? .vertex).isSome || (p'.selector? .pixel).isSome then p'.current
        else if p'.namesSelector pass.states then d.boundShaders else q.current := by
  rw [beginPass_outcome] at hrun
  obtain ⟨⟨⟩, q, d₁, hopening, hrun⟩ := exists_of_bind_ok hrun
  rw [commit_outcome] at hrun
  obtain ⟨⟨⟩, p₂, d₂, hsettle, hrun⟩ := exists_of_bind_ok hrun
  obtain ⟨files, -, rfl, rfl⟩ := exists_of_supplying hrun
  obtain ⟨pass, effect, store, hbegin, hledger, hnaming⟩ := naming_of_opening h hopening
  have hledger' := hledger.reaches (moves_naming pass.states _ _ shaders programs)
  rw [hnaming] at hledger'
  obtain ⟨hkeeps, hnames', hbound⟩ := boundShaders_of_settle hledger' hsettle hnames
  obtain ⟨rfl, hbound'⟩ := boundShaders_of_naming hledger hnaming hnames'
  have hselects : ((p₂.fed .vertex).fed .pixel).namesSelector =
      (p.entered d.bound effect).namesSelector := by
    obtain ⟨hshaders, hselectors⟩ := fixed_nameAll (p.entered d.bound effect)
      (pass.states.filterMap stateNames?)
    exact namesSelector_congr (hkeeps.shaders.trans hshaders)
      (hkeeps.selectors.trans hselectors)
  refine ⟨pass, effect, _, hbegin, rfl, ⟨hkeeps.named, hkeeps.shaders, hkeeps.selectors,
    hkeeps.current⟩, fun stage => ?_, ?_⟩
  · exact (((settled_of_settle hsettle).stages stage).fed .vertex).fed .pixel
  · rw [hselects]
    exact hbound.trans (by rw [hbound']; rfl)

end PlaybackM

namespace Player

/-- After a pass has begun, a shader that is in use for a stage is bound there if a selector chose
it. Otherwise, if the pass has bound shaders, it is bound if the pass names an object for the stage
or if it was to be bound there before; and if the pass has bound none, if it was bound before. -/
theorem bound_of_in_use_iff {driver : Driver} {config : Config} {d₀ d : Device}
    {orders : List Order} {s : Player} {i n : Nat} {p p' : Playback}
    (hcreate : Device.create driver config = .ok d₀) (hrun : Run d₀ orders s)
    (hp : s.playbacks[i]? = some p)
    (hbegin : (PlaybackM.beginPass n).outcome p s.client.device = ((.ok (), p'), d))
    (hnames : Registry.Distinct d.calls.toList) :
    ∃ pass effect, p.effect.beginPass n = .ok (pass, effect) ∧
      ∀ stage object x, p'.selected.get stage = some object → p'.shader? object = some x →
        (d.boundShaders.get stage = some x ↔
          (p'.selector? stage).isSome = true ∨
          if p'.rebinds pass.states = true then
            p.names pass.states stage = true ∨
              (p.adopted s.client.device.bound).current.get stage = some x
          else s.client.device.boundShaders.get stage = some x) := by
  have hledger := Run.ledger hcreate hrun
  rw [s.books_of_perm (perm_of_getElem? hp)] at hledger
  obtain ⟨pass, effect, q, heffect, rfl, hkeeps, hsettled, hbound⟩ :=
    PlaybackM.exists_of_beginPass hledger hbegin hnames
  obtain ⟨hshaders, hselectors⟩ := p.fixed_entered s.client.device.bound effect
  refine ⟨pass, effect, heffect, fun stage object x hselected hx => ?_⟩
  have hstage := hsettled stage
  unfold Playback.Settled at hstage
  cases hselector : p'.selector? stage with
  | some selector =>
    rw [hselector] at hstage
    obtain ⟨chosen, -, -, hchosen, hcurrent⟩ := hstage
    obtain rfl := Option.some.inj (hchosen.symm.trans hselected)
    have hselects : ((p'.selector? .vertex).isSome || (p'.selector? .pixel).isSome) = true := by
      cases stage <;> simp [hselector]
    rw [hbound, if_pos hselects, hcurrent x hx]
    simp
  | none =>
    -- The shader in use is the one that is named.
    rw [hselector] at hstage
    have hnamed := hkeeps.named ▸ hstage.symm.trans hselected
    have hx' : (p.entered s.client.device.bound effect).shader? object = some x := by
      rw [← hx, Playback.shader?, Playback.shader?, hkeeps.shaders, Playback.applied,
        (Playback.fixed_nameAll _ _).1]
    rw [hbound, hkeeps.get_bound hselector, Option.isSome_none, Bool.false_eq_true, false_or]
    split_ifs
    · rw [Playback.current_applied_iff hnamed hx', Playback.names_congr hshaders hselectors]
      rfl
    · rfl

end Player

/-! ### A pass with one stage -/

def namingState (code : Nat) (object : Word) : Effect.State :=
  ⟨code, none, none, default, .objects [object]⟩

/-- An effect whose first pass names a vertex and a pixel shader, and whose second pass names only
the vertex shader. -/
def twoPassEffect : Effect where
  profile := .glsl120
  diagnostics := []
  params := []
  techniques := [⟨none, [⟨none, [namingState Effect.vertexShaderState 0,
    namingState Effect.pixelShaderState 1], []⟩,
    ⟨none, [namingState Effect.vertexShaderState 0], []⟩], []⟩]
  objects := #[⟨.vertexShader, .shader ⟨none, none, .shader (idleShader .vertex), [], [], []⟩⟩,
    ⟨.pixelShader, .shader ⟨none, none, .shader (idleShader .pixel), [], [], []⟩⟩]
  technique := some 0
  pass := none

/-- Another shader for pixels, compiled after the first pass. -/
def otherPixel : CompiledShader := ⟨2, 4, .pixel, idleShader .pixel⟩

/-- After the first pass the vertex shader is bound with the other pixel shader. -/
def twoPassOrders : List Order :=
  [.compileEffect twoPassEffect, .play 0 (.beginPass 0), .play 0 .endPass,
    .ask (.compileLowered (idleShader .pixel)), .shareShader 0 0,
    .ask (.bindShaders (some idleVertex) (some otherPixel))]

/-- The player that holds both shaders before they are bound. -/
def twoPassHolder : Player :=
  (((((Player.new d).perform (.compileEffect twoPassEffect)).perform
    (.play 0 (.beginPass 0))).perform (.play 0 .endPass)).perform
      (.ask (.compileLowered (idleShader .pixel)))).perform (.shareShader 0 0)

def twoPassPlayer : Player :=
  (twoPassHolder d).perform (.ask (.bindShaders (some idleVertex) (some otherPixel)))

/-- In the second pass the pixel shader of the first one is still in use, but not bound. -/
theorem bound_of_in_use_two_passes : ∃ d₀ s p p' d,
    Device.create .second (.ofProfile .glsl120) = .ok d₀ ∧ Player.Run d₀ twoPassOrders s ∧
    s.playbacks[0]? = some p ∧
    (PlaybackM.beginPass 1).outcome p s.client.device = ((.ok (), p'), d) ∧
    p'.selected = ⟨some 0, some 1⟩ ∧
    p'.shader? 0 = some idleVertex ∧ p'.shader? 1 = some idlePixel ∧
    d.boundShaders.get .vertex = some idleVertex ∧
    d.boundShaders.get .pixel ≠ some idlePixel := by
  obtain ⟨d₀, hd⟩ : ∃ d, Device.create .second (.ofProfile .glsl120) = .ok d := ⟨_, rfl⟩
  have hmem : d₀ ∈ (Device.create .second (.ofProfile .glsl120)).toOption := by rw [hd]; rfl
  have hshaders : ∀ d ∈ (Device.create .second (.ofProfile .glsl120)).toOption,
      (twoPassHolder d).client.shaders = [idleVertex, otherPixel] := by decide +kernel
  have hplayed : ∀ d ∈ (Device.create .second (.ofProfile .glsl120)).toOption,
      ∃ p ∈ (twoPassPlayer d).playbacks[0]?,
        (p.adopted (twoPassPlayer d).client.device.bound).current.pixel = some otherPixel ∧
        ∃ b ∈ (p.effect.beginPass 1).toOption,
          p.names b.1.states .vertex = true ∧ p.names b.1.states .pixel = false ∧
          let r := (PlaybackM.beginPass 1).outcome p (twoPassPlayer d).client.device
          r.1.1.toBool = true ∧ r.1.2.selected = ⟨some 0, some 1⟩ ∧
          r.1.2.shader? 0 = some idleVertex ∧ r.1.2.shader? 1 = some idlePixel ∧
          r.1.2.selectors = [] ∧ r.1.2.rebinds b.1.states = true ∧
          createdBy r.2.calls.toList =
            [.shader 1, .shader 2, .program 3, .shader 4, .program 5] := by
    decide +kernel
  replace hshaders := hshaders d₀ hmem
  obtain ⟨p, hp, hadopted, ⟨pass, effect⟩, hpass, hvertex, hpixel, hok, hselected, hshader,
    hshader', hselectors, hrebinds, hcreated⟩ := hplayed d₀ hmem
  have hbegun : Player.Run d₀ (twoPassOrders.take 5) (twoPassHolder d₀) :=
    ((((Player.Run.start.step (.compileEffect twoPassEffect) trivial).step
      (.play 0 (.beginPass 0)) trivial).step (.play 0 .endPass) trivial).step
        (.ask (.compileLowered (idleShader .pixel))) trivial).step (.shareShader 0 0) trivial
  have hrun : Player.Run d₀ twoPassOrders (twoPassPlayer d₀) :=
    hbegun.step (.ask (.bindShaders (some idleVertex) (some otherPixel)))
      ⟨by simp [hshaders], by simp [hshaders]⟩
  generalize twoPassPlayer d₀ = s at *
  rcases hbegin : (PlaybackM.beginPass 1).outcome p s.client.device with ⟨⟨e | ⟨⟨⟩⟩, p'⟩, d⟩ <;>
    rw [hbegin] at hok hselected hshader hshader' hselectors hrebinds hcreated
  · simp [Except.toBool] at hok
  have hnames : Registry.Distinct d.calls.toList :=
    .of_nodup (by rw [hcreated]; decide) (by rw [hcreated]; decide)
  obtain ⟨pass', effect', hpass', hiff⟩ := Player.bound_of_in_use_iff hd hrun hp hbegin hnames
  rw [hpass'] at hpass
  obtain ⟨rfl, rfl⟩ := Prod.mk.inj (Option.some.inj hpass)
  have hbound := hiff .vertex 0 idleVertex (by rw [hselected]; rfl) hshader
  have hbound' := hiff .pixel 1 idlePixel (by rw [hselected]; rfl) hshader'
  have hselector (stage : Stage) : (p'.selector? stage).isSome = false := by
    rw [Playback.selector?, hselectors]
    cases p'.named.get stage <;> rfl
  rw [hselector, if_pos hrebinds] at hbound hbound'
  have hother : (p.adopted s.client.device.bound).current.get .pixel ≠ some idlePixel := by
    rw [show (p.adopted s.client.device.bound).current.get .pixel = some otherPixel from hadopted]
    decide
  refine ⟨d₀, s, p, p', d, hd, hrun, hp, hbegin, hselected, hshader, hshader',
    hbound.mpr (Or.inr (Or.inl hvertex)), fun h => ?_⟩
  rcases hbound'.mp h with h | h | h
  · simp at h
  · exact absurd (h.symm.trans hpixel) (by simp)
  · exact hother h

end ShaderPipeline.Device
