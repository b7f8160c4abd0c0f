import ShaderPipeline.Proofs.Device.Playing
import ShaderPipeline.Proofs.Device.Writes

/-!
# Steps of a pass

Every step of a pass is given in closed form: the playback, the registers and the result afterwards
as functions of those before. Selectors and embedded preshaders are fed from the parameters, and
what is fed into them is the same every time, so that a second step finds what the first one left.
-/

namespace ShaderPipeline

open Effect.ShaderObject Option Effect Array ShaderObject

open Device.PlaybackM (shaderObject? selectorWrites)

namespace Effect

/-! ### Feeding preshaders -/

variable (params : List Param)

def ShaderObject.inputWrites (x : ShaderObject) (pre : Preshader) : Writes Binary32 :=
  if x.isSelector then (selectorWrites params (pre.symbols.zip x.preshaderParams)).1
  else (Device.linkWrites params (pre.symbols.zip x.preshaderParams)).floats

def ShaderObject.primed (x : ShaderObject) : ShaderObject :=
  match x.preshader? with
  | none => x
  | some pre => x.withPreshader
      { pre with registers := (x.inputWrites params pre).apply pre.registers }

section Primed

variable {params : List Param} {x : ShaderObject}

theorem ShaderObject.primed_of_selector {pre : Preshader} (h : x.code = .selector pre) :
    x.primed params = { x with code := .selector { pre with registers :=
      (selectorWrites params (pre.symbols.zip x.preshaderParams)).1.apply pre.registers } } := by
  simp [primed, preshader?, withPreshader, inputWrites, isSelector, h]

theorem ShaderObject.primed_of_shader {code : LoweredShader} (h : x.code = .shader code) :
    x.primed params = { x with
      code := .shader { code with
        preshader := code.preshader.map fun pre => { pre with
          registers := (Device.linkWrites params
            (pre.symbols.zip x.preshaderParams)).floats.apply pre.registers } } } := by
  cases hpre : code.preshader with
  | none =>
    have heta : { code with preshader := none } = code := by rw [← hpre]
    have hnone : x.preshader? = none := by rw [preshader?, h]; exact hpre
    rw [map_none, heta, ← h, primed, hnone]
  | some pre => simp [primed, preshader?, withPreshader, inputWrites, isSelector, h, hpre]

/-- Feeding a preshader again changes nothing. -/
@[simp] theorem ShaderObject.primed_primed : (x.primed params).primed params = x.primed params := by
  cases h : x.code with
  | selector pre =>
    rw [primed_of_selector h, primed_of_selector rfl]
    simp
  | shader code =>
    rw [primed_of_shader h, primed_of_shader rfl]
    cases code.preshader <;> simp

end Primed

/-- The object with its preshader fed, if it is a shader. -/
def Object.primed (params : List Param) (o : Object) : Object :=
  match o.data with
  | .shader x => { o with data := .shader (x.primed params) }
  | _ => o

theorem Object.shader?_primed (o : Object) :
    (o.primed params).shader? = o.shader?.map (·.primed params) := by
  obtain ⟨type, data⟩ := o
  cases data <;> rfl

theorem Object.primed_of_shader {params : List Param} {o : Object} {x : ShaderObject}
    (h : o.shader? = some x) : o.primed params = { o with data := .shader (x.primed params) } := by
  obtain ⟨type, data⟩ := o
  cases data with
  | shader y =>
    obtain rfl := some.inj h
    rfl
  | none | string | mapping => simp [shader?] at h

theorem Object.primed_eq_self {params : List Param} {o : Object}
    (h : ∀ x, o.shader? = some x → x.primed params = x) : o.primed params = o := by
  cases hx : o.shader? with
  | none =>
    obtain ⟨type, data⟩ := o
    cases data <;> first | rfl | simp [shader?] at hx
  | some x =>
    rw [primed_of_shader hx, h x hx]
    obtain ⟨type, data⟩ := o
    cases data with
    | shader y =>
      obtain rfl := some.inj hx
      rfl
    | none | string | mapping => simp [shader?] at hx

end Effect

def Effect.primed (e : Effect) (n : Nat) : Effect :=
  { e with objects := e.objects.modify n (Effect.Object.primed e.params) }

def Effect.IsPrimed (e : Effect) (n : Nat) : Prop :=
  ∀ x, shaderObject? e n = some x → x.primed e.params = x

namespace Effect

variable (e : Effect)

theorem shaderObject?_primed (n m : Nat) : shaderObject? (e.primed n) m =
    (shaderObject? e m).map fun x => if n = m then x.primed e.params else x := by
  unfold shaderObject? primed
  rw [getElem?_modify]
  by_cases h : n = m
  · simp only [h, if_true]
    cases e.objects[m]? with
    | none => rfl
    | some o => exact Object.shader?_primed _ o
  · simp [h]

theorem isPrimed_primed (n : Nat) : (e.primed n).IsPrimed n := by
  intro x hx
  rw [shaderObject?_primed, map_eq_some_iff] at hx
  obtain ⟨y, -, rfl⟩ := hx
  rw [if_pos rfl]
  exact primed_primed

variable {e}

theorem IsPrimed.primed {n : Nat} (h : e.IsPrimed n) (m : Nat) : (e.primed m).IsPrimed n := by
  intro x hx
  rw [shaderObject?_primed, map_eq_some_iff] at hx
  obtain ⟨y, hy, rfl⟩ := hx
  split_ifs
  · exact primed_primed
  · exact h y hy

theorem IsPrimed.primed_eq {n : Nat} (h : e.IsPrimed n) : e.primed n = e := by
  have hobjects : e.objects.modify n (Object.primed e.params) = e.objects := by
    refine ext_getElem? fun m => ?_
    rw [getElem?_modify]
    split_ifs with hm
    · subst hm
      cases ho : e.objects[n]? with
      | none => rfl
      | some o =>
        refine congrArg some (Object.primed_eq_self fun x hx => h x ?_)
        rw [shaderObject?, ho]
        exact hx
    · rfl
  rw [Effect.primed, hobjects]

theorem primed_of_withPreshader {n : Nat} {x : ShaderObject} {pre : Preshader}
    (hx : shaderObject? e n = some x) (hpre : x.primed e.params = x.withPreshader pre) :
    e.primed n = { e with objects := e.objects.modify n fun o =>
      { o with data := .shader (x.withPreshader pre) } } := by
  have hobjects : e.objects.modify n (Object.primed e.params) = e.objects.modify n fun o =>
      { o with data := .shader (x.withPreshader pre) } := by
    refine ext_getElem? fun m => ?_
    rw [getElem?_modify, getElem?_modify]
    split_ifs with hm
    · subst hm
      obtain ⟨o, ho, hx⟩ := bind_eq_some_iff.mp hx
      rw [ho, ← hpre]
      exact congrArg some (Object.primed_of_shader hx)
    · rfl
  rw [primed, hobjects]

/-! ### What selectors choose -/

def choice (e : Effect) (object : Nat) : Except DeviceError Nat :=
  match shaderObject? e object with
  | none => .error (.notAShader object)
  | some x =>
    match x.code with
    | .shader _ => .error (.notAShader object)
    | .selector pre =>
      let fed := selectorWrites e.params (pre.symbols.zip x.preshaderParams)
      match fed.2 with
      | .error error => .error (.effect error)
      | .ok _ =>
        let out := { pre with registers := fed.1.apply pre.registers }.run (.replicate 4 .zero)
        let index := out.2.getD 0 .zero
        match out.1, x.params.head?.bind (e.params[·]?) with
        | some fault, _ => .error (.preshader fault)
        | none, none => .error (.notAShader object)
        | none, some array =>
          match array.value.objects with
          | .error error => .error (.effect error)
          | .ok objects =>
            match objects[index.toIndex]? with
            | some w => .ok w.toNat
            | none => .error (.selectorOutOfRange index objects.length)

/-- Feeding preshaders does not change what is chosen. -/
theorem choice_primed (e : Effect) (n m : Nat) : (e.primed n).choice m = e.choice m := by
  unfold choice
  rw [shaderObject?_primed]
  cases shaderObject? e m with
  | none => rfl
  | some x =>
    by_cases h : n = m
    · simp only [map_some, h, if_true]
      cases hcode : x.code with
      | shader code => rw [primed_of_shader hcode]
      | selector pre =>
        rw [primed_of_selector hcode]
        simp [primed]
    · simp only [map_some, h, if_false]
      rfl

/-! ### What shaders supply -/

open Device (StageRegisters)

/-- What the shader of an object supplies registers with: the writes of its parameters, and then its
preshader, fed, if it has one. -/
def source? (e : Effect) (object : Nat) : Option (Device.ParameterWrites × Option Preshader) :=
  match shaderObject? e object with
  | none => none
  | some x =>
    match x.code with
    | .selector _ => none
    | .shader code => some (Device.linkWrites e.params (code.symbols.zip x.params),
        (x.primed e.params).preshader?)

def supply (e : Effect) (object : Nat) (r : StageRegisters) :
    Option PreshaderError × StageRegisters :=
  match e.source? object with
  | none => (none, r)
  | some (w, none) => (none, r.write w)
  | some (w, some pre) =>
    ((pre.run (r.write w).floats).1, { r.write w with floats := (pre.run (r.write w).floats).2 })

/-- Feeding preshaders does not change what registers are supplied with. -/
theorem source?_primed (e : Effect) (n m : Nat) : (e.primed n).source? m = e.source? m := by
  unfold source?
  rw [shaderObject?_primed]
  cases shaderObject? e m with
  | none => rfl
  | some x =>
    by_cases h : n = m
    · simp only [map_some, h, if_true]
      have hparams : (e.primed m).params = e.params := rfl
      rw [hparams, primed_primed]
      cases hcode : x.code with
      | shader code => simp only [primed_of_shader hcode]
      | selector pre => simp [primed_of_selector hcode]
    · simp only [map_some, h, if_false]
      rfl

theorem supply_primed (e : Effect) (n m : Nat) (r : StageRegisters) :
    (e.primed n).supply m r = e.supply m r := by
  rw [supply, source?_primed, ← supply]

end Effect

namespace Device

namespace RegisterFiles

variable (files : RegisterFiles) (s : Stage) (f : StageRegisters → StageRegisters)

@[simp] theorem stage_modifyStage :
    (files.modifyStage s f).stage s = f (files.stage s) := PerStage.get_set _ _ _

theorem stage_modifyStage_of_ne {s' : Stage} (h : s' ≠ s) :
    (files.modifyStage s f).stage s' = files.stage s' := PerStage.get_set_of_ne _ _ h

theorem modifyStage_modifyStage (f g : StageRegisters → StageRegisters) :
    (files.modifyStage s f).modifyStage s g = files.modifyStage s fun r => g (f r) := by
  cases s <;> rfl

end RegisterFiles

namespace Playback

variable (p : Playback) (states : List Effect.State)

def adopted : Option LinkedProgram → Playback
  | none => p
  | some b => { p with current := ⟨b.vertex, b.pixel⟩ }

def stateNames? (s : Effect.State) : Option (Stage × Nat) :=
  match PlaybackM.boundStage? s.code, s.value.firstWord? with
  | some stage, some w => some (stage, w.toNat)
  | _, _ => none

/-- The playback once an object is named for a stage. Only an object with a shader is to be
bound. -/
def name (p : Playback) (stage : Stage) (object : Nat) : Playback :=
  match p.shader? object with
  | some x =>
    { p with
      named := p.named.set stage (some object)
      current := p.current.set stage (some x) }
  | none =>
    if p.selectors.contains object then { p with named := p.named.set stage (some object) } else p

/-- Naming objects does not change which objects there are. -/
theorem fixed_name (stage : Stage) (object : Nat) :
    (p.name stage object).shaders = p.shaders ∧ (p.name stage object).selectors = p.selectors := by
  unfold name
  split
  · exact ⟨rfl, rfl⟩
  · split_ifs
    · exact ⟨rfl, rfl⟩
    · exact ⟨rfl, rfl⟩

def nameAll (ns : List (Stage × Nat)) : Playback :=
  ns.foldl (fun p n => p.name n.1 n.2) p

def applied : Playback :=
  p.nameAll (states.filterMap stateNames?)

def namesSelector : Bool :=
  (states.filterMap stateNames?).any fun n =>
    (p.shader? n.2).isNone && p.selectors.contains n.2

/-- The selector that is named for a stage, if it is one. -/
def selector? (stage : Stage) : Option Nat :=
  (p.named.get stage).filter p.selectors.contains

def chose (p : Playback) (stage : Stage) (selector chosen : Nat) : Playback :=
  { p with
    effect := p.effect.primed selector
    selected := p.selected.set stage (some chosen)
    current := (p.shader? chosen).elim p.current fun x => p.current.set stage (some x) }

def fed (p : Playback) (stage : Stage) : Playback :=
  { p with effect := (p.selected.get stage).elim p.effect fun object =>
      if (shaderObject? p.effect object).any (·.isSelector) then p.effect
      else p.effect.primed object }

def supply (p : Playback) (stage : Stage) (r : StageRegisters) :
    Option PreshaderError × StageRegisters :=
  (p.selected.get stage).elim (none, r) fun object => p.effect.supply object r

/-- What the shaders in use do to all registers. If the preshader of the first one fails, the other
one gets nothing. -/
def supplyAll (files : RegisterFiles) : Option PreshaderError × RegisterFiles :=
  let vertex := p.supply .vertex (files.stage .vertex)
  let files := files.modifyStage .vertex fun _ => vertex.2
  match vertex.1 with
  | some fault => (some fault, files)
  | none =>
    let pixel := p.supply .pixel (files.stage .pixel)
    (pixel.1, files.modifyStage .pixel fun _ => pixel.2)

theorem supply_fed (stage stage' : Stage) (r : StageRegisters) :
    (p.fed stage).supply stage' r = p.supply stage' r := by
  unfold supply fed
  cases p.selected.get stage' with
  | none => rfl
  | some object =>
    cases p.selected.get stage with
    | none => rfl
    | some other =>
      dsimp only [Option.elim]
      split_ifs
      · rfl
      · exact supply_primed _ _ _ _

end Playback

namespace PlaybackM

variable {α β : Type} {p : Playback} {d : Device} (stage : Stage)

theorem outcome_get_bind (f : Playback → PlaybackM β) :
    ((get : PlaybackM Playback) >>= f).outcome p d = (f p).outcome p d := rfl

theorem outcome_pure (a : α) : (pure a : PlaybackM α).outcome p d = ((.ok a, p), d) := rfl

theorem outcome_modify_bind (g : Playback → Playback) (f : PUnit → PlaybackM β) :
    ((modify g : PlaybackM PUnit) >>= f).outcome p d = (f ⟨⟩).outcome (g p) d := rfl

theorem outcome_usage (r : Except Effect.UsageError α) :
    (usage r).outcome p d = ((r.mapError .effect, p), d) := by
  cases r <;> rfl

/-! ### Selecting -/

theorem runSelector_outcome (object : Nat) : (runSelector object).outcome p d =
    ((p.effect.choice object, { p with
      effect := if (shaderObject? p.effect object).any (·.isSelector) then p.effect.primed object
        else p.effect }), d) := by
  unfold runSelector Effect.choice
  rw [outcome_get_bind]
  dsimp only
  cases hx : shaderObject? p.effect object with
  | none => rfl
  | some x =>
    dsimp only
    cases hcode : x.code with
    | shader code =>
      rw [any_some, isSelector, hcode]
      rfl
    | selector pre =>
      have hprimed : p.effect.primed object = { p.effect with
          objects := p.effect.objects.modify object fun o => { o with
            data := .shader (x.withPreshader { pre with
              registers := (selectorWrites p.effect.params
                (pre.symbols.zip x.preshaderParams)).1.apply pre.registers }) } } := by
        refine primed_of_withPreshader hx ?_
        rw [primed_of_selector hcode, withPreshader, hcode]
      rw [any_some, isSelector, hcode, if_pos rfl, hprimed]
      dsimp only
      rw [feedSelector_eq, setPreshader, outcome_modify_bind, outcome_bind, outcome_usage]
      cases (selectorWrites p.effect.params (pre.symbols.zip x.preshaderParams)).2 with
      | error e => rfl
      | ok _ =>
        dsimp only [Except.mapError]
        cases ({ pre with
          registers := (selectorWrites p.effect.params
            (pre.symbols.zip x.preshaderParams)).1.apply pre.registers } : Preshader).run
              (.replicate 4 .zero) with
        | mk fault out =>
          cases fault with
          | some fault => rfl
          | none =>
            cases x.params.head?.bind (p.effect.params[·]?) with
            | none => rfl
            | some array =>
              dsimp only
              rw [outcome_bind, outcome_usage]
              cases array.value.objects with
              | error e => rfl
              | ok objects =>
                dsimp only [Except.mapError]
                cases objects[(out.getD 0 .zero).toIndex]? <;> rfl

theorem setCurrent_outcome (x : Option CompiledShader) :
    (setCurrent stage x).outcome p d =
      ((.ok (), { p with current := p.current.set stage x }), d.withStore
        ((d.store.holdShader? x).dropShader? (p.current.get stage))) := rfl

/-- What selecting for a stage does: it takes what is named, or the choice of the selector that is
named. Of the device only the counts of references change. -/
inductive Chooses (p : Playback) (d : Device) (stage : Stage) :
    (Except DeviceError Bool × Playback) × Device → Prop
  | named (h : p.selector? stage = none) : Chooses p d stage
      ((.ok false, { p with selected := p.selected.set stage (p.named.get stage) }), d)
  | failed {selector : Nat} (h : p.selector? stage = some selector) (effect : Effect)
      {e : DeviceError} (he : p.effect.choice selector = .error e) :
      Chooses p d stage ((.error e, { p with effect }), d)
  | chose {selector chosen : Nat} (h : p.selector? stage = some selector)
      (hchosen : p.effect.choice selector = .ok chosen) (store : Store) :
      Chooses p d stage ((.ok true, p.chose stage selector chosen), d.withStore store)

/-- Only a selector chooses. -/
theorem isSelector_of_choice {e : Effect} {object chosen : Nat}
    (h : e.choice object = .ok chosen) :
    (shaderObject? e object).any (·.isSelector) = true := by
  unfold Effect.choice at h
  cases hx : shaderObject? e object with
  | none => simp [hx] at h
  | some x =>
    cases hcode : x.code with
    | shader code => simp [hx, hcode] at h
    | selector pre => simp [isSelector, hcode]

theorem chooses_select : Chooses p d stage ((select stage).outcome p d) := by
  unfold select
  rw [outcome_get_bind]
  cases hnamed : p.named.get stage with
  | none =>
    have h : Chooses p d stage _ := .named (by simp [Playback.selector?, hnamed])
    rwa [hnamed] at h
  | some object =>
    dsimp only
    by_cases hselector : p.selectors.contains object = true
    · have h : p.selector? stage = some object := by
        rw [Playback.selector?, hnamed, filter_some, if_pos hselector]
      simp only [hselector, Bool.not_true, Bool.false_eq_true, if_false]
      rw [outcome_bind, runSelector_outcome]
      cases hchoice : p.effect.choice object with
      | error e => exact .failed h _ hchoice
      | ok chosen =>
        dsimp only
        rw [if_pos (isSelector_of_choice hchoice), outcome_modify_bind, outcome_get_bind]
        have hchose := fun store => Chooses.chose (d := d) h hchoice store
        unfold Playback.chose at hchose
        have hshader : Playback.shader? { p with
            effect := p.effect.primed object
            selected := p.selected.set stage (some chosen) } chosen = p.shader? chosen := rfl
        rw [hshader]
        cases hx : p.shader? chosen with
        | none =>
          rw [hx] at hchose
          exact hchose d.store
        | some x =>
          rw [hx] at hchose
          exact hchose _
    · have h : p.selector? stage = none := by
        rw [Playback.selector?, hnamed, filter_some, if_neg hselector]
      have hnamed' : Chooses p d stage _ := .named h
      rw [hnamed] at hnamed'
      rw [if_pos (by simpa using hselector)]
      exact hnamed'

/-! ### Supplying -/

theorem modifyRegisters_outcome (f : StageRegisters → StageRegisters) :
    (modifyRegisters stage f).outcome p d =
      ((.ok (), p), { d with registers := d.registers.modifyStage stage f }) := rfl

theorem runEmbedded_outcome (pre : Preshader) :
    PlaybackM.outcome (do
      let floats := ((← device get).registers.stage stage).floats
      let (failure, floats) := pre.run floats
      modifyRegisters stage fun r => { r with floats }
      match failure with
      | some f => throw (.preshader f)
      | none => return) p d =
    (((match (pre.run (d.registers.stage stage).floats).1 with
      | none => .ok ()
      | some fault => .error (.preshader fault)), p),
      { d with registers := d.registers.modifyStage stage fun r =>
          { r with floats := (pre.run (d.registers.stage stage).floats).2 } }) := by
  have hget : ∀ f : Device → PlaybackM Unit, (device get >>= f).outcome p d = (f d).outcome p d :=
    fun _ => rfl
  rw [hget]
  rw [outcome_bind, modifyRegisters_outcome]
  cases (pre.run (d.registers.stage stage).floats).1 <;> rfl

/-- Feeding a stage supplies its registers, and fails if the preshader does. -/
theorem feed_outcome : (feed stage).outcome p d =
    (((match (p.supply stage (d.registers.stage stage)).1 with
      | none => .ok ()
      | some fault => .error (.preshader fault)), p.fed stage),
      { d with registers := d.registers.modifyStage stage fun _ =>
          (p.supply stage (d.registers.stage stage)).2 }) := by
  have hidle : ∀ effect, effect = p.effect →
      (pure () : PlaybackM Unit).outcome p d = ((.ok (), { p with effect }), { d with
          registers := d.registers.modifyStage stage fun _ => d.registers.stage stage }) := by
    rintro _ rfl
    rw [outcome_pure, RegisterFiles.modifyStage, RegisterFiles.stage, PerStage.set_get]
  unfold feed
  rw [outcome_get_bind]
  unfold Playback.supply Playback.fed
  cases p.selected.get stage with
  | none => exact hidle _ rfl
  | some object =>
    dsimp only [Option.elim]
    unfold supply source?
    cases hx : shaderObject? p.effect object with
    | none =>
      refine hidle _ (Effect.IsPrimed.primed_eq fun x hx' => ?_)
      rw [hx] at hx'
      simp at hx'
    | some x =>
      dsimp only
      cases hcode : x.code with
      | selector pre =>
        rw [any_some, isSelector, hcode]
        exact hidle _ rfl
      | shader code =>
        rw [any_some, isSelector, hcode, if_neg (by simp)]
        rw [outcome_bind, modifyRegisters_outcome, primed_of_shader hcode, preshader?]
        cases hpre : code.preshader with
        | none =>
          have hself : p.effect.IsPrimed object := by
            intro y hy
            obtain rfl := some.inj (hx.symm.trans hy)
            rw [Effect.ShaderObject.primed, preshader?, hcode]
            dsimp only
            rw [hpre]
          rw [hself.primed_eq, map_none]
          dsimp only
          rw [← StageRegisters.copyParameters_eq]
          rfl
        | some pre =>
          have hprimed : x.primed p.effect.params = x.withPreshader { pre with
              registers := (linkWrites p.effect.params
                (pre.symbols.zip x.preshaderParams)).floats.apply pre.registers } := by
            simp [primed_of_shader hcode, withPreshader, hcode, hpre]
          rw [primed_of_withPreshader hx hprimed]
          dsimp only [map_some]
          rw [← StageRegisters.copyParameters_eq, copyParameters_eq, setPreshader,
            outcome_modify_bind]
          refine (runEmbedded_outcome stage _).trans ?_
          rw [RegisterFiles.stage_modifyStage, RegisterFiles.modifyStage_modifyStage]
          rfl

/-! ### Naming shaders -/

theorem adoptBound_outcome : ∃ store,
    adoptBound.outcome p d = ((.ok (), p.adopted d.bound), d.withStore store) := by
  have hget : ∀ f : Device → PlaybackM Unit, (device get >>= f).outcome p d = (f d).outcome p d :=
    fun _ => rfl
  unfold adoptBound
  rw [hget]
  cases d.bound with
  | none => exact ⟨d.store, rfl⟩
  | some b => exact ⟨_, rfl⟩

theorem applyStates_outcome (states : List Effect.State) : ∃ store,
    (applyStates states).outcome p d =
      ((.ok (p.namesSelector states), p.applied states), d.withStore store) := by
  induction states generalizing p d with
  | nil => exact ⟨d.store, rfl⟩
  | cons s rest ih =>
    have hrest : ∀ (selects : Bool) (q : Playback) (d : Device), ∃ store,
        PlaybackM.outcome (do return (← applyStates rest) || selects) q d =
          ((.ok (q.namesSelector rest || selects), q.applied rest), d.withStore store) := by
      intro selects q d
      obtain ⟨store, hrun⟩ := ih (p := q) (d := d)
      refine ⟨store, ?_⟩
      rw [outcome_bind, hrun]
      rfl
    have hnone (hnames : Playback.stateNames? s = none) :
        p.namesSelector (s :: rest) = (p.namesSelector rest || false) ∧
          p.applied (s :: rest) = p.applied rest := by
      simp [Playback.namesSelector, Playback.applied, hnames]
    have hsome {stage : Stage} {object : Nat}
        (hnames : Playback.stateNames? s = some (stage, object)) :
        p.namesSelector (s :: rest) = ((p.name stage object).namesSelector rest ||
          ((p.shader? object).isNone && p.selectors.contains object)) ∧
          p.applied (s :: rest) = (p.name stage object).applied rest := by
      obtain ⟨hshaders, hselectors⟩ := p.fixed_name stage object
      simp [Playback.namesSelector, Playback.applied, Playback.nameAll, hnames, Playback.shader?,
        hshaders, hselectors, Bool.or_comm]
    unfold applyStates
    rw [outcome_get_bind]
    dsimp only
    split
    · rename_i stage w hstage hword
      have hnames : Playback.stateNames? s = some (stage, w.toNat) := by
        rw [Playback.stateNames?, hstage, hword]
      rw [(hsome hnames).1, (hsome hnames).2, Playback.name]
      cases hx : p.shader? w.toNat with
      | some x =>
        exact hrest false _ _
      | none =>
        cases p.selectors.contains w.toNat with
        | true => exact hrest true _ d
        | false => exact hrest false p d
    · rename_i hother
      have hnames : Playback.stateNames? s = none := by
        unfold Playback.stateNames?
        split
        · rename_i stage w hstage hword
          exact absurd hword (hother stage w hstage)
        · rfl
      rw [(hnone hnames).1, (hnone hnames).2]
      exact hrest false p d

end PlaybackM

end Device

end ShaderPipeline
