import ShaderPipeline.Device.Playback
import ShaderPipeline.Proofs.Device.Moves

/-!
# Playing as moves

A playback refers to the shaders that were compiled for its effect, to those it is about to bind,
and to the program it will bind again. Every step of playing, and also compiling and deleting an
effect, is a sequence of moves on the books of the device.
-/

namespace ShaderPipeline.Device

open Multiset Playback

open Books

namespace Playback

def heldShaders (p : Playback) : Multiset CompiledShader :=
  ↑(p.shaders.map (·.2)) + (↑p.current.vertex.toList + ↑p.current.pixel.toList)

theorem mem_heldShaders_of_current {p : Playback} {stage : Stage} {x : CompiledShader}
    (h : x ∈ p.current.get stage) : x ∈ p.heldShaders := by
  refine mem_add.mpr (Or.inr (mem_add.mpr ?_))
  cases stage with
  | vertex => exact Or.inl (Option.mem_toList.mpr h)
  | pixel => exact Or.inr (Option.mem_toList.mpr h)

def heldPrograms (p : Playback) : Multiset LinkedProgram := ↑p.saved.toList

def books (p : Playback) (d : Device) (shaders : Multiset CompiledShader)
    (programs : Multiset LinkedProgram) : Books :=
  d.books (p.heldShaders + shaders) (p.heldPrograms + programs)

end Playback

namespace PlaybackM

variable {α β : Type} (m : PlaybackM α) (stage : Stage)

def outcome (p : Playback) (d : Device) : (Except DeviceError α × Playback) × Device :=
  (m.run.run p).run d

def MovesFrom (p : Playback) (d : Device) : Prop :=
  ∀ shaders programs, Reaches (p.books d shaders programs)
    ((m.outcome p d).1.2.books (m.outcome p d).2 shaders programs)

def Moves : Prop := ∀ p d, m.MovesFrom p d

section Rules

variable {p : Playback} {d : Device}

theorem outcome_bind (m : PlaybackM α) (f : α → PlaybackM β) (p : Playback) (d : Device) :
    (m >>= f).outcome p d =
      match m.outcome p d with
      | ((.ok a, p'), d') => (f a).outcome p' d'
      | ((.error e, p'), d') => ((.error e, p'), d') := by
  rcases h : m.outcome p d with ⟨⟨r, p'⟩, d'⟩
  have h' : (m >>= f).outcome p d = ((ExceptT.bindCont f (m.outcome p d).1.1).run
      (m.outcome p d).1.2).run (m.outcome p d).2 := rfl
  rw [h', h]
  cases r <;> rfl

theorem MovesFrom.bind {m : PlaybackM α} {f : α → PlaybackM β} (hm : m.MovesFrom p d)
    (hf : ∀ a p' d', m.outcome p d = ((.ok a, p'), d') → (f a).MovesFrom p' d') :
    (m >>= f).MovesFrom p d := by
  intro shaders programs
  have hfirst := hm shaders programs
  rw [outcome_bind]
  rcases h : m.outcome p d with ⟨⟨r, p'⟩, d'⟩
  rw [h] at hfirst
  cases r with
  | error e => exact hfirst
  | ok a => exact hfirst.trans (hf a p' d' h shaders programs)

theorem Moves.bind {m : PlaybackM α} {f : α → PlaybackM β} (hm : m.Moves)
    (hf : ∀ a, (f a).Moves) : (m >>= f).Moves :=
  fun p d => (hm p d).bind fun a p' d' _ => hf a p' d'

theorem moves_pure (a : α) : (pure a : PlaybackM α).Moves := fun _ _ _ _ => .refl

theorem moves_throw (e : DeviceError) : (throw e : PlaybackM α).Moves := fun _ _ _ _ => .refl

theorem moves_throw_bind (e : DeviceError) (f : α → PlaybackM β) :
    ((throw e : PlaybackM α) >>= f).Moves := fun _ _ _ _ => .refl

theorem moves_usage (r : Except Effect.UsageError α) : (usage r).Moves := by
  cases r with
  | ok a => exact moves_pure a
  | error e => exact moves_throw _

theorem movesFrom_get {f : Playback → PlaybackM β} (h : (f p).MovesFrom p d) :
    ((get : PlaybackM Playback) >>= f).MovesFrom p d := h

theorem movesFrom_modify {g : Playback → Playback} {f : PUnit → PlaybackM β}
    (hshaders : (g p).heldShaders = p.heldShaders) (hprograms : (g p).heldPrograms = p.heldPrograms)
    (h : (f ⟨⟩).MovesFrom (g p) d) : ((modify g : PlaybackM PUnit) >>= f).MovesFrom p d := by
  intro shaders programs
  have hbooks : (g p).books d shaders programs = p.books d shaders programs := by
    rw [Playback.books, hshaders, hprograms]
    rfl
  rw [← hbooks]
  exact h shaders programs

theorem moves_device {op : DeviceOp α} (h : ∀ d shaders programs,
      Reaches (d.books shaders programs) ((op.run.run d).2.books shaders programs)) :
    (device op).Moves :=
  fun _ d _ _ => h d _ _

theorem movesFrom_device_get {f : Device → PlaybackM β} (h : (f d).MovesFrom p d) :
    (device get >>= f).MovesFrom p d := h

end Rules

/-! ### References of a playback -/

section References

variable {p : Playback} {d : Device}

theorem movesFrom_setCurrent (stage : Stage) {s : Option CompiledShader}
    (hs : ∀ x ∈ s, x ∈ p.shaders.map (·.2)) : (setCurrent stage s).MovesFrom p d := by
  intro shaders programs
  let p' : Playback := { p with current := p.current.set stage s }
  have hrun : (setCurrent stage s).outcome p d = ((.ok (), p'), d.withStore
      ((d.store.holdShader? s).dropShader? (p.current.get stage))) := rfl
  have hheld : (↑s.toList : Multiset CompiledShader) + (p.heldShaders + shaders) =
      ↑(p.current.get stage).toList + (p'.heldShaders + shaders) := by
    cases stage <;> simp only [heldShaders, PerStage.get, PerStage.set, p'] <;> ac_rfl
  rw [hrun]
  have hhold := @reaches_holdShader? (fun _ => True) d (p.heldShaders + shaders)
    (p.heldPrograms + programs) s fun x hx => mem_shaderRefs_of_shaders d
      (mem_add.mpr (Or.inl (mem_add.mpr (Or.inl (hs x hx)))))
  rw [hheld] at hhold
  exact hhold.trans (reaches_dropShader? _ _)

theorem moves_adoptBound : adoptBound.Moves := by
  intro p d
  refine movesFrom_device_get ?_
  cases hbound : d.bound with
  | none => exact moves_pure _ p d
  | some b =>
    intro shaders programs
    let p' : Playback := { p with current := ⟨b.vertex, b.pixel⟩ }
    let d' := d.withStore ((d.store.holdShader? b.vertex).holdShader? b.pixel)
    have hheld : (↑b.pixel.toList : Multiset CompiledShader) +
        (↑b.vertex.toList + (p.heldShaders + shaders)) = ↑p.current.vertex.toList +
          (↑p.current.pixel.toList + (p'.heldShaders + shaders)) := by
      simp only [heldShaders, p']
      ac_rfl
    have hb : ∀ d : Device, d.bound = some b → ∀ shaders programs,
        (∀ s ∈ b.vertex, s ∈ (d.books shaders programs).shaderRefs) ∧
          ∀ s ∈ b.pixel, s ∈ (d.books shaders programs).shaderRefs := fun d hd shaders programs =>
      mem_shaderRefs_of_program (mem_programRefs_of_bound d hd)
    -- The shaders of the bound program are held before the old ones are let go.
    have hhold : Reaches _ _ := (reaches_holdShader? d b.vertex
      (hb d hbound (p.heldShaders + shaders) (p.heldPrograms + programs)).1).trans
        (reaches_holdShader? _ b.pixel (hb (d.withStore _) hbound _ _).2)
    rw [hheld] at hhold
    exact (hhold.trans (reaches_dropShader? d' p.current.vertex)).trans
      (reaches_dropShader? (d'.withStore _) p.current.pixel)

theorem moves_bindCurrent : bindCurrent.Moves := by
  intro p d
  have hcurrent (stage : Stage) (shaders : Multiset CompiledShader) :
      ∀ x ∈ p.current.get stage, x ∈ p.heldShaders + shaders :=
    fun x hx => mem_add.mpr (Or.inl (mem_heldShaders_of_current hx))
  exact movesFrom_get fun shaders programs =>
    reaches_bindShaders d (hcurrent .vertex shaders) (hcurrent .pixel shaders)

theorem mem_of_shader? {object : Nat} {s : CompiledShader} (h : p.shader? object = some s) :
    s ∈ p.shaders.map (·.2) := by
  obtain ⟨first, last, hshaders, -⟩ := List.lookup_eq_some_iff.mp h
  rw [hshaders]
  simp

end References

/-! ### Steps of playing -/

theorem moves_setPreshader (object : Nat) (x : Effect.ShaderObject) (pre : Preshader) :
    (setPreshader object x pre).Moves :=
  fun _ _ _ _ => .refl

theorem moves_modifyRegisters (f : StageRegisters → StageRegisters) :
    (modifyRegisters stage f).Moves :=
  moves_device fun _ _ _ => .refl

theorem moves_runSelector (object : Nat) : (runSelector object).Moves := by
  intro p d
  refine movesFrom_get ?_
  dsimp only
  split
  · exact moves_throw _ p d
  · split
    · exact moves_throw _ p d
    · refine Moves.bind (moves_setPreshader _ _ _) (fun _ => (moves_usage _).bind fun _ => ?_) p d
      split
      · exact moves_throw_bind _ _
      · split
        · exact moves_throw _
        · refine (moves_usage _).bind fun objects => ?_
          split
          · exact moves_pure _
          · exact moves_throw _

theorem moves_select : (select stage).Moves := by
  intro p d
  refine movesFrom_get ?_
  split
  · exact movesFrom_modify (g := fun _ => _) rfl rfl (moves_pure _ _ _)
  · rename_i object _
    split_ifs
    · exact movesFrom_modify (g := fun _ => _) rfl rfl (moves_pure _ _ _)
    · refine (moves_runSelector object p d).bind fun chosen p d _ => ?_
      refine movesFrom_modify rfl rfl (movesFrom_get ?_)
      split
      · rename_i s hs
        exact (movesFrom_setCurrent stage fun x hx => Option.some.inj hx ▸ mem_of_shader? hs).bind
          fun _ p' d' _ => moves_pure _ p' d'
      · exact moves_pure _ _ _

theorem moves_feed : (feed stage).Moves := by
  intro p d
  refine movesFrom_get ?_
  split
  · exact moves_pure _ p d
  · split
    · exact moves_pure _ p d
    · split
      · exact moves_pure _ p d
      · refine Moves.bind (moves_modifyRegisters _ _) (fun _ => ?_) p d
        split
        · exact moves_pure _
        · refine (moves_setPreshader _ _ _).bind fun _ p d => ?_
          refine movesFrom_device_get (Moves.bind (moves_modifyRegisters _ _) (fun _ => ?_) p d)
          split
          · exact moves_throw _
          · exact moves_pure _

theorem moves_commit : commit.Moves := by
  refine (moves_select .vertex).bind fun vertex => (moves_select .pixel).bind fun pixel => ?_
  have hfeed : (do feed .vertex; feed .pixel; device touch).Moves :=
    (moves_feed _).bind fun _ => (moves_feed _).bind fun _ => moves_device fun _ _ _ => .refl
  split_ifs
  · exact moves_bindCurrent.bind fun _ => hfeed
  · exact hfeed

theorem moves_applyStates (states : List Effect.State) : (applyStates states).Moves := by
  induction states with
  | nil => exact moves_pure _
  | cons s rest ih =>
    have hrest : ∀ selects : Bool, (do return (← applyStates rest) || selects).Moves :=
      fun selects => ih.bind fun _ => moves_pure _
    intro p d
    refine movesFrom_get ?_
    dsimp only
    split
    · split
      · rename_i x hx
        refine movesFrom_modify rfl rfl ?_
        refine (movesFrom_setCurrent _ fun y hy => ?_).bind fun _ p' d' _ => hrest _ p' d'
        exact Option.some.inj hy ▸ mem_of_shader? hx
      · split_ifs
        · exact movesFrom_modify rfl rfl (hrest _ _ d)
        · exact hrest _ p d
    · exact hrest _ p d

theorem moves_beginPass (pass : Nat) : (beginPass pass).Moves := by
  refine moves_adoptBound.bind fun _ p d => movesFrom_get ?_
  refine (moves_usage _ p d).bind fun e p' d' _ => movesFrom_modify rfl rfl ?_
  refine Moves.bind (moves_applyStates _) (fun selects => ?_) _ d'
  split_ifs
  · exact moves_bindCurrent.bind fun _ => moves_commit
  · exact moves_commit

theorem moves_endPass : endPass.Moves := by
  intro p d
  refine movesFrom_get ((moves_usage _ p d).bind fun effect p' d' _ => ?_)
  exact fun _ _ => .refl

theorem moves_start (save : Bool) : (start save).Moves := by
  have hlast : (do
      modify fun p => { p with restores := save, active := true }
      return (← get).effect.passCount : PlaybackM Nat).Moves := fun _ _ _ _ => .refl
  intro p d
  cases save with
  | false => exact hlast p d
  | true =>
    intro shaders programs
    let p' : Playback := { p with saved := d.bound }
    let d' := d.withStore ((d.store.holdProgram? d.bound).dropProgram? p.saved)
    have hsaved : Reaches (p.books d shaders programs) (p'.books d' shaders programs) := by
      have hhold := @reaches_holdProgram? (fun _ => True) d (p.heldShaders + shaders)
        (p.heldPrograms + programs) d.bound fun q hq => mem_programRefs_of_bound d hq
      rw [heldPrograms, add_left_comm] at hhold
      exact hhold.trans (reaches_dropProgram? _ p.saved)
    exact hsaved.trans (hlast p' d' shaders programs)

theorem moves_stop : stop.Moves := by
  have hlast : (modify fun p => { p with active := false } : PlaybackM Unit).Moves :=
    fun _ _ _ _ => .refl
  intro p d
  refine movesFrom_get ?_
  split_ifs
  · intro shaders programs
    let p' : Playback := { p with restores := false, saved := none }
    have hbind := @reaches_bindHeld (fun _ => True) d (p.heldShaders + shaders)
      (p.heldPrograms + programs) (p := p.saved) fun q hq => mem_add.mpr (Or.inl (Option.mem_toList.mpr hq))
    rw [heldPrograms, add_tsub_cancel_left] at hbind
    have hrestored : Reaches (p.books d shaders programs)
        (p'.books ((bindHeld p.saved).run d).2 shaders programs) := by
      have hnone : p'.heldPrograms + programs = programs := zero_add programs
      rw [Playback.books, Playback.books, hnone]
      exact hbind
    exact hrestored.trans (hlast p' _ shaders programs)
  · exact hlast p d

end PlaybackM

/-! ### Compiling and deleting effects -/

section Effects

variable (d : Device) {shaders : Multiset CompiledShader} {programs : Multiset LinkedProgram}
  (p : Playback) (xs : List (Nat × CompiledShader))

theorem reaches_deleteShaders :
    Reaches (d.books (↑(xs.map (·.2)) + shaders) programs)
      (((deleteShaders xs).run d).2.books shaders programs) := by
  induction xs generalizing d with
  | nil =>
    rw [List.map_nil, coe_nil, zero_add]
    exact .refl
  | cons x xs ih =>
    rw [List.map_cons, ← cons_coe, cons_add]
    have hdelete := @reaches_deleteShader _ (fun _ => True) d _ programs
      (mem_cons_self x.2 (↑(xs.map (·.2)) + shaders))
    rw [Multiset.erase_cons_head] at hdelete
    exact hdelete.trans (ih _)

/-- Compiling objects gives the shaders of all of them, or of none. -/
theorem reaches_compileObjects (objects : List Effect.Object) (index : Nat)
    (xs : List (Nat × CompiledShader)) :
    Reaches (d.books (↑(xs.map (·.2)) + shaders) programs)
      (((compileObjects objects index xs).run.run d).2.books
        ((won ((compileObjects objects index xs).run.run d).1).bind
          (fun ys => ↑(ys.map (·.2))) + shaders) programs) := by
  induction objects generalizing d index xs with
  | nil =>
    have hrun : (compileObjects [] index xs).run.run d = (.ok xs, d) := rfl
    rw [hrun, won, singleton_bind]
  | cons o rest ih =>
    rw [compileObjects]
    split
    · rename_i code _ _
      have hcompile : Reaches (d.books (↑(xs.map (·.2)) + shaders) programs) _ :=
        @reaches_compileLowered (fun _ => True) d _ _ code trivial
      rcases hrun : (compileLowered code).run.run d with ⟨r, d'⟩
      rw [hrun] at hcompile
      rw [ExceptT.run_mk, run_bind, hrun]
      cases r with
      | ok s =>
        have hheld : won (.ok s) + (↑(xs.map (·.2)) + shaders) =
            ↑((xs ++ [(index, s)]).map (·.2)) + shaders := by
          rw [won, List.map_append, ← coe_add, ← add_assoc,
            add_comm ({s} : Multiset CompiledShader)]
          rfl
        rw [hheld] at hcompile
        exact hcompile.trans (ih d' (index + 1) (xs ++ [(index, s)]))
      | error e =>
        rw [won, zero_add] at hcompile
        refine hcompile.trans ?_
        change Reaches _ (((deleteShaders xs).run d').2.books (0 + shaders) programs)
        rw [zero_add]
        exact reaches_deleteShaders d' xs
    · exact ih d (index + 1) xs

theorem reaches_compileEffect (effect : Effect) :
    Reaches (d.books shaders programs) (((compileEffect effect).run.run d).2.books
      ((won ((compileEffect effect).run.run d).1).bind heldShaders + shaders)
      ((won ((compileEffect effect).run.run d).1).bind heldPrograms + programs)) := by
  have hcompile := @reaches_compileObjects d shaders programs effect.objects.toList 0 []
  rw [List.map_nil, coe_nil, zero_add] at hcompile
  rw [compileEffect, op_bind]
  rcases hrun : (compileObjects effect.objects.toList 0 []).run.run d with ⟨r, d'⟩
  rw [hrun] at hcompile
  cases r with
  | error e =>
    change Reaches _ (d'.books (0 + shaders) (0 + programs))
    rw [zero_add programs]
    exact hcompile
  | ok xs =>
    let p : Playback := ⟨effect, xs, selectorObjects effect.objects.toList, .both none, .both none,
      .both none, none, false, false⟩
    change Reaches _ (d'.books ((won (.ok p)).bind heldShaders + shaders)
      ((won (.ok p)).bind heldPrograms + programs))
    have hshaders : p.heldShaders = ↑(xs.map (·.2)) := add_zero _
    have hprograms : p.heldPrograms = 0 := rfl
    rw [won, singleton_bind] at hcompile
    rw [won, singleton_bind, singleton_bind, hshaders, hprograms, zero_add]
    exact hcompile

theorem reaches_dropShaders :
    Reaches (d.books (↑(xs.map (·.2)) + shaders) programs)
      ((d.withStore (d.store.dropShaders xs)).books shaders programs) := by
  induction xs generalizing d with
  | nil =>
    rw [List.map_nil, coe_nil, zero_add]
    exact .refl
  | cons x xs ih =>
    rw [List.map_cons, ← cons_coe, cons_add]
    exact (reaches_dropShader? d (some x.2)).trans (ih (d.withStore (d.store.dropShader x.2)))

theorem reaches_dropCurrent :
    Reaches (d.books (↑p.current.vertex.toList + (↑p.current.pixel.toList + shaders))
        (p.heldPrograms + programs))
      ((d.withStore (p.dropCurrent d.store)).books shaders programs) := by
  exact ((reaches_dropShader? d p.current.vertex).trans (reaches_dropShader? (d.withStore _)
    p.current.pixel)).trans (reaches_dropProgram? (d.withStore _) p.saved)

theorem reaches_drop :
    Reaches (p.books d shaders programs)
      ((d.withStore (p.drop d.store)).books shaders programs) := by
  rw [Playback.books, heldShaders, add_assoc, add_assoc]
  exact (reaches_dropShaders d p.shaders).trans (reaches_dropCurrent (d.withStore _) p)

theorem reaches_delete :
    Reaches (p.books d shaders programs) ((p.delete.run d).2.books shaders programs) := by
  rw [Playback.books, heldShaders, add_assoc, add_assoc]
  exact (reaches_deleteShaders d p.shaders).trans (reaches_dropCurrent _ p)

end Effects

end ShaderPipeline.Device
