import Mathlib.Data.List.Perm.Basic
import ShaderPipeline.Proofs.Device.Playing

/-!
# Lifetimes of objects

A player is a client that also plays effects. Whatever a player does, in whatever order, the calls
on record name only objects that exist, and what anyone refers to exists. Once the player has let go
of everything and the device is ended, every object has been deleted, and none twice.
-/

namespace ShaderPipeline.Device

open Multiset PlaybackM List Playback

open Books

/-- A step of playing an effect. The effect itself may be edited between steps. -/
inductive PlayStep where
  | start (save : Bool)
  | beginPass (pass : Nat)
  | commit
  | endPass
  | stop
  | edit (effect : Effect)

def PlayStep.run : PlayStep → PlaybackM Unit
  | .start save => do let _ ← PlaybackM.start save
  | .beginPass pass => PlaybackM.beginPass pass
  | .commit => PlaybackM.commit
  | .endPass => PlaybackM.endPass
  | .stop => PlaybackM.stop
  | .edit effect => modify fun p => { p with effect }

theorem PlayStep.moves_run (step : PlayStep) : step.run.Moves := by
  cases step with
  | start save => exact (moves_start save).bind fun _ => moves_pure _
  | beginPass pass => exact moves_beginPass pass
  | commit => exact moves_commit
  | endPass => exact moves_endPass
  | stop => exact moves_stop
  | edit effect => exact fun _ _ _ _ => .refl

/-- A client and the effects that it has compiled. -/
structure Player where
  client : Client
  playbacks : List Playback

/-- What a player can do: ask for something as a client, compile an effect, play one, delete one or
let go of it, or take a handle of a shader that was compiled for one. The driver may come to answer
otherwise. -/
inductive Order where
  | ask (r : Request)
  | compileEffect (effect : Effect)
  | play (i : Nat) (step : PlayStep)
  | deleteEffect (i : Nat)
  | dropEffect (i : Nat)
  | shareShader (i object : Nat)
  | answer (driver : Driver)

namespace Player

def new (d : Device) : Player := ⟨.new d, []⟩

def withDevice (s : Player) (d : Device) : Player :=
  { s with client := { s.client with device := d } }

def Allows (s : Player) : Order → Prop
  | .ask r => s.client.Allows r
  | _ => True

/-- Carries out an order. There may be no effect with a number. -/
def perform (s : Player) : Order → Player
  | .ask r => { s with client := s.client.perform r }
  | .compileEffect effect =>
    match (Device.compileEffect effect).run.run s.client.device with
    | (.ok p, d) => { s.withDevice d with playbacks := p :: s.playbacks }
    | (.error _, d) => s.withDevice d
  | .play i step =>
    match s.playbacks[i]? with
    | none => s
    | some p =>
      let ((_, p'), d) := step.run.outcome p s.client.device
      { s.withDevice d with playbacks := s.playbacks.set i p' }
  | .deleteEffect i =>
    match s.playbacks[i]? with
    | none => s
    | some p =>
      { s.withDevice (p.delete.run s.client.device).2 with playbacks := s.playbacks.eraseIdx i }
  | .dropEffect i =>
    match s.playbacks[i]? with
    | none => s
    | some p =>
      { s.withDevice (s.client.device.withStore (p.drop s.client.device.store)) with
        playbacks := s.playbacks.eraseIdx i }
  | .shareShader i object =>
    match s.playbacks[i]?.bind (·.shader? object) with
    | none => s
    | some x =>
      { s with client :=
        { s.client with
          device := s.client.device.withStore (s.client.device.store.holdShader x)
          shaders := x :: s.client.shaders } }
  | .answer driver => { s with client := s.client.answering driver }

/-- The players that a run of orders leads to, from a new device on. -/
inductive Run (d : Device) : List Order → Player → Prop
  | start : Run d [] (.new d)
  | step {orders : List Order} {s : Player} (before : Run d orders s) (o : Order)
      (allowed : s.Allows o) : Run d (orders ++ [o]) (s.perform o)

def books (s : Player) : Books :=
  s.client.books ((↑s.playbacks : Multiset Playback).bind Playback.heldShaders)
    ((↑s.playbacks : Multiset Playback).bind Playback.heldPrograms)

theorem books_of_perm (s : Player) {p : Playback} {rest : List Playback}
    (h : s.playbacks.Perm (p :: rest)) :
    s.books = p.books s.client.device
      (↑s.client.shaders + (↑rest : Multiset Playback).bind heldShaders)
      (↑s.client.programs + (↑rest : Multiset Playback).bind heldPrograms) := by
  have hcoe : (↑s.playbacks : Multiset Playback) = p ::ₘ ↑rest := coe_eq_coe.mpr h
  rw [books, hcoe, cons_bind, cons_bind, Client.books, Playback.books,
    add_left_comm, add_left_comm p.heldPrograms]

theorem perm_of_getElem? {s : Player} {i : Nat} {p : Playback} (h : s.playbacks[i]? = some p) :
    s.playbacks.Perm (p :: s.playbacks.eraseIdx i) := by
  obtain ⟨hi, rfl⟩ := List.getElem?_eq_some_iff.mp h
  exact (getElem_cons_eraseIdx_perm hi).symm

theorem reaches_perform {s : Player} {o : Order} (h : s.Allows o) :
    Reaches s.books (s.perform o).books := by
  cases o with
  | ask r => exact s.client.reaches_perform _ _ h
  | compileEffect effect =>
    have hcompile := @reaches_compileEffect s.client.device
      (↑s.client.shaders + (↑s.playbacks : Multiset Playback).bind heldShaders)
      (↑s.client.programs + (↑s.playbacks : Multiset Playback).bind heldPrograms) effect
    rw [perform]
    rcases hrun : (Device.compileEffect effect).run.run s.client.device with ⟨r, d⟩
    rw [hrun] at hcompile
    cases r with
    | error e =>
      rw [won, zero_bind, zero_bind, zero_add, zero_add] at hcompile
      exact hcompile
    | ok p =>
      rw [won, singleton_bind, singleton_bind] at hcompile
      rw [books_of_perm ⟨_, p :: s.playbacks⟩ (.refl _)]
      exact hcompile
  | play i step =>
    rw [perform]
    cases hp : s.playbacks[i]? with
    | none => exact .refl
    | some p =>
      obtain ⟨hi, -⟩ := List.getElem?_eq_some_iff.mp hp
      rw [s.books_of_perm (perm_of_getElem? hp),
        books_of_perm ⟨_, s.playbacks.set i _⟩ (set_perm_cons_eraseIdx hi _)]
      exact step.moves_run p s.client.device _ _
  | deleteEffect i =>
    rw [perform]
    cases hp : s.playbacks[i]? with
    | none => exact .refl
    | some p =>
      rw [s.books_of_perm (perm_of_getElem? hp)]
      exact reaches_delete s.client.device p
  | dropEffect i =>
    rw [perform]
    cases hp : s.playbacks[i]? with
    | none => exact .refl
    | some p =>
      rw [s.books_of_perm (perm_of_getElem? hp)]
      exact reaches_drop s.client.device p
  | shareShader i object =>
    rw [perform]
    cases hx : s.playbacks[i]?.bind (·.shader? object) with
    | none => exact .refl
    | some x =>
      obtain ⟨p, hp, hx⟩ := Option.bind_eq_some_iff.mp hx
      have hheld : x ∈ (↑s.client.shaders +
          (↑s.playbacks : Multiset Playback).bind heldShaders : Multiset CompiledShader) :=
        mem_add.mpr (Or.inr (mem_bind.mpr ⟨p, mem_of_getElem? hp,
          mem_add.mpr (Or.inl (mem_of_shader? hx))⟩))
      refine reaches_of_move (.holdShader x (mem_shaderRefs_of_shaders _ hheld)) ?_
      rw [← cons_coe, cons_add]
      rfl
  | answer driver => exact .refl

theorem Run.ledger {driver : Driver} {config : Config} {d : Device} {orders : List Order}
    {s : Player} (hcreate : Device.create driver config = .ok d) (hrun : Run d orders s) :
    s.books.Ledger := by
  induction hrun with
  | start => exact ledger_create hcreate
  | step _ o hallowed ih => exact ih.reaches (reaches_perform hallowed)

end Player

/-! ### The end of a device -/

/-- If nothing is referred to and nothing is queued, nothing exists. -/
theorem Books.Ledger.after_eq_zero {b : Books} (h : b.Ledger) (hshaders : b.shaders = 0)
    (hrefs : b.programRefs = 0) (hreleased : b.store.released = []) :
    Registry.after 0 b.calls = 0 := by
  rw [h.accounts.balanced, hshaders, hrefs, Store.owed, Store.queued, hreleased]
  cases b.glsl <;> rfl

variable (d : Device)

theorem createdBy_say (cs : List Call) :
    createdBy (d.say cs).calls.toList = createdBy d.calls.toList ++ createdBy cs := by
  rw [calls_say, createdBy, filterMap_append]
  rfl

theorem createdBy_of_about {cs : List Call} (h : About [.binding, .value, .drawing] cs) :
    createdBy cs = [] :=
  filterMap_eq_nil_iff.mpr fun c hc => (leaves_of_about h c hc).1

theorem createdBy_deletions (glsl : Bool) (rs : List Released) :
    createdBy (deletions glsl rs) = [] := by
  refine filterMap_eq_nil_iff.mpr fun c hc => ?_
  obtain ⟨r, -, hc⟩ := mem_flatMap.mp hc
  cases r <;> cases glsl <;> simp at hc <;> simp [hc, Call.creates?]

theorem createdBy_collected : createdBy d.collected.calls.toList = createdBy d.calls.toList := by
  rw [collected, createdBy_say, createdBy_deletions, append_nil]

theorem createdBy_bindHeld_none :
    createdBy ((bindHeld none).run d).2.calls.toList = createdBy d.calls.toList := by
  rw [bindHeld_run]
  split_ifs
  · rfl
  · have huse : ∀ (d : Device) (names : ProgramNames),
        createdBy (d.say (useCalls d.profile.isGlsl names)).calls.toList =
          createdBy d.calls.toList := by
      intro d names
      rw [createdBy_say, createdBy_of_about ((about_useCalls _ _).mono (by simp)), append_nil]
    have harranged : createdBy d.cleared.arranged.calls.toList = createdBy d.calls.toList := by
      have hsay := createdBy_say d.cleared d.cleared.enablingCalls
      rw [createdBy_of_about ((about_enablingCalls _).mono (by simp)), append_nil] at hsay
      exact hsay
    rw [createdBy_collected]
    exact (huse d.cleared.arranged _).trans harranged

theorem createdBy_close : createdBy (close.run d).2.calls.toList = createdBy d.calls.toList := by
  rw [close_run, createdBy_collected]
  exact createdBy_bindHeld_none d

theorem programRefs_close :
    ((close.run d).2.books 0 0).programRefs = 0 ∧ (close.run d).2.store.released = [] := by
  have hbound : ((bindHeld none).run d).2.bound = none := by
    rw [bindHeld_run]
    split_ifs with hsame
    · cases hd : d.bound with
      | none => exact hd
      | some p => simp [hd, sameProgram] at hsame
    · rfl
  have hreleased : ∀ d : Device, d.collected.store.released = [] := fun _ => rfl
  rw [close_run]
  refine ⟨?_, hreleased _⟩
  change (0 : Multiset LinkedProgram) + ↑([] : List LinkedProgram) +
    ↑((bindHeld none).run d).2.bound.toList = 0
  rw [hbound]
  rfl

namespace Player

/-- The lifetimes of objects, along every run on which the driver gives new names. Calls name only
objects that were created and not deleted before. Whatever anyone refers to was not deleted: a
shader as little as a program. If the player has let go of everything and the device is ended,
every object was deleted once. -/
theorem object_lifetimes {driver : Driver} {config : Config} {d : Device} {orders : List Order}
    {s : Player} (hcreate : Device.create driver config = .ok d) (hrun : Run d orders s)
    (hfresh : (createdBy s.client.device.calls.toList).Nodup) :
    NamesAlive s.client.device.calls.toList ∧
    (∀ x ∈ s.books.shaderRefs,
      Alive s.client.device.calls.toList (x.object s.client.device.profile.isGlsl)) ∧
    (s.client.device.profile.isGlsl = true → ∀ p ∈ s.books.programRefs,
      Alive s.client.device.calls.toList (.program p.names.program)) ∧
    (s.client.shaders = [] → s.client.programs = [] → s.playbacks = [] →
      NamesAlive (close.run s.client.device).2.calls.toList ∧
      ∀ x ∈ createdBy (close.run s.client.device).2.calls.toList,
        (deletedBy (close.run s.client.device).2.calls.toList).count x = 1) := by
  have h := hrun.ledger hcreate
  refine ⟨Registry.namesAlive h.admitted hfresh, fun x hx => ?_, fun hg p hp => ?_,
    fun hshaders hprograms hplaybacks => ?_⟩
  · exact Registry.alive_of_mem h.admitted hfresh (h.mem_of_shader hx)
  · have haccounts := h.accounts
    have hglsl : s.books.glsl = true := hg
    rw [hglsl] at haccounts
    exact Registry.alive_of_mem h.admitted hfresh (haccounts.mem_of_program hp)
  · have hbooks : s.books = s.client.device.books 0 0 := by
      rw [books, Client.books, hshaders, hprograms, hplaybacks]
      rfl
    have hclosed := (hbooks ▸ h).reaches (reaches_close s.client.device)
    obtain ⟨hrefs, hreleased⟩ := programRefs_close s.client.device
    have hnew : (createdBy (close.run s.client.device).2.calls.toList).Nodup := by
      rw [createdBy_close]
      exact hfresh
    exact ⟨Registry.namesAlive hclosed.admitted hnew, fun x hx =>
      Registry.count_deleted_of_after_eq_zero hclosed.admitted hnew
        (hclosed.after_eq_zero rfl hrefs hreleased) hx⟩

end Player

/-! ### A run -/

def idleShader (stage : Stage) : LoweredShader :=
  { LoweredShader.blank .glsl120 default with version := some ⟨stage, 2, 0⟩ }

def idleEffect : Effect where
  profile := .glsl120
  diagnostics := []
  params := []
  techniques := []
  objects := #[⟨.vertexShader, .shader ⟨none, none, .shader (idleShader .vertex), [], [], []⟩⟩]
  technique := none
  pass := none

def idleVertex : CompiledShader := ⟨0, 1, .vertex, idleShader .vertex⟩

def idlePixel : CompiledShader := ⟨1, 2, .pixel, idleShader .pixel⟩

def idleOrders : List Order :=
  [.compileEffect idleEffect, .ask (.compileLowered (idleShader .pixel)), .shareShader 0 0,
    .ask (.bindShaders (some idleVertex) (some idlePixel)), .play 0 (.start true),
    .deleteEffect 0, .ask (.dropShader idleVertex), .ask (.deleteShader idlePixel)]

/-- What is bound stays until the device is ended, and is deleted then. -/
theorem object_lifetimes_bound : ∃ d s p,
    Device.create .second (.ofProfile .glsl120) = .ok d ∧ Player.Run d idleOrders s ∧
    s.client.device.linkCache = [] ∧ s.client.device.bound = some p ∧ p.names = ⟨3, 1, 2⟩ ∧
    Alive s.client.device.calls.toList (.program 3) ∧
    createdBy (close.run s.client.device).2.calls.toList = [.shader 1, .shader 2, .program 3] ∧
    ∀ x ∈ [.shader 1, .shader 2, .program 3],
      (deletedBy (close.run s.client.device).2.calls.toList).count x = 1 := by
  obtain ⟨d, hd⟩ : ∃ d, Device.create .second (.ofProfile .glsl120) = .ok d := ⟨_, rfl⟩
  -- The players that take part in an order with handles, so that none is unfolded in the run.
  obtain ⟨compiled, hcompiled⟩ : ∃ s, s = (((Player.new d).perform
    (.compileEffect idleEffect)).perform (.ask (.compileLowered (idleShader .pixel)))).perform
      (.shareShader 0 0) := ⟨_, rfl⟩
  obtain ⟨ended, hended⟩ : ∃ s, s = ((compiled.perform
    (.ask (.bindShaders (some idleVertex) (some idlePixel)))).perform
      (.play 0 (.start true))).perform (.deleteEffect 0) := ⟨_, rfl⟩
  obtain ⟨left, hleft⟩ : ∃ s, s = ended.perform (.ask (.dropShader idleVertex)) := ⟨_, rfl⟩
  obtain ⟨s, hs⟩ : ∃ s, s = left.perform (.ask (.deleteShader idlePixel)) := ⟨_, rfl⟩
  have hshaders : compiled.client.shaders = [idleVertex, idlePixel] ∧
      ended.client.shaders = [idleVertex, idlePixel] ∧ left.client.shaders = [idlePixel] := by
    subst hleft hended hcompiled
    cases hd
    exact ⟨rfl, rfl, rfl⟩
  have hbegun : Player.Run d (idleOrders.take 3) compiled :=
    hcompiled ▸ ((Player.Run.start.step (.compileEffect idleEffect) trivial).step
      (.ask (.compileLowered (idleShader .pixel))) trivial).step (.shareShader 0 0) trivial
  have hplayed : Player.Run d (idleOrders.take 6) ended :=
    hended ▸ ((hbegun.step (.ask (.bindShaders (some idleVertex) (some idlePixel)))
      ⟨by simp [hshaders.1], by simp [hshaders.1]⟩).step (.play 0 (.start true)) trivial).step
      (.deleteEffect 0) trivial
  have hdropped : Player.Run d (idleOrders.take 7) left :=
    hleft ▸ hplayed.step (.ask (.dropShader idleVertex)) (by simp [Player.Allows, Client.Allows,
      hshaders.2.1])
  have hrun : Player.Run d idleOrders s :=
    hs ▸ hdropped.step (.ask (.deleteShader idlePixel)) (by simp [Player.Allows, Client.Allows,
      hshaders.2.2])
  obtain ⟨hcreated, hshaders', hprograms', hplaybacks, hglsl, p, hlinks, hbound, hnames⟩ :
      createdBy s.client.device.calls.toList = [.shader 1, .shader 2, .program 3] ∧
      s.client.shaders = [] ∧ s.client.programs = [] ∧ s.playbacks = [] ∧
      s.client.device.profile.isGlsl = true ∧ ∃ p, s.client.device.linkCache = [] ∧
      s.client.device.bound = some p ∧ p.names = ⟨3, 1, 2⟩ := by
    subst hs hleft hended hcompiled
    cases hd
    exact ⟨rfl, rfl, rfl, rfl, rfl, _, rfl, rfl, rfl⟩
  have hfresh : (createdBy s.client.device.calls.toList).Nodup := by
    rw [hcreated]
    decide
  obtain ⟨-, -, hprograms, hclosed⟩ := Player.object_lifetimes hd hrun hfresh
  obtain ⟨-, hcounts⟩ := hclosed hshaders' hprograms' hplaybacks
  have hcreated' := (createdBy_close s.client.device).trans hcreated
  have halive := hprograms hglsl p (mem_programRefs_of_bound _ hbound)
  rw [hnames] at halive
  rw [hcreated'] at hcounts
  exact ⟨d, s, p, hd, hrun, hlinks, hbound, hnames, halive, hcreated', hcounts⟩

end ShaderPipeline.Device
