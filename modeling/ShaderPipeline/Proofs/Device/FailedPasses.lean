import ShaderPipeline.Proofs.Device.ShadersInUse
import ShaderPipeline.Proofs.Effect.CursorRuns

/-!
# Passes that fail to begin

To begin a pass makes it active first. Then shaders are bound, selectors run and registers are
supplied, and each of these can fail. None of them touches the active pass, so that it stays active.
-/

namespace ShaderPipeline

namespace Device

/-- Applying states does not change the effect. -/
theorem Playback.effect_nameAll (p : Playback) (ns : List (Stage × Nat)) :
    (p.nameAll ns).effect = p.effect := by
  induction ns generalizing p with
  | nil => rfl
  | cons n rest ih =>
    have hname : (p.name n.1 n.2).effect = p.effect := by
      unfold name
      split
      · rfl
      · split_ifs <;> rfl
    exact (ih _).trans hname

namespace PlaybackM

variable {α β : Type}

def Stays (m : PlaybackM α) : Prop := ∀ p d, (m.outcome p d).1.2.effect.pass = p.effect.pass

theorem Stays.bind {m : PlaybackM α} {f : α → PlaybackM β} (hm : m.Stays)
    (hf : ∀ a, (f a).Stays) : (m >>= f).Stays := by
  intro p d
  have hfirst := hm p d
  rw [outcome_bind]
  rcases hrun : m.outcome p d with ⟨⟨_ | a, p'⟩, d'⟩ <;> rw [hrun] at hfirst
  · exact hfirst
  · exact (hf a p' d').trans hfirst

theorem stays_bindCurrent : bindCurrent.Stays := fun _ _ => rfl

theorem stays_naming (states : List Effect.State) : (naming states).Stays := by
  refine Stays.bind (fun p d => ?_) fun selects => ?_
  · obtain ⟨store, hrun⟩ := applyStates_outcome (p := p) (d := d) states
    rw [hrun, Playback.applied, Playback.effect_nameAll]
  · split_ifs
    · exact stays_bindCurrent
    · exact fun _ _ => rfl

theorem stays_select (stage : Stage) : (select stage).Stays := by
  have hselector (object : Nat) : (runSelector object).Stays := by
    intro p d
    rw [runSelector_outcome]
    split_ifs <;> rfl
  intro p d
  unfold select
  rw [outcome_get_bind]
  cases p.named.get stage with
  | none => rfl
  | some object =>
    dsimp only
    split_ifs
    · rfl
    · refine (hselector object).bind (fun chosen => ?_) p d
      refine Stays.bind (fun _ _ => rfl) fun _ => Stays.bind (fun _ _ => rfl) fun q => ?_
      cases q.shader? chosen <;> exact fun _ _ => rfl

theorem stays_feed (stage : Stage) : (feed stage).Stays := by
  intro p d
  rw [feed_outcome]
  exact Playback.effect_fed (fun e => e.pass = p.effect.pass) rfl fun _ => rfl

theorem stays_commit : commit.Stays := by
  have hfeed : (feed .vertex >>= fun _ => feed .pixel >>= fun _ => device touch).Stays :=
    (stays_feed .vertex).bind fun _ => (stays_feed .pixel).bind fun _ _ _ => rfl
  refine (stays_select .vertex).bind fun vertex => (stays_select .pixel).bind fun pixel => ?_
  split_ifs
  · exact stays_bindCurrent.bind fun _ => hfeed
  · exact hfeed

theorem pass_of_beginPass_failed {p p' : Playback} {d d' : Device} {n : Nat} {e : DeviceError}
    (h : (beginPass n).outcome p d = ((.error e, p'), d')) :
    p'.effect.pass =
      if p.effect.pass = none ∧ n < p.effect.passCount then some n else p.effect.pass := by
  obtain ⟨store, hadopt⟩ := adoptBound_outcome (p := p) (d := d)
  rw [beginPass_outcome, outcome_bind, opening_outcome n hadopt] at h
  rcases p.effect.beginPass_cases n with ⟨⟨x, hbegin⟩, hrefused⟩ | ⟨⟨pass, hbegin⟩, hallowed⟩
  · rw [hbegin] at h
    obtain rfl : p.adopted d.bound = p' := congrArg (fun r => r.1.2) h
    rw [if_neg fun hallowed => hrefused.elim (· hallowed.1) hallowed.2.not_ge]
    cases d.bound <;> rfl
  · rw [hbegin] at h
    have hstays := (stays_naming pass.states).bind (fun _ => stays_commit)
      (p.entered d.bound { p.effect with pass := some n }) (d.withStore store)
    rw [outcome_bind, h] at hstays
    rw [if_pos hallowed]
    exact hstays

/-- After a pass failed to begin, the active pass is the one from before if and only if the cursor
has refused the pass, since another one was active or there is no such pass. Otherwise the pass that
failed is active: it can be ended, and no pass can begin before that. -/
theorem beginPass_failed {p p' : Playback} {d d' : Device} {n : Nat} {e : DeviceError}
    (h : (beginPass n).outcome p d = ((.error e, p'), d')) :
    (p'.effect.pass = p.effect.pass ↔ p.effect.pass ≠ none ∨ p.effect.passCount ≤ n) ∧
    (p.effect.pass = none → ∀ d, (endPass.outcome p' d).1.1 =
      if p.effect.passCount ≤ n then .error (.effect .noActivePass) else .ok ()) ∧
    (p.effect.pass = none → n < p.effect.passCount → p'.effect.pass = some n ∧
      ∀ m d, ((beginPass m).outcome p' d).1.1 = .error (.effect (.passActive n))) := by
  have hpass := pass_of_beginPass_failed h
  have hend (d : Device) : (endPass.outcome p' d).1.1 =
      if p'.effect.pass = none then .error (.effect .noActivePass) else .ok () := by
    unfold endPass
    rw [outcome_get_bind, outcome_bind, outcome_usage]
    unfold Effect.endPass
    cases p'.effect.pass <;> rfl
  by_cases hallowed : p.effect.pass = none ∧ n < p.effect.passCount
  · rw [if_pos hallowed] at hpass
    obtain ⟨hnone, hlt⟩ := hallowed
    refine ⟨by simp [hpass, hnone, hlt], fun _ d => ?_, fun _ _ => ⟨hpass, fun m d => ?_⟩⟩
    · rw [hend, hpass, if_neg (by simp), if_neg hlt.not_ge]
    · obtain ⟨store, hadopt⟩ := adoptBound_outcome (p := p') (d := d)
      rw [beginPass_outcome, outcome_bind, opening_outcome m hadopt, Effect.beginPass, hpass]
  · rw [if_neg hallowed] at hpass
    have hrefused : p.effect.pass ≠ none ∨ p.effect.passCount ≤ n := by
      rwa [not_and_or, not_lt] at hallowed
    refine ⟨by simp [hpass, hrefused], fun hnone d => ?_, fun hnone hlt => ?_⟩
    · rw [hend, hpass, if_pos hnone, if_pos (hrefused.resolve_left (· hnone))]
    · exact absurd ⟨hnone, hlt⟩ hallowed

/-- A preshader that fails in the first pass of an effect. -/
theorem beginPass_failed_noise :
    let effect := { noiseEffect with
      techniques := [⟨none, [⟨none, [], []⟩], []⟩]
      technique := some 0 }
    ∃ fault p' d',
      (beginPass 0).outcome (soloPlayback effect) soloDevice =
        ((.error (.preshader fault), p'), d') ∧
      effect.pass = none ∧ p'.effect.pass = some 0 ∧
      ((beginPass 0).outcome p' d').1.1 = .error (.effect (.passActive 0)) := by
  intro effect
  obtain ⟨fault, p', d', h⟩ : ∃ fault p' d',
      (beginPass 0).outcome (soloPlayback effect) soloDevice =
        ((.error (.preshader fault), p'), d') := ⟨_, _, _, rfl⟩
  obtain ⟨-, -, hactive⟩ := beginPass_failed h
  obtain ⟨hpass, hagain⟩ := hactive rfl (by decide)
  exact ⟨fault, p', d', h, rfl, hpass, hagain 0 d'⟩

end PlaybackM

end Device

end ShaderPipeline
