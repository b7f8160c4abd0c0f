/-!
# Computations that succeed

A computation in steps gives a result exactly if every step does, each from what the one before has
left.
-/

namespace ShaderPipeline

variable {ε σ α β : Type} {s t : σ} {a : α} {x : Except ε α} {f : α → StateT σ (Except ε) β}
  {r : β × σ}

theorem bind_eq_ok {f : α → Except ε β} {b : β} :
    (x >>= f) = .ok b ↔ ∃ a, x = .ok a ∧ f a = .ok b := by
  cases x with
  | error e => exact ⟨nofun, fun ⟨_, h, _⟩ => (nomatch h)⟩
  | ok a => exact ⟨fun h => ⟨a, rfl, h⟩, fun ⟨_, h, h'⟩ => Except.ok.inj h ▸ h'⟩

theorem run_bind_eq_ok {m : StateT σ (Except ε) α} :
    (m >>= f).run s = .ok r ↔ ∃ a t, m.run s = .ok (a, t) ∧ (f a).run t = .ok r := by
  rw [StateT.run_bind, bind_eq_ok, Prod.exists]

theorem run_then_eq_ok {m : StateT σ (Except ε) Unit} {f : Unit → StateT σ (Except ε) β} :
    (m >>= f).run s = .ok r ↔ ∃ t, m.run s = .ok ((), t) ∧ (f ()).run t = .ok r := by
  rw [run_bind_eq_ok]
  exact ⟨fun ⟨(), h⟩ => h, fun h => ⟨(), h⟩⟩

theorem run_pure_eq_ok {b : α} :
    (pure a : StateT σ (Except ε) α).run s = .ok (b, t) ↔ b = a ∧ t = s := by
  refine ⟨fun h => ?_, fun ⟨hb, ht⟩ => hb ▸ ht ▸ rfl⟩
  cases h
  exact ⟨rfl, rfl⟩

theorem run_throw_ne_ok {e : ε} {r : α × σ} :
    (throw e : StateT σ (Except ε) α).run s ≠ .ok r := nofun

theorem run_liftM_eq_ok :
    (liftM x : StateT σ (Except ε) α).run s = .ok (a, t) ↔ x = .ok a ∧ t = s := by
  cases x with
  | error e => exact ⟨nofun, fun ⟨h, _⟩ => (nomatch h)⟩
  | ok b =>
    refine ⟨fun h => ?_, fun ⟨h, ht⟩ => Except.ok.inj h ▸ ht ▸ rfl⟩
    cases h
    exact ⟨rfl, rfl⟩

theorem run_get_bind {f : σ → StateT σ (Except ε) β} :
    (get >>= f).run s = (f s).run s := rfl

theorem run_liftM_bind_eq_ok :
    (liftM x >>= f).run s = .ok r ↔ ∃ a, x = .ok a ∧ (f a).run s = .ok r := by
  rw [run_bind_eq_ok]
  constructor
  · rintro ⟨a, t, hrun, hf⟩
    obtain ⟨hx, rfl⟩ := run_liftM_eq_ok.mp hrun
    exact ⟨a, hx, hf⟩
  · rintro ⟨a, hx, hf⟩
    exact ⟨a, s, run_liftM_eq_ok.mpr ⟨hx, rfl⟩, hf⟩

theorem run_check_eq_ok {p : Prop} [Decidable p] {e : ε} {m : StateT σ (Except ε) β} :
    (if p then throw e >>= f else m).run s = .ok r ↔ ¬p ∧ m.run s = .ok r := by
  by_cases hp : p
  · rw [if_pos hp]
    exact ⟨nofun, fun h => absurd hp h.1⟩
  · rw [if_neg hp]
    exact ⟨fun h => ⟨hp, h⟩, And.right⟩

/-! ### Steps that keep the state at a fault -/

theorem run_run_bind_eq_ok {m : ExceptT ε (StateM σ) α} {f : α → ExceptT ε (StateM σ) β} {b : β} :
    (m >>= f).run.run s = (.ok b, t) ↔
      ∃ a u, m.run.run s = (.ok a, u) ∧ (f a).run.run u = (.ok b, t) := by
  have hbind : (m >>= f).run.run s = match m.run.run s with
      | (.ok a, u) => (f a).run.run u
      | (.error e, u) => (.error e, u) := by
    simp only [ExceptT.run_bind, StateT.run_bind]
    rcases m.run.run s with ⟨_ | a, u⟩ <;> rfl
  rw [hbind]
  rcases m.run.run s with ⟨e | a, u⟩
  · constructor
    · exact fun h => nomatch congrArg Prod.fst h
    · exact fun ⟨_, _, h, _⟩ => nomatch congrArg Prod.fst h
  · constructor
    · exact fun h => ⟨a, u, rfl, h⟩
    · rintro ⟨a', u', heq, h⟩
      cases heq
      exact h

end ShaderPipeline
