import Mathlib.Tactic.IntervalCases
import ShaderPipeline.Proofs.Assembly.Evaluation

/-!
# What the lines of arithmetic instructions store

An instruction of several lines resolves its sources, computes with scratch registers, and stores.
For each of these instructions the lines store its meaning, where one half counts as above one half.
-/

namespace ShaderPipeline.Assembly

open Instruction Stores State Option

variable {l : Layout} {i : Instruction} {f : Vector4 → Vector4 → ℚ}

/-- Lines store the meaning of an instruction in its first `n` components, and the sources have
modifiers that lines can be written for. -/
structure Computes (l : Layout) (i : Instruction) (n : Nat) (lines : List Line) : Prop where
  componentwise : i.Componentwise
  predicate : i.predicate = none
  stores : ∃ t, destination l i = .ok t ∧ ∀ σ, ∃ v, Stores l lines σ t v ∧
    ∀ c, c.index < n → v c = i.result.finish (i.meaning true l (registersIn l σ) c)

/-! ### Sources -/

theorem writes_source_resolves {src : Source} {k : Nat}
    (hinput : src.reg.file = .input → src.reg.relative = none) :
    Writes (source l src k) fun u new => src.modifier.Componentwise ∧ Resolves l src k u new :=
  (writes_source src k).mono fun u new ⟨p, hp, hm, hu, hnew⟩ => by
    subst hu hnew
    exact ⟨hm, resolves_source hp hinput hm⟩

theorem writes_sourceAt_resolves (hreach : i.ReachesConstants) (n : Nat) :
    Writes (sourceAt l i n) fun u new => ∃ src, i.src? n = some src ∧
      src.modifier.Componentwise ∧ Resolves l src n u new :=
  writes_liftM_bind fun src hsrc =>
    have hsrc' := src?_of_needSrc hsrc
    (writes_source_resolves (hreach.relative_eq_none hsrc')).mono
      fun _ _ hresolves => ⟨src, hsrc', hresolves⟩

/-- After a state `σ`, three sources have their values in a state `σ₁`. -/
structure Ready (l : Layout) (i : Instruction) (u : Value × Value × Value) (σ σ₁ : State) :
    Prop where
  only : OnlyScratch l {0, 1, 2} σ σ₁
  fst : Reads l 0 σ₁ u.1 (i.sourceValue l (registersIn l σ) 0)
  snd : Reads l 1 σ₁ u.2.1 (i.sourceValue l (registersIn l σ) 1)
  trd : Reads l 2 σ₁ u.2.2 (i.sourceValue l (registersIn l σ) 2)

theorem writes_threeSources (hreach : i.ReachesConstants) :
    Writes (threeSources l i) fun u new =>
      (∀ n < 3, ∀ src, i.src? n = some src → src.modifier.Componentwise) ∧
      ∀ σ, ∃ σ₁, runLines? new σ = some σ₁ ∧ Ready l i u σ σ₁ := by
  refine (writes_sourceAt_resolves hreach 0).bind fun a la ⟨src₀, hsrc₀, hm₀, ha⟩ => ?_
  refine (writes_sourceAt_resolves hreach 1).bind fun b lb ⟨src₁, hsrc₁, hm₁, hb⟩ => ?_
  refine (writes_sourceAt_resolves hreach 2).bind fun c lc ⟨src₂, hsrc₂, hm₂, hc⟩ => ?_
  refine writes_pure ⟨fun n hn src hsrc => ?_, fun σ => ?_⟩
  · interval_cases n
    · exact some.inj (hsrc₀.symm.trans hsrc) ▸ hm₀
    · exact some.inj (hsrc₁.symm.trans hsrc) ▸ hm₁
    · exact some.inj (hsrc₂.symm.trans hsrc) ▸ hm₂
  · obtain ⟨σ₁, hrun₁, honly₁, ha⟩ := ha σ
    obtain ⟨σ₂, hrun₂, honly₂, hb⟩ := hb σ₁
    obtain ⟨σ₃, hrun₃, honly₃, hc⟩ := hc σ₂
    rw [honly₁.registersIn] at hb
    rw [honly₂.registersIn, honly₁.registersIn] at hc
    refine ⟨σ₃, ?_, ?_⟩
    · rw [List.append_nil, runLines?_append hrun₁, runLines?_append hrun₂, hrun₃]
    · refine ⟨?_, ?_, ?_, ?_⟩
      · refine (honly₁.mono ?_).trans ((honly₂.mono ?_).trans (honly₃.mono ?_)) <;> simp
      · rw [sourceValue, hsrc₀]
        exact (ha.after honly₂ (by simp)).after honly₃ (by simp)
      · rw [sourceValue, hsrc₁]
        exact hb.after honly₃ (by simp)
      · rw [sourceValue, hsrc₂]
        exact hc

/-! ### Instructions with three sources -/

/-- An instruction with three sources computes its meaning if what it does after resolving them
does. -/
theorem writes_of_ready {f : Value × Value × Value → LineM Unit} {n : Nat}
    (hreach : i.ReachesConstants) (harity : i.opcode.arity = 3)
    (hf : ∀ u, Writes (f u) fun _ new => i.predicate = none ∧ ∃ t, destination l i = .ok t ∧
      ∀ σ σ₁, Ready l i u σ σ₁ → Stores l new σ₁ t fun c =>
        i.result.finish (i.meaning true l (registersIn l σ) c)) :
    Writes (threeSources l i >>= f) fun _ new => Computes l i n new := by
  refine (writes_threeSources hreach).bind fun u first ⟨hm, hfirst⟩ => ?_
  refine (hf u).mono fun _ new ⟨hpredicate, t, ht, hnew⟩ => ?_
  refine ⟨fun n hn => hm n (harity ▸ hn), hpredicate, t, ht, fun σ => ?_⟩
  obtain ⟨σ₁, hrun, hready⟩ := hfirst σ
  refine ⟨_, (hnew σ σ₁ hready).after hrun hready.only ?_, fun c _ => rfl⟩
  simp [Set.insert_subset_iff, scratches, scratchCount]

theorem writes_interpolate (hreach : i.ReachesConstants) (hop : i.opcode = .lrp) :
    Writes (interpolate l i) fun _ new => Computes l i 4 new := by
  refine writes_of_ready hreach (by rw [hop]; rfl) fun ⟨a, b, c⟩ => ?_
  dsimp only
  by_cases hpixel : isPixel l = true
  · rw [if_pos hpixel]
    refine writes_store_of fun t σ σ₁ h => ?_
    refine stores_store i.result
      (values_three (a.value?_vector _) (b.value?_vector _) (c.value?_vector _)) rfl fun k => ?_
    simp [h.fst.contents, h.snd.contents, h.trd.contents, meaning, hop, Opcode.meaning]
  · rw [if_neg hpixel]
    refine writes_emit_bind (writes_store_of fun t σ σ₁ h => ?_)
    refine step (stores_store i.result
      (values_three (a.value?_vector _) (value?_whole _ _) (c.value?_vector _)) rfl fun k => ?_)
      (by decide) (values_two (b.value?_vector _) (c.value?_vector _)) rfl
    have ha := fun cs y => (h.fst.write (j := workScratch) (by decide) cs y).contents
    have hc := fun cs y => (h.trd.write (j := workScratch) (by decide) cs y).contents
    simp only [h.snd.contents, h.trd.contents, ha, hc, meaning, hop, Opcode.meaning, write_whole]
    ring

theorem writes_choose (hreach : i.ReachesConstants) (hop : i.opcode = .cmp) :
    Writes (choose l i) fun _ new => Computes l i 4 new := by
  refine writes_of_ready hreach (by rw [hop]; rfl) fun ⟨a, b, c⟩ => ?_
  dsimp only
  by_cases hpixel : isPixel l = true
  · rw [if_pos hpixel]
    refine writes_store_of fun t σ σ₁ h => ?_
    refine stores_store i.result
      (values_three (a.value?_vector _) (c.value?_vector _) (b.value?_vector _)) rfl fun k => ?_
    simp [h.fst.contents, h.snd.contents, h.trd.contents, meaning, hop, Opcode.meaning, ← not_le]
  · rw [if_neg hpixel]
    refine writes_emit_bind (writes_emit_bind (writes_store_of fun t σ σ₁ h => ?_))
    -- The third source is read twice, the second time after both scratch registers are written.
    have hb := fun cs y => (h.snd.write (j := workScratch) (by decide) cs y).contents
    have hc := fun cs y => h.trd.write (j := workScratch) (by decide) cs y
    have hc' := fun cs y => (hc cs y).contents
    have hc'' := fun cs y cs' y' =>
      ((hc cs y).write (j := spareScratch) (by decide) cs' y').contents
    refine step (step (stores_store i.result
      (values_three (value?_whole _ _) (value?_whole _ _) (c.value?_vector _)) rfl fun k => ?_)
      (by decide) (values_two (b.value?_vector _) (c.value?_vector _)) rfl)
      (by decide) (values_two (a.value?_vector _) (value?_splat 0 _)) rfl
    have hne : spareScratch ≠ workScratch := by decide
    simp only [h.fst.contents, hb, hc', hc'', meaning, hop, Opcode.meaning,
      write_whole, write_other hne]
    split_ifs <;> simp_all

theorem writes_chooseAboveHalf (hreach : i.ReachesConstants) (hop : i.opcode = .cnd) :
    Writes (chooseAboveHalf l i) fun _ new => Computes l i 4 new := by
  unfold chooseAboveHalf
  by_cases hpixel : (!isPixel l) = true
  · rw [if_pos hpixel]
    exact writes_throw _
  · rw [if_neg hpixel]
    refine writes_of_ready hreach (by rw [hop]; rfl) fun ⟨a, b, c⟩ => ?_
    refine writes_emit_bind (writes_store_of fun t σ σ₁ h => ?_)
    have hb := fun cs y => (h.snd.write (j := workScratch) (by decide) cs y).contents
    have hc := fun cs y => (h.trd.write (j := workScratch) (by decide) cs y).contents
    refine step (stores_store i.result
      (values_three (value?_whole _ _) (c.value?_vector _) (b.value?_vector _)) rfl fun k => ?_)
      (by decide) (values_two (a.value?_vector _) (value?_splat 500 _)) rfl
    simp only [h.fst.contents, hb, hc, meaning, hop, Opcode.meaning, write_whole]
    generalize i.sourceValue l (registersIn l σ) 0 k = x
    -- What is below zero goes to the third source, so one half itself goes to the second.
    have hbelow : x - (500 : Nat) / 1000 < 0 ↔ ¬(1 / 2 < x ∨ true = true ∧ x = 1 / 2) := by
      norm_num [not_or]
      constructor
      · intro hx
        exact ⟨by linarith, by linarith⟩
      · rintro ⟨hx, hne⟩
        exact lt_of_le_of_ne hx hne
    simp only [hbelow, ite_not]

theorem writes_twoProductAdd (hreach : i.ReachesConstants) (hop : i.opcode = .dp2Add) :
    Writes (twoProductAdd l i) fun _ new => Computes l i 4 new := by
  refine writes_of_ready hreach (by rw [hop]; rfl) fun ⟨a, b, c⟩ => ?_
  refine writes_emit_bind (writes_emit_bind (writes_store_of fun t σ σ₁ h => ?_))
  have hc := fun cs y cs' y' => ((h.trd.write (j := workScratch) (by decide) cs y).write
    (j := workScratch) (by decide) cs' y').contents
  refine step (step (stores_store i.result
    (values_two (value?_pick _ _ _) (c.value?_scalar _)) rfl fun k => ?_)
    (by decide) (values_two (value?_pick _ _ _) (value?_pick _ _ _)) rfl)
    (by decide) (values_two (a.value?_vector _) (b.value?_vector _)) rfl
  simp [h.fst.contents, h.snd.contents, hc, meaning, hop, Opcode.meaning, write_place]

/-! ### Signs -/

theorem writes_sign (hreach : i.ReachesConstants) (hop : i.opcode = .sgn) :
    Writes (sign l i) fun _ new => Computes l i 4 new := by
  refine (writes_sourceAt_resolves hreach 0).bind fun a first ⟨src, hsrc, hm, ha⟩ => ?_
  have harity : i.Componentwise := by
    intro n hn src' hsrc'
    rw [hop, Opcode.arity, Nat.lt_one_iff] at hn
    subst hn
    exact some.inj (hsrc.symm.trans hsrc') ▸ hm
  have hmeaning (σ : State) (c : Component) : i.meaning true l (registersIn l σ) c =
      signOf (l.sourceValue (registersIn l σ) src c) := by
    rw [meaning, hop, Opcode.meaning, sourceValue, hsrc]
  by_cases hvendor : l.profile.hasVendorOps = true
  · rw [if_pos hvendor]
    refine (writes_store _ _).mono fun _ new ⟨hpredicate, t, ht, hnew⟩ =>
      ⟨harity, hpredicate, t, ht, fun σ => ?_⟩
    subst hnew
    obtain ⟨σ₁, hrun, honly, h⟩ := ha σ
    refine ⟨_, (stores_store i.result (values_one (a.value?_vector _)) rfl fun c => ?_).after hrun
      honly (by simp [scratches, scratchCount]), fun c _ => rfl⟩
    rw [h.contents, hmeaning]
  · rw [if_neg hvendor]
    refine writes_emit_bind (writes_emit_bind ((writes_store _ _).mono
      fun _ new ⟨hpredicate, t, ht, hnew⟩ => ⟨harity, hpredicate, t, ht, fun σ => ?_⟩))
    subst hnew
    obtain ⟨σ₁, hrun, honly, h⟩ := ha σ
    have ha := fun cs y => (h.write (j := workScratch) (by decide) cs y).contents
    have hne : spareScratch ≠ workScratch := by decide
    refine ⟨_, after (step (step (stores_store i.result
      (values_two (value?_whole _ _) (value?_whole _ _)) rfl fun c => ?_)
      (by decide) (values_two (a.value?_vector _) (value?_splat 0 _)) rfl)
      (by decide) (values_two (value?_splat 0 _) (a.value?_vector _)) rfl) hrun
      honly (by simp [scratches, scratchCount]), fun c _ => rfl⟩
    simp only [h.contents, ha, hmeaning, write_whole, write_other hne]
    generalize l.sourceValue (registersIn l σ) src c = x
    rcases lt_trichotomy x 0 with hx | hx | hx
    · simp [signOf, hx, not_lt.mpr hx.le]
    · simp [signOf, hx]
    · simp [signOf, hx, not_lt.mpr hx.le]

/-! ### Matrices -/

theorem ofIndex_eq_iff {row : Nat} (hrow : row < 4) (c : Component) :
    c = .ofIndex row ↔ c.index = row := by
  interval_cases row <;> cases c <;> decide

/-- The rows of a matrix write the products one after the other into a scratch register. -/
theorem writes_matrixRows {op : Operation} (hf : ∀ a b, op.result? [a, b] = some fun _ => f a b)
    {v : Value} {m : Source} (hinput : m.reg.file = .input → m.reg.relative = none)
    {row count : Nat} (hrows : row + count ≤ 4) :
    Writes (matrixRows l op v.vector m row count) fun _ new =>
      (0 < count → m.modifier.Componentwise) ∧ ∀ σ a, Reads l 0 σ v a →
        ∃ σ₁, runLines? new σ = some σ₁ ∧ OnlyScratch l {1, workScratch} σ σ₁ ∧
          ∀ c, σ₁ (scratch l workScratch).text c =
            if row ≤ c.index ∧ c.index < row + count then
              f a (l.sourceValue (registersIn l σ) { m with reg := m.reg.shift c.index })
            else σ (scratch l workScratch).text c := by
  induction count generalizing row with
  | zero =>
    refine writes_pure ⟨nofun, fun σ a _ => ⟨σ, rfl, .refl, fun c => ?_⟩⟩
    rw [if_neg (by omega)]
  | succ count ih =>
    have hsource : Writes (source l { m with reg := m.reg.shift row } 1) fun u new =>
        m.modifier.Componentwise ∧ Resolves l { m with reg := m.reg.shift row } 1 u new :=
      writes_source_resolves hinput
    rw [matrixRows]
    refine hsource.bind fun r first ⟨hm, hr⟩ => ?_
    refine writes_emit_bind ((ih (by omega)).mono fun _ new ⟨_, hnew⟩ =>
      ⟨fun _ => hm, fun σ a ha => ?_⟩)
    obtain ⟨σ₁, hrun₁, honly₁, hr⟩ := hr σ
    have ha₁ := ha.after honly₁ (by simp)
    -- The product with this row goes to its own component.
    obtain ⟨σ₂, hrun₂, honly₂, hrow⟩ := exists_run_line l workScratch [.ofIndex row] op
      (values_two (v.value?_vector σ₁) (r.value?_vector σ₁)) (hf _ _)
    obtain ⟨σ₃, hrun₃, honly₃, hwork⟩ := hnew σ₂ a (ha₁.after honly₂ (by decide))
    refine ⟨σ₃, ?_, ?_, fun c => ?_⟩
    · rw [runLines?_append hrun₁]
      exact (runLines?_append hrun₂).trans hrun₃
    · refine (honly₁.mono ?_).trans ((honly₂.mono ?_).trans honly₃) <;> simp
    · rw [hwork c, honly₂.registersIn, honly₁.registersIn, hrow c, ha₁.contents, hr.contents,
        honly₁.eq_scratch (by decide)]
      have hrow' : row < 4 := by omega
      simp only [List.cons_ne_nil, false_or, List.mem_singleton, ofIndex_eq_iff hrow']
      by_cases hc : c.index = row
      · subst hc
        simp
      · have hlater : row ≤ c.index ∧ c.index < row + (count + 1) ↔
            row + 1 ≤ c.index ∧ c.index < row + 1 + count := by
          omega
        simp [if_neg hc, hlater]

theorem writes_multiply {op : Operation} {rows : Nat} (hreach : i.ReachesConstants)
    (harity : i.opcode.arity = 2) (hf : ∀ a b, op.result? [a, b] = some fun _ => f a b)
    (hrows : 0 < rows ∧ rows ≤ 4)
    (hmeaning : ∀ v w c, i.opcode.meaning true v w c = f (v 0) (w c.index)) :
    Writes (multiply l i op rows) fun _ new => Computes l i rows new := by
  refine (writes_sourceAt_resolves hreach 0).bind fun v first ⟨src, hsrc, hsrcm, hv⟩ => ?_
  cases hmatrix : i.src? 1 with
  | none => exact writes_throw _
  | some m =>
    refine (writes_matrixRows hf (hreach.relative_eq_none hmatrix) (by omega)).bind
      fun _ middle ⟨hm, hmiddle⟩ => ?_
    refine (writes_store _ _).mono fun _ new ⟨hpredicate, t, ht, hnew⟩ =>
      ⟨fun n hn src' hsrc' => ?_, hpredicate, t, ht, fun σ => ?_⟩
    · rw [harity] at hn
      interval_cases n
      · exact some.inj (hsrc.symm.trans hsrc') ▸ hsrcm
      · exact some.inj (hmatrix.symm.trans hsrc') ▸ hm hrows.1
    · subst hnew
      obtain ⟨σ₁, hrun₁, honly₁, hread⟩ := hv σ
      obtain ⟨σ₂, hrun₂, honly₂, hwork⟩ := hmiddle σ₁ _ hread
      have hmov : Operation.mov.result? [σ₂ (scratch l workScratch).text] =
          some (σ₂ (scratch l workScratch).text) := rfl
      have hstore := stores_store (l := l) (t := t) i.result
        (values_one (value?_whole (scratch l workScratch) σ₂)) hmov fun _ => rfl
      refine ⟨_, (hstore.after hrun₂ honly₂ ?_).after hrun₁ honly₁ ?_, fun c hc => ?_⟩
      · simp [Set.insert_subset_iff, scratches, scratchCount, workScratch]
      · simp [scratches, scratchCount]
      · rw [hwork c, if_pos (by omega), honly₁.registersIn, meaning, hmeaning,
          sourceValue, hsrc, rowValue, hmatrix]

/-! ### All of them -/

theorem writes_computes (hreach : i.ReachesConstants) {n : Nat}
    (hn : i.opcode.produces? = some n) :
    Writes (writeInstruction l i) fun _ new => Computes l i n new := by
  have hexpanded : writeInstruction l i = expanded l i := by
    cases hop : i.opcode <;> rw [hop] at hn <;> cases hn <;>
      simp only [writeInstruction, hop] <;> rfl
  rw [hexpanded, expanded]
  cases hop : i.opcode <;> rw [hop] at hn <;> cases hn <;> dsimp only
  case lrp => exact writes_interpolate hreach hop
  case cmp => exact writes_choose hreach hop
  case cnd => exact writes_chooseAboveHalf hreach hop
  case sgn => exact writes_sign hreach hop
  case dp2Add => exact writes_twoProductAdd hreach hop
  case m4x4 | m4x3 =>
    refine writes_multiply (f := dot4) hreach (by rw [hop]; rfl) (fun _ _ => rfl) (by decide) ?_
    rw [hop]
    exact fun _ _ _ => rfl
  case m3x4 | m3x3 | m3x2 =>
    refine writes_multiply (f := dot3) hreach (by rw [hop]; rfl) (fun _ _ => rfl) (by decide) ?_
    rw [hop]
    exact fun _ _ _ => rfl

theorem computes_of_instructionLines (hreach : i.ReachesConstants) {n : Nat}
    (hn : i.opcode.produces? = some n) {lines : List Line}
    (hlines : instructionLines l i = .ok lines) : Computes l i n lines :=
  (writes_computes hreach hn).instructionLines hlines

end ShaderPipeline.Assembly
