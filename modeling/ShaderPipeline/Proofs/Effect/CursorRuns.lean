import Mathlib.Data.List.Induction
import ShaderPipeline.Proofs.Effect.Blocks

/-!
# The cursor of an effect

An effect that was read is at its first technique and in no pass. Calls move it: to another
technique, into a pass and out of it. Other calls write parameters or copy the effect. Calls that
fail change nothing.

After any calls the technique exists. The pass was checked when it began, against the technique of
that moment, and choosing another technique does not end it. So the pass exists after all of the
calls exactly if every technique that was chosen inside of a pass has that pass too, and it exists
after any calls exactly if all techniques have equally many passes.
-/

namespace ShaderPipeline.Effect

open List

/-! ### Calls -/

/-- A call on an effect. -/
inductive CursorCall where
  | setTechnique (index : Nat)
  | beginPass (pass : Nat)
  | endPass
  | setRaw (param : Nat) (data : List UInt8) (offset : Nat)
  | setRawNamed (name : String) (data : List UInt8) (offset : Nat)
  | copy
  deriving DecidableEq, Repr

/-- The effect that a call makes of another, unless it fails. -/
def CursorCall.result (e : Effect) : CursorCall → Except UsageError Effect
  | setTechnique index => e.setTechnique index
  | beginPass pass => (e.beginPass pass).map Prod.snd
  | endPass => e.endPass
  | setRaw param data offset => e.setRaw param data offset
  | setRawNamed name data offset => e.setRawNamed name data offset
  | copy => .ok e.copy

/-- The effect after a call. One that fails leaves it as it is. -/
def step (e : Effect) (c : CursorCall) : Effect :=
  match c.result e with
  | .ok e' => e'
  | .error _ => e

/-- The effect after calls. -/
def run (e : Effect) (cs : List CursorCall) : Effect := cs.foldl step e

/-! ### The cursor -/

/-- There is a technique being played if the effect has any, and it is one of them. -/
structure TechniqueInRange (e : Effect) : Prop where
  isSome_iff : e.technique.isSome = true ↔ e.techniques ≠ []
  lt : ∀ i, e.technique = some i → i < e.techniques.length

/-- The active pass, if there is one, is a pass of the technique being played. -/
def PassInRange (e : Effect) : Prop :=
  ∀ p, e.pass = some p → p < e.passCount ∧ e.currentPass?.isSome = true

variable {e e' : Effect} {c : CursorCall} {cs : List CursorCall} {p i : Nat}

theorem isSome_currentPass? (hpass : e.pass = some p) :
    e.currentPass?.isSome = true ↔ p < e.passCount := by
  rw [currentPass?, passCount, hpass]
  cases e.currentTechnique? with
  | none => simp
  | some t => simp

theorem passInRange_iff : e.PassInRange ↔ ∀ p, e.pass = some p → p < e.passCount :=
  forall₂_congr fun _ hpass => by rw [isSome_currentPass? hpass, and_self_iff]

theorem passCount_congr (htechniques : e'.techniques = e.techniques)
    (htechnique : e'.technique = e.technique) : e'.passCount = e.passCount := by
  rw [passCount, passCount, currentTechnique?, currentTechnique?, htechniques, htechnique]

theorem passCount_of_technique {t : Technique} (htechnique : e.technique = some i)
    (ht : e.techniques[i]? = some t) : e.passCount = t.passes.length := by
  rw [passCount, currentTechnique?, htechnique, Option.bind_some, ht]

/-! ### Steps -/

/-- What a call can do to the cursor: it leaves the technique alone and at most ends the pass, it
chooses a technique, or it begins a pass. -/
inductive Moved (e : Effect) (c : CursorCall) (e' : Effect) : Prop
  | stays (technique : e'.technique = e.technique) (pass : e'.pass = e.pass ∨ e'.pass = none)
  | switches {i : Nat} (call : c = .setTechnique i) (inside : i < e.techniques.length)
      (technique : e'.technique = some i) (pass : e'.pass = e.pass)
  | begins {p : Nat} (inside : p < e.passCount) (technique : e'.technique = e.technique)
      (pass : e'.pass = some p)

theorem setRaw_eq_ok_iff {param : Nat} {data : List UInt8} {offset : Nat} :
    e.setRaw param data offset = .ok e' ↔
      ∃ p v, e.params[param]? = some p ∧ p.value.writeBytes offset data = .ok v ∧
        e' = { e with params := e.params.set param { p with value := v } } := by
  rw [setRaw]
  cases e.params[param]? with
  | none => simp
  | some p =>
    cases hwrite : p.value.writeBytes offset data with
    | error x => simp [hwrite, bind, Except.bind]
    | ok v => simp [hwrite, bind, Except.bind, pure, Except.pure, eq_comm]

/-- A pass begins if none is active and there is such a pass. -/
theorem beginPass_cases (e : Effect) (p : Nat) :
    ((∃ x, e.beginPass p = .error x) ∧ (e.pass ≠ none ∨ e.passCount ≤ p)) ∨
    ((∃ pass, e.beginPass p = .ok (pass, { e with pass := some p })) ∧ e.pass = none ∧
      p < e.passCount) := by
  unfold beginPass passCount
  cases e.pass with
  | some active => exact Or.inl ⟨⟨_, rfl⟩, Or.inl nofun⟩
  | none =>
    cases e.currentTechnique? with
    | none => exact Or.inl ⟨⟨_, rfl⟩, Or.inr (Nat.zero_le p)⟩
    | some t =>
      dsimp only
      cases ht : t.passes[p]? with
      | none => exact Or.inl ⟨⟨_, rfl⟩, Or.inr (getElem?_eq_none_iff.mp ht)⟩
      | some pass => exact Or.inr ⟨⟨pass, rfl⟩, rfl, (List.getElem?_eq_some_iff.mp ht).1⟩

theorem moved_of_beginPass (h : (e.beginPass p).map Prod.snd = .ok e') :
    e'.techniques = e.techniques ∧ Moved e c e' := by
  rcases e.beginPass_cases p with ⟨⟨x, hbegin⟩, -⟩ | ⟨⟨pass, hbegin⟩, -, hlt⟩
  · rw [hbegin] at h
    exact nomatch h
  · rw [hbegin] at h
    cases h
    exact ⟨rfl, .begins hlt rfl rfl⟩

theorem moved_of_result (h : c.result e = .ok e') :
    e'.techniques = e.techniques ∧ Moved e c e' := by
  cases c with
  | setTechnique i =>
    rw [CursorCall.result, setTechnique] at h
    split at h
    case isTrue hi =>
      cases h
      exact ⟨rfl, .switches rfl hi rfl rfl⟩
    case isFalse => exact nomatch h
  | beginPass p => exact moved_of_beginPass h
  | endPass =>
    rw [CursorCall.result, endPass] at h
    split at h
    · cases h
      exact ⟨rfl, .stays rfl (.inr rfl)⟩
    · exact nomatch h
  | setRaw param data offset =>
    obtain ⟨p, v, -, -, rfl⟩ := setRaw_eq_ok_iff.mp h
    exact ⟨rfl, .stays rfl (.inl rfl)⟩
  | setRawNamed name data offset =>
    rw [CursorCall.result, setRawNamed] at h
    split at h
    · exact nomatch h
    · obtain ⟨p, v, -, -, rfl⟩ := setRaw_eq_ok_iff.mp h
      exact ⟨rfl, .stays rfl (.inl rfl)⟩
  | copy =>
    cases h
    exact ⟨rfl, .stays rfl (.inr rfl)⟩

theorem moved_step : (e.step c).techniques = e.techniques ∧ Moved e c (e.step c) := by
  rw [step]
  split
  case h_1 h => exact moved_of_result h
  case h_2 => exact ⟨rfl, .stays rfl (.inl rfl)⟩

theorem TechniqueInRange.step (h : e.TechniqueInRange) : (e.step c).TechniqueInRange := by
  obtain ⟨htechniques, hmoved⟩ := moved_step (e := e) (c := c)
  cases hmoved with
  | stays technique | begins _ technique =>
    exact ⟨by rw [technique, htechniques, h.isSome_iff], by rw [technique, htechniques]; exact h.lt⟩
  | switches _ inside technique =>
    refine ⟨?_, fun i hi => ?_⟩
    · rw [technique, htechniques]
      exact ⟨fun _ => ne_nil_of_length_pos (Nat.zero_lt_of_lt inside), fun _ => rfl⟩
    · rw [technique] at hi
      rw [htechniques]
      exact Option.some.inj hi ▸ inside

/-- A pass was begun in some technique, which need not be the one being played. -/
def PassBegun (e : Effect) : Prop :=
  ∀ p, e.pass = some p → ∃ t ∈ e.techniques, p < t.passes.length

theorem exists_technique_of_lt (h : p < e.passCount) :
    ∃ t ∈ e.techniques, p < t.passes.length := by
  rw [passCount] at h
  split at h
  case h_1 t ht =>
    obtain ⟨i, -, hi⟩ := Option.bind_eq_some_iff.mp ht
    exact ⟨t, mem_of_getElem? hi, h⟩
  case h_2 => exact absurd h (Nat.not_lt_zero p)

theorem PassBegun.step (h : e.PassBegun) : (e.step c).PassBegun := by
  obtain ⟨htechniques, hmoved⟩ := moved_step (e := e) (c := c)
  intro p hp
  rw [htechniques]
  cases hmoved with
  | stays _ pass =>
    rcases pass with hpass | hpass
    · exact h p (hpass ▸ hp)
    · exact nomatch hpass ▸ hp
  | switches _ _ _ pass => exact h p (pass ▸ hp)
  | begins inside _ pass =>
    rw [pass] at hp
    exact exists_technique_of_lt (Option.some.inj hp ▸ inside)

/-- A pass stays in range unless a technique is chosen that does not have it. -/
theorem PassInRange.step (h : e.PassInRange)
    (hswitch : ∀ i p t, c = .setTechnique i → e.pass = some p → e.techniques[i]? = some t →
      p < t.passes.length) : (e.step c).PassInRange := by
  obtain ⟨htechniques, hmoved⟩ := moved_step (e := e) (c := c)
  rw [passInRange_iff] at h ⊢
  intro p hp
  cases hmoved with
  | stays technique pass =>
    rw [passCount_congr htechniques technique]
    rcases pass with hpass | hpass
    · exact h p (hpass ▸ hp)
    · exact nomatch hpass ▸ hp
  | @switches i call inside technique pass =>
    obtain ⟨t, ht⟩ : ∃ t, e.techniques[i]? = some t := ⟨_, getElem?_eq_getElem inside⟩
    rw [passCount_of_technique technique (t := t) (by rw [htechniques, ht])]
    exact hswitch i p t call (pass ▸ hp) ht
  | begins inside technique pass =>
    rw [passCount_congr htechniques technique]
    rw [pass] at hp
    exact Option.some.inj hp ▸ inside

theorem step_setTechnique (hi : i < e.techniques.length) :
    e.step (.setTechnique i) = { e with technique := some i } := by
  rw [step, CursorCall.result, setTechnique, if_pos hi]

theorem step_beginPass {t : Technique} (hpass : e.pass = none)
    (ht : e.currentTechnique? = some t) (hp : p < t.passes.length) :
    e.step (.beginPass p) = { e with pass := some p } := by
  rw [step, CursorCall.result, beginPass, hpass]
  rw [ht]
  dsimp only
  rw [getElem?_eq_getElem hp]
  rfl

/-! ### Runs -/

theorem run_concat : e.run (cs ++ [c]) = (e.run cs).step c := foldl_concat ..

theorem techniques_run : (e.run cs).techniques = e.techniques := by
  induction cs using reverseRecOn with
  | nil => rfl
  | append_singleton cs c ih => rw [run_concat, moved_step.1, ih]

theorem TechniqueInRange.run (h : e.TechniqueInRange) : (e.run cs).TechniqueInRange := by
  induction cs using reverseRecOn with
  | nil => exact h
  | append_singleton cs c ih =>
    rw [run_concat]
    exact ih.step

theorem PassBegun.run (h : e.PassBegun) : (e.run cs).PassBegun := by
  induction cs using reverseRecOn with
  | nil => exact h
  | append_singleton cs c ih =>
    rw [run_concat]
    exact ih.step

def SwitchesInside (e : Effect) (cs : List CursorCall) : Prop :=
  ∀ before i p t, before ++ [.setTechnique i] <+: cs → (e.run before).pass = some p →
    e.techniques[i]? = some t → p < t.passes.length

/-- The pass stays in range during calls exactly if the techniques chosen inside of passes have
them. -/
theorem passInRange_run_iff (h : e.PassInRange) :
    (∀ before, before <+: cs → (e.run before).PassInRange) ↔ e.SwitchesInside cs := by
  constructor
  · intro hall before i p t hbefore hp ht
    have hi : i < (e.run before).techniques.length := by
      rw [techniques_run]
      exact (List.getElem?_eq_some_iff.mp ht).1
    have hrange := passInRange_iff.mp (hall _ hbefore)
    rw [run_concat, step_setTechnique hi] at hrange
    have hcount := hrange p hp
    rwa [passCount_of_technique (i := i) rfl (t := t) (by rw [techniques_run, ht])] at hcount
  · intro hswitch before hbefore
    induction before using reverseRecOn with
    | nil => exact h
    | append_singleton before c ih =>
      have hrange := ih ((prefix_append before [c]).trans hbefore)
      rw [run_concat]
      refine hrange.step fun i p t hc hp ht => ?_
      rw [techniques_run] at ht
      exact hswitch before i p t (hc ▸ hbefore) hp ht

/-- If one technique has fewer passes than another, its number of passes is a pass that can be begun
in the other and is out of range after a change of technique. -/
theorem exists_run_of_lt {t t' : Technique} (hpass : e.pass = none) (ht : t ∈ e.techniques)
    (ht' : t' ∈ e.techniques) (hlt : t'.passes.length < t.passes.length) :
    ∃ cs, ¬(e.run cs).PassInRange := by
  obtain ⟨i, hi⟩ := getElem?_of_mem ht
  obtain ⟨j, hj⟩ := getElem?_of_mem ht'
  refine ⟨[.setTechnique i, .beginPass t'.passes.length, .setTechnique j], fun hrange => ?_⟩
  let chosen : Effect := { e with technique := some i }
  let begun : Effect := { chosen with pass := some t'.passes.length }
  let switched : Effect := { begun with technique := some j }
  have hchosen : e.step (.setTechnique i) = chosen :=
    step_setTechnique (List.getElem?_eq_some_iff.mp hi).1
  have hbegun : chosen.step (.beginPass t'.passes.length) = begun :=
    step_beginPass (e := chosen) hpass hi hlt
  have hswitched : begun.step (.setTechnique j) = switched :=
    step_setTechnique (e := begun) (List.getElem?_eq_some_iff.mp hj).1
  rw [run, foldl_cons, hchosen, foldl_cons, hbegun, foldl_cons, hswitched] at hrange
  have hcount := (hrange _ rfl).1
  rw [foldl_nil, passCount_of_technique (e := switched) rfl hj] at hcount
  exact Nat.lt_irrefl _ hcount

/-- No calls can bring the pass out of range exactly if all techniques have equally many passes. -/
theorem forall_passInRange_iff (hpass : e.pass = none) :
    (∀ cs, (e.run cs).PassInRange) ↔
      ∀ t ∈ e.techniques, ∀ t' ∈ e.techniques, t.passes.length = t'.passes.length := by
  constructor
  · intro hall t ht t' ht'
    by_contra hne
    rcases Nat.lt_or_gt_of_ne hne with hlt | hlt
    · obtain ⟨cs, hcs⟩ := exists_run_of_lt hpass ht' ht hlt
      exact hcs (hall cs)
    · obtain ⟨cs, hcs⟩ := exists_run_of_lt hpass ht ht' hlt
      exact hcs (hall cs)
  · intro heven cs
    have hrange : e.PassInRange := fun p hp => nomatch hpass ▸ hp
    have hbegun : e.PassBegun := fun p hp => nomatch hpass ▸ hp
    refine (passInRange_run_iff hrange).mpr ?_ cs (prefix_refl cs)
    intro before i p t _ hp ht
    obtain ⟨t', ht', hlt⟩ := hbegun.run p hp
    rw [techniques_run] at ht'
    rwa [heven t (mem_of_getElem? ht) t' ht']

/-! ### Effects that were read -/

/-- Whatever is called on an effect that was read, its technique is in range. Its pass is in range
during calls exactly if techniques are chosen that have the pass, and always exactly if all
techniques have equally many passes. -/
theorem cursor_in_range_iff {bytes : Bytes} {profile : Profile} {options : Options}
    (h : ofBytes bytes profile options = .ok e) :
    (∀ cs, (e.run cs).TechniqueInRange) ∧
      (∀ cs, (∀ before, before <+: cs → (e.run before).PassInRange) ↔ e.SwitchesInside cs) ∧
      ((∀ cs, (e.run cs).PassInRange) ↔
        ∀ t ∈ e.techniques, ∀ t' ∈ e.techniques, t.passes.length = t'.passes.length) := by
  obtain ⟨-, -, c, -, last, k, -, -, -, -, rfl⟩ := ofBytes_eq_ok_iff.mp h
  have hpass : (c.effect profile (k.placed last)).pass = none := rfl
  have htechnique : (c.effect profile (k.placed last)).TechniqueInRange := by
    rw [Contents.effect]
    cases c.techniques with
    | nil => exact ⟨by simp, by simp⟩
    | cons t ts => exact ⟨by simp, by simp⟩
  refine ⟨fun cs => htechnique.run, fun cs => passInRange_run_iff ?_, forall_passInRange_iff hpass⟩
  exact fun p hp => nomatch hpass ▸ hp

def unevenTechniques : Bytes :=
  (numberBytes [magic, 4, 0, 0, 2, 0, 0, 0, 0, 2, 0, 0, 0, 0, 0, 0, 0, 0, 1, 0, 0, 0, 0, 0]).toArray

theorem cursor_in_range_iff_uneven :
    ∃ e, ofBytes unevenTechniques .glsl default = .ok e ∧ (¬∀ cs, (e.run cs).PassInRange) ∧
      (e.run [.beginPass 1, .setTechnique 1]).TechniqueInRange ∧
      ¬(e.run [.beginPass 1, .setTechnique 1]).PassInRange := by
  let passes (n : Nat) : Technique := ⟨none, List.replicate n ⟨none, [], []⟩, []⟩
  let e : Effect := ⟨.glsl, [], [], [passes 2, passes 1], #[], some 0, none⟩
  have hread : ofBytes unevenTechniques .glsl default = .ok e := by decide +kernel
  obtain ⟨htechnique, -, heven⟩ := cursor_in_range_iff hread
  refine ⟨e, hread, fun hall => ?_, htechnique _, fun hrange => ?_⟩
  · exact absurd (heven.mp hall (passes 2) (by simp [e]) (passes 1) (by simp [e])) (by decide)
  · exact absurd (hrange 1 rfl).1 (by decide)

end ShaderPipeline.Effect
