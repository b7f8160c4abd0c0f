import ShaderPipeline.Proofs.Device.Courses

/-!
# The state of drawing

A device keeps which vertex arrays are enabled, their divisors and whether shaders set the size of
points, so that it tells the driver of changes only. `Recorded` says that a list of changes is what
such a memory leaves: every change is to another value, and the last one is to the present value.

Arrays are enabled and disabled when the device gets ready to draw, up to the highest one that may
be enabled. That this bound is right is part of the invariant `Drawn`: beyond it no array is wanted
and none is enabled.
-/

namespace ShaderPipeline.Device

open List Array Option

variable {cs : List Call} {α : Type} {i size : Nat}

/-! ### Changes -/

/-- The changes of a value are each to another one than before, and the last one is to the present
value. -/
structure Recorded {α : Type} (start : α) (changes : List α) (now : α) : Prop where
  differ : (start :: changes).IsChain (· ≠ ·)
  last : changes.getLast?.getD start = now

namespace Recorded

variable {α : Type} {start now next : α} {changes : List α}

theorem nil (start : α) : Recorded start [] start := ⟨isChain_singleton _, rfl⟩

theorem push (h : Recorded start changes now) (hne : now ≠ next) :
    Recorded start (changes ++ [next]) next where
  differ := by
    rw [← cons_append, isChain_append]
    refine ⟨h.differ, isChain_singleton _, fun x hx y hy => ?_⟩
    rw [getLast?_cons, h.last] at hx
    obtain rfl := some.inj hx
    obtain rfl := some.inj hy
    exact hne
  last := by rw [getLast?_concat, getD_some]

end Recorded

def arrayChange? (i : Nat) : Call → Option Bool
  | .enableVertexAttribArray j => if j = i then some true else none
  | .disableVertexAttribArray j => if j = i then some false else none
  | _ => none

def divisorChange? (i : Nat) : Call → Option Nat
  | .vertexAttribDivisor j n => if j = i then some n else none
  | _ => none

def pointSizeChange? : Call → Option Bool
  | .enable switch => if switch = pointSizeEnum then some true else none
  | .disable switch => if switch = pointSizeEnum then some false else none
  | _ => none

/-- Whether an array is enabled after calls. -/
def arrayOn (cs : List Call) (i : Nat) : Bool := (cs.filterMap (arrayChange? i)).getLast?.getD false

/-- Whether shaders set the size of points after calls. -/
def pointSizeOn (cs : List Call) : Bool := (cs.filterMap pointSizeChange?).getLast?.getD false

def Call.declares (i : Nat) : Call → Bool
  | .vertexAttribPointer j .. => j == i
  | _ => false

/-- What is told by calls that are not about drawing. -/
theorem changes_of_about (h : About [.object, .binding, .value] cs) :
    (∀ i, cs.filterMap (arrayChange? i) = []) ∧ (∀ i, cs.filterMap (divisorChange? i) = []) ∧
      cs.filterMap pointSizeChange? = [] ∧ ∀ i, cs.any (·.declares i) = false := by
  have hother := h.subject_ne (x := .drawing) (by decide)
  refine ⟨fun i => ?_, fun i => ?_, ?_, fun i => ?_⟩
  · rw [filterMap_eq_nil_iff]
    intro c hc
    cases c <;> first | rfl | exact absurd rfl (hother _ hc)
  · rw [filterMap_eq_nil_iff]
    intro c hc
    cases c <;> first | rfl | exact absurd rfl (hother _ hc)
  · rw [filterMap_eq_nil_iff]
    intro c hc
    have hdrawing := hother c hc
    cases c <;> first | rfl | simp_all [Call.subject, pointSizeChange?]
  · rw [List.any_eq_false]
    intro c hc
    cases c <;> first | exact Bool.false_ne_true | exact absurd rfl (hother _ hc)

/-! ### Arrays of cells -/

theorem getD_setIfInBounds (a : Array α) (i j : Nat) (x y : α) :
    (a.setIfInBounds i x).getD j y = if i = j ∧ j < a.size then x else a.getD j y := by
  by_cases hij : i = j
  · by_cases hj : j < a.size <;> simp [hij, hj]
  · simp [hij]

theorem size_foldl_setIfInBounds (f : Nat → α) (n : Nat) (a : Array α) :
    ((List.range n).foldl (fun e i => e.setIfInBounds i (f i)) a).size = a.size := by
  induction n with
  | zero => rfl
  | succ n ih => rw [List.range_succ, List.foldl_append, foldl_cons, foldl_nil,
      size_setIfInBounds, ih]

theorem getD_foldl_setIfInBounds (f : Nat → α) (x : α) (n : Nat) (a : Array α) (i : Nat) :
    ((List.range n).foldl (fun e i => e.setIfInBounds i (f i)) a).getD i x =
      if i < n ∧ i < a.size then f i else a.getD i x := by
  induction n with
  | zero => simp
  | succ n ih =>
    rw [List.range_succ, List.foldl_append, foldl_cons, foldl_nil, getD_setIfInBounds,
      size_foldl_setIfInBounds, ih]
    by_cases hn : n = i
    · subst hn
      simp
    · have hlt : i < n + 1 ↔ i < n := by omega
      simp [hn, hlt]

/-- The bound of the tracked arrays after an update is above every array that is wanted. -/
theorem lt_of_wanted (wanted : Nat → Bool) {n : Nat} (hi : i < n) (hw : wanted i = true) :
    i < match ((List.range n).filter wanted).getLast? with
      | some j => j + 1
      | none => 0 := by
  induction n with
  | zero => omega
  | succ n ih =>
    rw [List.range_succ, List.filter_append]
    by_cases hn : wanted n = true
    · rw [filter_cons_of_pos hn, filter_nil, getLast?_concat]
      exact hi
    · have hne : i ≠ n := fun heq => hn (heq ▸ hw)
      rw [filter_cons_of_neg hn, filter_nil, append_nil]
      exact ih (by omega)

theorem changes_arrayCalls (wanted enabled : Nat → Bool) (n i : Nat) :
    ((List.range n).flatMap fun j => arrayCalls j (wanted j) (enabled j)).filterMap
        (arrayChange? i) =
      if i < n ∧ enabled i ≠ wanted i then [wanted i] else [] := by
  have hone : ∀ j, (arrayCalls j (wanted j) (enabled j)).filterMap (arrayChange? i) =
      if j = i ∧ enabled j ≠ wanted j then [wanted j] else [] := by
    intro j
    unfold arrayCalls
    by_cases hj : j = i
    · subst hj
      cases wanted j <;> cases enabled j <;> simp [arrayChange?]
    · cases wanted j <;> cases enabled j <;> simp [arrayChange?, hj]
  induction n with
  | zero => simp
  | succ n ih =>
    rw [List.range_succ, List.flatMap_append, List.filterMap_append, ih, flatMap_cons,
      flatMap_nil, append_nil, hone]
    by_cases hn : n = i
    · subst hn
      simp
    · have hlt : i < n + 1 ↔ i < n := by omega
      simp [hn, hlt]

/-! ### The invariant -/

/-- What is kept about drawing is what calls have recorded, for tables of some size. Beyond the
tracked arrays none is wanted and none is enabled. -/
structure Drawn (size : Nat) (s : DrawState) (cs : List Call) : Prop where
  arrays : ∀ i, Recorded false (cs.filterMap (arrayChange? i)) (s.enabled.getD i false)
  divisors : ∀ i, Recorded 0 (cs.filterMap (divisorChange? i)) (s.divisors.getD i 0)
  pointSize : Recorded false (cs.filterMap pointSizeChange?) s.pointSize
  sizes : s.wanted.size = size ∧ s.enabled.size = size
  beyond : ∀ i, s.tracked ≤ i → s.wanted.getD i false = false ∧ s.enabled.getD i false = false

/-- Calls that are not about drawing record nothing. -/
theorem Drawn.quiet {s : DrawState} {cs' : List Call} (h : Drawn size s cs)
    (habout : About [.object, .binding, .value] cs') : Drawn size s (cs ++ cs') := by
  obtain ⟨harrays, hdivisors, hpoints, -⟩ := changes_of_about habout
  refine ⟨fun i => ?_, fun i => ?_, ?_, h.sizes, h.beyond⟩
  · rw [List.filterMap_append, harrays, append_nil]
    exact h.arrays i
  · rw [List.filterMap_append, hdivisors, append_nil]
    exact h.divisors i
  · rw [List.filterMap_append, hpoints, append_nil]
    exact h.pointSize

section Changes

variable {size : Nat} {s : DrawState} {cs : List Call} (h : Drawn size s cs)
include h

theorem Drawn.declare (hi : i < size) (components : Int) (type : Nat) (normalized : Bool)
    (stride : Int) (offset : Nat) :
    Drawn size
        { s with wanted := s.wanted.setIfInBounds i true, tracked := max s.tracked (i + 1) }
        (cs ++ [.vertexAttribPointer i components type normalized stride offset]) ∧
      ∀ j, (s.wanted.setIfInBounds i true).getD j false = (s.wanted.getD j false || i == j) := by
  have hwanted : ∀ j, (s.wanted.setIfInBounds i true).getD j false =
      (s.wanted.getD j false || i == j) := by
    intro j
    by_cases hj : i = j
    · subst hj
      simp [h.sizes.1, hi]
    · simp [hj]
  refine ⟨⟨fun j => ?_, fun j => ?_, ?_, ⟨?_, h.sizes.2⟩, fun j hj => ?_⟩, hwanted⟩
  · simpa [arrayChange?, filterMap_cons] using h.arrays j
  · simpa [divisorChange?, filterMap_cons] using h.divisors j
  · simpa [pointSizeChange?, filterMap_cons] using h.pointSize
  · exact size_setIfInBounds.trans h.sizes.1
  · have hmax : max s.tracked (i + 1) ≤ j := hj
    have hidle := h.beyond j (by omega)
    have hne : (i == j) = false := by
      rw [beq_eq_false_iff_ne]
      omega
    exact ⟨(hwanted j).trans (by rw [hidle.1, hne, Bool.or_false]), hidle.2⟩

theorem Drawn.divide {n : Nat} (hi : i < s.divisors.size) (hne : s.divisors.getD i 0 ≠ n) :
    Drawn size { s with divisors := s.divisors.setIfInBounds i n }
      (cs ++ [.vertexAttribDivisor i n]) := by
  refine ⟨fun j => ?_, fun j => ?_, ?_, h.sizes, h.beyond⟩
  · simpa [arrayChange?, filterMap_cons] using h.arrays j
  · dsimp only
    by_cases hj : i = j
    · subst hj
      simpa [divisorChange?, filterMap_cons, hi] using (h.divisors i).push hne
    · simpa [divisorChange?, filterMap_cons, hj] using h.divisors j
  · simpa [pointSizeChange?, filterMap_cons] using h.pointSize

theorem Drawn.resize {b : Bool} (hne : s.pointSize ≠ b) :
    Drawn size { s with pointSize := b }
      (cs ++ [if b then .enable pointSizeEnum else .disable pointSizeEnum]) := by
  refine ⟨fun j => ?_, fun j => ?_, ?_, h.sizes, h.beyond⟩
  · cases b <;> simpa [arrayChange?, filterMap_cons] using h.arrays j
  · cases b <;> simpa [divisorChange?, filterMap_cons] using h.divisors j
  · cases b <;> simpa [pointSizeChange?, filterMap_cons] using h.pointSize.push hne

end Changes

/-! ### Arrays -/

theorem changes_enablingCalls (d : Device) :
    (∀ i, d.enablingCalls.filterMap (divisorChange? i) = []) ∧
      d.enablingCalls.filterMap pointSizeChange? = [] ∧
      ∀ i, d.enablingCalls.any (·.declares i) = false := by
  have hcalls : ∀ c ∈ d.enablingCalls,
      ∃ i, c = .enableVertexAttribArray i ∨ c = .disableVertexAttribArray i := by
    intro c hc
    obtain ⟨i, -, hc⟩ := mem_flatMap.mp hc
    unfold arrayCalls at hc
    split_ifs at hc with h₁ h₂
    · cases hc
    · exact ⟨i, Or.inl (mem_singleton.mp hc)⟩
    · exact ⟨i, Or.inr (mem_singleton.mp hc)⟩
  refine ⟨fun i => ?_, ?_, fun i => ?_⟩
  · rw [filterMap_eq_nil_iff]
    intro c hc
    obtain ⟨j, rfl | rfl⟩ := hcalls c hc <;> rfl
  · rw [filterMap_eq_nil_iff]
    intro c hc
    obtain ⟨j, rfl | rfl⟩ := hcalls c hc <;> rfl
  · rw [List.any_eq_false]
    intro c hc
    obtain ⟨j, rfl | rfl⟩ := hcalls c hc <;> exact Bool.false_ne_true

section Arrays

variable {d : Device} {size : Nat} (h : Drawn size d.drawState d.calls.toList)
include h

theorem idle_of_untracked (hi : ¬i < d.trackedArrays) :
    d.wanted.getD i false = false ∧ d.enabled.getD i false = false :=
  h.beyond i (not_lt.mp hi)

/-- The device wants no array once it has cleared those that it tracks. -/
theorem wanted_cleared (i : Nat) : d.cleared.wanted.getD i false = false := by
  rw [cleared, getD_foldl_setIfInBounds]
  split_ifs with hi
  · rfl
  · by_cases htracked : i < d.trackedArrays
    · rw [getD_eq_getD_getElem?, Array.getElem?_eq_none (by omega), getD_none]
    · exact (idle_of_untracked h htracked).1

theorem drawn_cleared : Drawn size d.cleared.drawState d.cleared.calls.toList where
  arrays := h.arrays
  divisors := h.divisors
  pointSize := h.pointSize
  sizes := ⟨(size_foldl_setIfInBounds _ _ _).trans h.sizes.1, h.sizes.2⟩
  beyond i hi := ⟨wanted_cleared h i, (h.beyond i hi).2⟩

/-- After an update exactly the wanted arrays are enabled. -/
theorem enabled_arranged (i : Nat) :
    d.arranged.enabled.getD i false = d.wanted.getD i false := by
  have hsizes : d.wanted.size = size ∧ d.enabled.size = size := h.sizes
  rw [arranged, getD_foldl_setIfInBounds]
  split_ifs with hi
  · rfl
  · by_cases htracked : i < d.trackedArrays
    · have hnone : d.enabled[i]? = none ∧ d.wanted[i]? = none :=
        ⟨getElem?_eq_none (by omega), getElem?_eq_none (by omega)⟩
      simp [hnone]
    · have hidle := idle_of_untracked h htracked
      exact hidle.2.trans hidle.1.symm

/-- No array beyond the new bound is wanted. -/
theorem idle_of_arranged (hi : d.arranged.trackedArrays ≤ i) : d.wanted.getD i false = false := by
  by_cases htracked : i < d.trackedArrays
  · by_contra hwanted
    have hlt := lt_of_wanted (fun i => d.wanted.getD i false) htracked (by simpa using hwanted)
    exact absurd hlt (not_lt.mpr hi)
  · exact (idle_of_untracked h htracked).1

theorem drawn_arranged : Drawn size d.arranged.drawState d.arranged.calls.toList := by
  obtain ⟨hdivisors, hpoints, -⟩ := changes_enablingCalls d
  rw [show d.arranged.calls.toList = d.calls.toList ++ d.enablingCalls from calls_say _ _]
  refine ⟨fun i => ?_, fun i => ?_, ?_, ⟨h.sizes.1, ?_⟩, fun i hi => ?_⟩
  · rw [show d.arranged.drawState.enabled.getD i false = _ from enabled_arranged h i,
      List.filterMap_append, enablingCalls, changes_arrayCalls]
    by_cases hchange : i < d.trackedArrays ∧ d.enabled.getD i false ≠ d.wanted.getD i false
    · rw [if_pos hchange]
      exact (h.arrays i).push hchange.2
    · -- Beyond the tracked arrays none is wanted and none is enabled, so nothing need be told.
      have hsame : d.enabled.getD i false = d.wanted.getD i false := by
        by_cases hi : i < d.trackedArrays
        · by_contra hne
          exact hchange ⟨hi, hne⟩
        · have hidle := idle_of_untracked h hi
          exact hidle.2.trans hidle.1.symm
      rw [if_neg hchange, append_nil, ← hsame]
      exact h.arrays i
  · rw [List.filterMap_append, hdivisors, append_nil]
    exact h.divisors i
  · rw [List.filterMap_append, hpoints, append_nil]
    exact h.pointSize
  · exact (size_foldl_setIfInBounds _ _ _).trans h.sizes.2
  · have hwanted := idle_of_arranged h hi
    exact ⟨hwanted, (enabled_arranged h i).trans hwanted⟩

end Arrays

/-! ### Steps -/

/-- What a step does to the state of drawing, which stays as it was recorded. While the same program
is bound, arrays that are declared are wanted in addition to the others. For another program none is
wanted, and without a program none is enabled. -/
structure Draws (size : Nat) (d d' : Device) : Prop where
  drawn : Drawn size d'.drawState d'.calls.toList
  declared : sameProgram d'.bound d.bound = true →
    ∃ cs, d'.calls.toList = d.calls.toList ++ cs ∧
      ∀ i, d'.wanted.getD i false = (d.wanted.getD i false || cs.any (·.declares i))
  anew : sameProgram d'.bound d.bound = false →
    (∀ i, d'.wanted.getD i false = false) ∧
      (d'.bound = none → ∀ i, d'.enabled.getD i false = false)

namespace Draws

variable {size : Nat} {d d₁ d₂ : Device}

/-- A step that declares no array and binds no program. -/
theorem of_calls (h : Drawn size d₁.drawState d₁.calls.toList) (hbound : d₁.bound = d.bound)
    (hwanted : d₁.wanted = d.wanted) (hcalls : d₁.calls.toList = d.calls.toList ++ cs)
    (hcs : ∀ i, cs.any (·.declares i) = false) : Draws size d d₁ where
  drawn := h
  declared _ := ⟨cs, hcalls, fun i => by rw [hwanted, hcs, Bool.or_false]⟩
  anew hother := by
    rw [hbound, sameProgram_self] at hother
    exact absurd hother (by decide)

theorem of_talks (h : Drawn size d.drawState d.calls.toList)
    (hstep : Talks [.object, .binding, .value] d d₁) : Draws size d d₁ := by
  obtain ⟨cs, hcs, habout⟩ := hstep.calls
  have hstate := hstep.drawState (by decide)
  have hwanted : d₁.wanted = d.wanted := congrArg DrawState.wanted hstate
  refine .of_calls ?_ hstep.bound hwanted hcs (changes_of_about habout).2.2.2
  rw [hstate, hcs]
  exact h.quiet habout

theorem trans (h : Draws size d d₁) (hbound : d₁.bound = d.bound) (h' : Draws size d₁ d₂) :
    Draws size d d₂ where
  drawn := h'.drawn
  declared hsame := by
    obtain ⟨cs, hcs, hwanted⟩ := h.declared (hbound ▸ sameProgram_self _)
    obtain ⟨cs', hcs', hwanted'⟩ := h'.declared (hbound ▸ hsame)
    refine ⟨cs ++ cs', by rw [hcs', hcs, List.append_assoc], fun i => ?_⟩
    rw [hwanted', hwanted, List.any_append, Bool.or_assoc]
  anew hother := h'.anew (hbound ▸ hother)

/-- A step after which nothing more is drawn or bound. -/
theorem talks (h : Draws size d d₁) (hstep : Talks [.object, .binding, .value] d₁ d₂) :
    Draws size d d₂ := by
  have h' := of_talks h.drawn hstep
  have hstate := hstep.drawState (by decide)
  have hwanted : d₂.wanted = d₁.wanted := congrArg DrawState.wanted hstate
  have henabled : d₂.enabled = d₁.enabled := congrArg DrawState.enabled hstate
  refine ⟨h'.drawn, fun hsame => ?_, fun hother => ?_⟩
  · obtain ⟨cs, hcs, hdeclared⟩ := h.declared (hstep.bound ▸ hsame)
    obtain ⟨cs', hcs', habout⟩ := hstep.calls
    refine ⟨cs ++ cs', by rw [hcs', hcs, List.append_assoc], fun i => ?_⟩
    rw [hwanted, hdeclared, List.any_append, (changes_of_about habout).2.2.2, Bool.or_false]
  · rw [hwanted, henabled, hstep.bound]
    exact h.anew (hstep.bound ▸ hother)

end Draws

section Steps

variable {d : Device} {size : Nat} (h : Drawn size d.drawState d.calls.toList)
  (p : Option LinkedProgram)
include h

theorem draws_switched {p : Option LinkedProgram} (hother : sameProgram p d.bound = false) :
    Draws size d (d.switched p) := by
  have habout : About [.object, .binding, .value] (useCalls d.profile.isGlsl (namesOf p)) :=
    (about_useCalls _ _).mono (by simp)
  cases p with
  | none =>
    have hcleared := drawn_cleared h
    refine ⟨?_, fun hsame => absurd (hother.symm.trans hsame) (by decide), fun _ =>
      ⟨wanted_cleared h, fun _ i => (enabled_arranged hcleared i).trans (wanted_cleared h i)⟩⟩
    rw [show (d.switched none).calls.toList = _ from calls_say _ _]
    exact (drawn_arranged hcleared).quiet habout
  | some p =>
    refine ⟨?_, fun hsame => absurd (hother.symm.trans hsame) (by decide), fun _ =>
      ⟨wanted_cleared h, fun hnone => absurd hnone (by simp [switched])⟩⟩
    rw [show (d.switched (some p)).calls.toList = _ from calls_say _ _]
    exact (drawn_cleared h).quiet habout

theorem draws_bindHeld : Draws size d ((bindHeld p).run d).2 := by
  rw [bindHeld_run]
  split_ifs with hsame
  · exact .of_talks h (.of_eq rfl rfl rfl rfl)
  · exact (draws_switched h (by simpa using hsame)).talks (.collected (.of_eq rfl rfl rfl rfl))

theorem draws_bind : Draws size d ((bind p).run d).2 := by
  have hheld : Draws size d (d.withStore (d.store.holdProgram? p)) :=
    .of_talks h (.of_eq rfl rfl rfl rfl)
  exact hheld.trans rfl (draws_bindHeld hheld.drawn p)

theorem draws_bindShaders (vertex pixel : Option CompiledShader) :
    Draws size d ((bindShaders vertex pixel).run.run d).2 := by
  have hlink : Talks [.object, .binding, .value] d _ := .of_speaks (speaks_link d vertex pixel)
  refine bindShaders_induct (draws_bindHeld h none) (fun p _ => draws_bind h (some p))
    (fun e d' hrun => ?_) fun p d' hrun => ?_ <;> rw [hrun] at hlink
  · exact .of_talks h hlink
  · have hcached : Talks [.object, .binding, .value] d { d' with
        linkCache := d'.linkCache ++ [((nameOf vertex, nameOf pixel), p)] } :=
      hlink.trans (.of_eq rfl rfl rfl rfl)
    have hdraws := Draws.of_talks h hcached
    exact hdraws.trans hcached.bound (draws_bind hdraws.drawn (some p))

theorem draws_setAttribute (s : Semantic) (f : ArrayFormat) :
    Draws size d ((setAttribute s f).run d).2 := by
  rcases setAttribute_cases s f d with hrun | ⟨i, type, hi, hrun⟩
  · rw [hrun]
    exact .of_talks h (.of_eq rfl rfl rfl rfl)
  · rw [hrun]
    have hsize : d.wanted.size = size := h.sizes.1
    obtain ⟨hdrawn, hwanted⟩ :=
      h.declare (hsize ▸ hi) f.size type f.normalized f.stride f.offset
    refine ⟨?_, fun _ => ⟨_, calls_say _ _, fun j => ?_⟩, fun hother => ?_⟩
    · rw [show Array.toList _ = _ from calls_say _ _]
      exact hdrawn
    · refine (hwanted j).trans ?_
      simp [Call.declares, drawState]
    · exact absurd (hother.symm.trans (sameProgram_self d.bound)) (by decide)

theorem draws_setDivisor (s : Semantic) (divisor : Nat) :
    Draws size d ((setDivisor s divisor).run.run d).2 := by
  rcases setDivisor_cases s divisor d with ⟨e, hrun⟩ | hrun | ⟨i, hi, hne, hrun⟩
  · rw [hrun]
    exact .of_talks h (.of_eq rfl rfl rfl rfl)
  · rw [hrun]
    exact .of_talks h (.of_eq rfl rfl rfl rfl)
  · rw [hrun]
    refine .of_calls ?_ rfl rfl (calls_say _ _) (by simp [Call.declares])
    rw [show Array.toList _ = _ from calls_say _ _]
    exact h.divide hi hne

theorem draws_arranged : Draws size d d.arranged :=
  .of_calls (drawn_arranged h) rfl rfl (calls_say _ _) (changes_enablingCalls d).2.2

theorem draws_sized (p : LinkedProgram) : Draws size d (d.sized p) := by
  unfold sized
  by_cases hne : p.setsPointSize ≠ d.pointSize
  · rw [if_pos hne]
    refine .of_calls ?_ rfl rfl (calls_say _ _) (by split_ifs <;> simp [Call.declares])
    rw [show Array.toList _ = _ from calls_say _ _]
    exact h.resize hne.symm
  · rw [if_neg hne]
    exact .of_talks h (.of_eq rfl rfl rfl rfl)

theorem draws_ready : Draws size d (ready.run d).2 := by
  rw [ready_run]
  cases d.bound with
  | none => exact .of_talks h (.of_eq rfl rfl rfl rfl)
  | some p =>
    have harranged := draws_arranged h
    exact ((harranged.trans rfl (draws_sized harranged.drawn p))).talks
      (.of_speaks (speaks_updateUniforms _ p))

/-- A device that is ready has the wanted arrays enabled and lets shaders set the size of points if
its program does. -/
theorem drawState_ready {p : LinkedProgram} (hbound : d.bound = some p) :
    (∀ i, (ready.run d).2.enabled.getD i false = d.wanted.getD i false) ∧
      (ready.run d).2.pointSize = p.setsPointSize := by
  have hstate : (ready.run d).2.drawState = (d.arranged.sized p).drawState := by
    rw [ready_run, hbound]
    exact (speaks_updateUniforms _ p).drawState (by decide)
  have hsized : (d.arranged.sized p).enabled = d.arranged.enabled ∧
      (d.arranged.sized p).pointSize = p.setsPointSize := by
    unfold sized
    split_ifs with hne
    · exact ⟨rfl, rfl⟩
    · exact ⟨rfl, rfl⟩
    · exact ⟨rfl, (not_not.mp hne).symm⟩
  refine ⟨fun i => ?_, (congrArg DrawState.pointSize hstate).trans hsized.2⟩
  rw [← enabled_arranged h i, ← hsized.1]
  exact congrArg (fun s => s.enabled.getD i false) hstate

end Steps

/-! ### Runs -/

/-- A new device tells nothing about drawing and wants no array. -/
theorem drawn_create {driver : Driver} {config : Config} {d : Device}
    (hcreate : Device.create driver config = .ok d) :
    Drawn (min config.vertexArrays maxVertexArrays) d.drawState d.calls.toList ∧
      ∀ i, d.wanted.getD i false = false := by
  obtain rfl := eq_of_create hcreate
  have hreplicate : ∀ {α : Type} (x : α) (n i : Nat), (Array.replicate n x).getD i x = x := by
    intro α x n i
    rw [getD_eq_getD_getElem?, Array.getElem?_replicate]
    split_ifs <;> rfl
  have hblank : Drawn (min config.vertexArrays maxVertexArrays) (blank driver config).drawState
      [] := by
    refine ⟨fun i => ?_, fun i => ?_, .nil false, ⟨size_replicate, size_replicate⟩,
      fun i _ => ⟨hreplicate _ _ _, hreplicate _ _ _⟩⟩
    · exact ⟨isChain_singleton _, (hreplicate _ _ _).symm⟩
    · exact ⟨isChain_singleton _, (hreplicate _ _ _).symm⟩
  refine ⟨?_, fun i => hreplicate _ _ _⟩
  rw [calls_say]
  exact hblank.quiet ((about_useCalls _ _).mono (by simp))

namespace Client

theorem draws_perform {c : Client} (r : Request)
    (h : Drawn size c.device.drawState c.device.calls.toList) :
    Draws size c.device (c.perform r).device := by
  cases hr : r.isWrite with
  | true =>
    obtain ⟨files, hperform⟩ := c.perform_write r hr
    rw [hperform]
    exact .of_talks h (.of_eq rfl rfl rfl rfl)
  | false =>
    cases hbinds : r.rebinds with
    | false =>
      have hspeaks := c.speaks_perform r hr hbinds
      by_cases hdraws : .drawing ∈ r.subjects
      · cases r with
        | setAttribute s f => exact draws_setAttribute h s f
        | setDivisor s n => exact draws_setDivisor h s n
        | ready => exact draws_ready h
        | _ => simp [Request.subjects] at hdraws
      · have hstep : Talks [.object, .binding, .value] _ _ :=
          .of_speaks hspeaks fun x hx => by cases x <;> simp_all
        exact .of_talks h ⟨hstep.profile, hstep.bound, hstep.drawState, hstep.calls⟩
    | true =>
      cases r with
      | bind p => exact draws_bind h p
      | bindShaders vertex pixel => exact draws_bindShaders h _ _
      | deleteShader s =>
        simp only [perform, deleteShader_run]
        exact .of_talks h (.collected (.of_eq rfl rfl rfl rfl))
      | _ => exact absurd hbinds Bool.false_ne_true

/-- Along every course the state of drawing is as recorded, and the wanted arrays are those that
were declared since the binding last changed. -/
theorem BoundSince.drawn {c₀ m c : Client} (hrun : BoundSince c₀ m c)
    (h : Drawn size c₀.device.drawState c₀.device.calls.toList)
    (hnone : ∀ i, c₀.device.wanted.getD i false = false) :
    Drawn size c.device.drawState c.device.calls.toList ∧
      ∀ i, c.device.wanted.getD i false =
        (callsSince m.device c.device).any (·.declares i) := by
  induction hrun with
  | start =>
    refine ⟨h, fun i => ?_⟩
    rw [hnone, callsSince_self, any_nil]
  | keep before r _ hkept ih =>
    have hdraws := draws_perform r ih.1
    obtain ⟨cs, hcs, hwanted⟩ := hdraws.declared hkept
    refine ⟨hdraws.drawn, fun i => ?_⟩
    rw [hwanted, ih.2, before.callsSince_perform hcs, List.any_append]
  | change _ r _ hchanged ih =>
    have hdraws := draws_perform r ih.1
    refine ⟨hdraws.drawn, fun i => ?_⟩
    rw [(hdraws.anew (by simpa [KeepsBound] using hchanged)).1, callsSince_self, any_nil]
  | answer _ _ ih => exact ih

/-- What the driver has been told about drawing, along every course. Of each array it was told by
turns that it is enabled and that it is not, never a divisor twice in a row, and by turns whether
shaders set the size of points; what it was told last is what the device keeps. Once the device has
come to bind nothing, no array is enabled. Once it is ready, the enabled arrays are those of its
table that were declared since the binding last changed, and shaders set the size of points if those
of the bound program do. -/
theorem drawing_follows_record {driver : Driver} {config : Config} {d : Device} {m c : Client}
    (hcreate : Device.create driver config = .ok d) (hrun : BoundSince (.new d) m c) :
    (∀ i, Recorded false (c.device.calls.toList.filterMap (arrayChange? i))
      (c.device.enabled.getD i false)) ∧
    (∀ i, Recorded 0 (c.device.calls.toList.filterMap (divisorChange? i))
      (c.device.divisors.getD i 0)) ∧
    Recorded false (c.device.calls.toList.filterMap pointSizeChange?) c.device.pointSize ∧
    (∀ r, c.Allows r → ¬c.KeepsBound r → (c.perform r).device.bound = none →
      ∀ i, arrayOn (c.perform r).device.calls.toList i = false) ∧
    ∀ p, c.device.bound = some p →
      (∀ i, arrayOn (c.perform .ready).device.calls.toList i = true ↔
        i < min config.vertexArrays maxVertexArrays ∧
          (callsSince m.device c.device).any (·.declares i) = true) ∧
      pointSizeOn (c.perform .ready).device.calls.toList = p.setsPointSize := by
  obtain ⟨hnew, hnone⟩ := drawn_create hcreate
  obtain ⟨hdrawn, hwanted⟩ := hrun.drawn hnew hnone
  refine ⟨hdrawn.arrays, hdrawn.divisors, hdrawn.pointSize, fun r _ hchanged hunbound i => ?_,
    fun p hp => ⟨fun i => ?_, ?_⟩⟩
  · have hdraws := draws_perform r hdrawn
    have hanew := hdraws.anew (by simpa [KeepsBound] using hchanged)
    exact (hdraws.drawn.arrays i).last.trans (hanew.2 hunbound i)
  · have hready : arrayOn (c.perform .ready).device.calls.toList i = c.device.wanted.getD i false :=
      ((draws_ready hdrawn).drawn.arrays i).last.trans ((drawState_ready hdrawn hp).1 i)
    rw [hready, hwanted]
    refine ⟨fun hdeclared => ⟨?_, hdeclared⟩, And.right⟩
    -- An array that is wanted has a place in the table.
    have hsize : c.device.wanted.size = _ := hdrawn.sizes.1
    by_contra hlarge
    have hoff : c.device.wanted.getD i false = false := by
      rw [Array.getD_eq_getD_getElem?, Array.getElem?_eq_none (by omega), Option.getD_none]
    rw [← hwanted, hoff] at hdeclared
    exact absurd hdeclared (by decide)
  · exact (draws_ready hdrawn).drawn.pointSize.last.trans (drawState_ready hdrawn hp).2

end Client

/-! ### A run -/

def twoAttributeDriver : Driver := Driver.fourth.withAttributes [("vs_v0", 3), ("vs_v1", 1)]

def pointShader : LoweredShader :=
  { LoweredShader.blank .glsl120 default with
    version := some ⟨.vertex, 2, 0⟩
    attributes := [⟨⟨.position, 0⟩, 0, "vs_v0"⟩, ⟨⟨.normal, 0⟩, 1, "vs_v1"⟩]
    outputs := [⟨⟨.pointSize, 0⟩, 0, "vs_o0"⟩] }

def pointCompiled : CompiledShader := ⟨0, 1, .vertex, pointShader⟩

/-- Of two attributes one is declared, and its array alone is enabled. -/
theorem drawing_follows_record_points : ∃ d m c p,
    Device.create twoAttributeDriver (.ofProfile .glsl120) = .ok d ∧
    Client.BoundSince (.new d) m c ∧ c.device.bound = some p ∧
    (∀ i, arrayOn (c.perform .ready).device.calls.toList i = true ↔ i = 3) ∧
    pointSizeOn (c.perform .ready).device.calls.toList = true ∧
    c.device.calls.toList.filterMap (divisorChange? 3) = [2] ∧ c.device.divisors.getD 3 0 = 2 := by
  obtain ⟨d, hd⟩ : ∃ d, Device.create twoAttributeDriver (.ofProfile .glsl120) = .ok d := ⟨_, rfl⟩
  let m := ((Client.new d).perform (.compileLowered pointShader)).perform
    (.bindShaders (some pointCompiled) none)
  have hbound : Client.BoundSince (.new d) m m := by
    refine .change (.keep .start (.compileLowered pointShader) trivial ?_)
      (.bindShaders (some pointCompiled) none) ⟨fun s hs => ?_, by simp⟩ ?_
    · cases hd
      rfl
    · obtain rfl := Option.some.inj hs
      cases hd
      exact List.mem_cons_self
    · cases hd
      exact Bool.false_ne_true
  let c := (m.perform (.setAttribute ⟨.position, 0⟩ ⟨4, .float, false, 16, 0⟩)).perform
    (.setDivisor ⟨.position, 0⟩ 2)
  have hrun : Client.BoundSince (.new d) m c := by
    refine .keep (.keep hbound (.setAttribute ⟨.position, 0⟩ ⟨4, .float, false, 16, 0⟩) trivial ?_)
      (.setDivisor ⟨.position, 0⟩ 2) trivial ?_
    · cases hd
      rfl
    · cases hd
      rfl
  obtain ⟨hsince, hcalls, p, hp, hpoints⟩ : callsSince m.device c.device =
      [.vertexAttribPointer 3 4 0x1406 false 16 0, .vertexAttribDivisor 3 2] ∧
      c.device.calls.toList.filterMap (divisorChange? 3) = [2] ∧
      ∃ p, c.device.bound = some p ∧ p.setsPointSize = true := by
    cases hd
    exact ⟨rfl, rfl, _, rfl, rfl⟩
  obtain ⟨-, hdivisors, -, -, hready⟩ := Client.drawing_follows_record hd hrun
  obtain ⟨harrays, hsizes⟩ := hready p hp
  refine ⟨d, m, c, p, hd, hrun, hp, fun i => ?_, hsizes.trans hpoints, hcalls, ?_⟩
  · rw [harrays, hsince]
    simp only [List.any_cons, List.any_nil, Call.declares, Bool.or_false, beq_iff_eq]
    refine ⟨fun h => h.2.symm, fun h => ⟨?_, h.symm⟩⟩
    subst h
    decide
  · rw [← (hdivisors 3).last, hcalls]
    rfl

end ShaderPipeline.Device
