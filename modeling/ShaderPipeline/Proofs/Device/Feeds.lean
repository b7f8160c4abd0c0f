import ShaderPipeline.Proofs.Device.PackedLayout

/-!
# What a refresh compares

A program is fed in windows: each uniform has one of its own, and so has each bump environment of a
texture stage. A refresh compares the window of each with its registers, as numbers, and copies all
of it if one word differs. As numbers, a NaN differs from itself, and zeros of different signs do
not differ.
-/

namespace ShaderPipeline

open List

namespace Device

open StageUniforms

/-! ### The windows of a program -/

/-- A window of the arrays that registers feed: the one of a uniform, or the one of the bump
environment of a texture stage, each from a slot on. -/
inductive Feed
  | uniform (stage : Stage) (slot : Nat) (u : Uniform)
  | bump (slot n : Nat)
  deriving DecidableEq

namespace Feed

def stage : Feed → Stage
  | uniform stage _ _ => stage
  | bump _ _ => .pixel

def kind : Feed → ValueKind
  | uniform _ _ u => u.kind
  | bump _ _ => .float

/-- Its first slot. -/
def slot : Feed → Nat
  | uniform _ slot _ => slot
  | bump slot _ => slot

def size : Feed → Nat
  | uniform _ _ u => u.kind.lanes * u.width
  | bump _ _ => 8

def word (files : RegisterFiles) : Feed → Nat → UInt32
  | uniform stage _ u, i => (files.stage stage).word u.kind (u.kind.lanes * u.index + i)
  | bump _ n, i => ((files.bumpSlots n).getD i .zero).bits

def held (values : PerStage StageUniforms) (f : Feed) (i : Nat) : UInt32 :=
  (values.get f.stage).word f.kind (f.kind.lanes * f.slot + i)

variable (files : RegisterFiles) (values : PerStage StageUniforms) (f : Feed)

def Differs : Prop :=
  ∃ i < f.size, ¬SameNumber f.kind (f.held values i) (f.word files i)

instance : Decidable (f.Differs files values) :=
  inferInstanceAs (Decidable (∃ i < f.size, ¬SameNumber _ _ _))

def Of (us : List (Stage × Uniform)) (f : Feed) : Prop :=
  ∃ before stage u after, us = before ++ (stage, u) :: after ∧
    f = .uniform stage (slotsBefore before stage u.kind) u

theorem not_of_nil : ¬f.Of [] := by
  rintro ⟨before, stage, u, after, h, -⟩
  simp at h

/-- An element of a list with one more at the end is that one, or stood in the list before. -/
theorem split_concat {α : Type} {us before after : List α} {e x : α}
    (h : us ++ [e] = before ++ x :: after) :
    (us = before ∧ e = x) ∨ ∃ after', us = before ++ x :: after' := by
  rcases eq_nil_or_concat after with rfl | ⟨after', last, rfl⟩
  · exact Or.inl ⟨append_inj_left' h rfl, singleton_inj.mp (append_inj_right' h rfl)⟩
  · have h' : us ++ [e] = (before ++ x :: after') ++ [last] := by
      rw [h, append_assoc, cons_append, concat_eq_append]
    exact Or.inr ⟨after', append_inj_left' h' rfl⟩

theorem of_concat_iff {us : List (Stage × Uniform)} {stage : Stage} {u : Uniform} {f : Feed} :
    f.Of (us ++ [(stage, u)]) ↔
      f.Of us ∨ f = .uniform stage (slotsBefore us stage u.kind) u := by
  constructor
  · rintro ⟨before, stage', u', after, hsplit, rfl⟩
    rcases split_concat hsplit with ⟨rfl, hlast⟩ | ⟨after', hus⟩
    · cases hlast
      exact .inr rfl
    · exact .inl ⟨before, stage', u', after', hus, rfl⟩
  · rintro (⟨before, stage', u', after, rfl, rfl⟩ | rfl)
    · exact ⟨before, stage', u', after ++ [(stage, u)], by simp, rfl⟩
    · exact ⟨us, stage, u, [], rfl, rfl⟩

end Feed

namespace Refresh

variable {files : RegisterFiles} {start : PerStage StageUniforms} {us : List (Stage × Uniform)}

section Window

variable {before after : List (Stage × Uniform)} {stage : Stage} {u : Uniform}
  (hsplit : us = before ++ (stage, u) :: after) (hfiles : files.Sized) (hroom : Fits us start)
  (hfile : u.InFile)

include hsplit hfiles hroom hfile

/-- A step reports a change exactly if the window of its uniform differed as the walk began. -/
theorem changed_step_iff :
    (((walk files start before).values.get stage).refreshUniform (files.stage stage)
        ((walk files start before).cursors.get stage) u).2 = true ↔
      (Feed.uniform stage (slotsBefore before stage u.kind) u).Differs files start := by
  obtain ⟨hreach, hspace, hstart⟩ := walk_window hsplit hfiles hroom hfile
  rw [changed_refreshUniform_iff _ _ _ _ hreach hspace]
  simp only [hstart]
  rfl

theorem held_walk {i : Nat} (hi : i < u.kind.lanes * u.width) :
    (Feed.uniform stage (slotsBefore before stage u.kind) u).held (walk files start us).values i =
      if (Feed.uniform stage (slotsBefore before stage u.kind) u).Differs files start
      then (Feed.uniform stage (slotsBefore before stage u.kind) u).word files i
      else (Feed.uniform stage (slotsBefore before stage u.kind) u).held start i := by
  obtain ⟨hreach, hspace, hstart⟩ := walk_window hsplit hfiles hroom hfile
  have hword := word_refreshUniform _ _ _ _ hreach hspace hi
  rw [if_congr (changed_step_iff hsplit hfiles hroom hfile) rfl (hstart i),
    (walked files start before).cursor] at hword
  exact (word_walk hsplit hi).trans hword

end Window

theorem changed_walk_iff (hfiles : files.Sized) (hroom : Fits us start)
    (hin : ∀ e ∈ us, e.2.InFile) :
    (walk files start us).changed = true ↔ ∃ f : Feed, f.Of us ∧ f.Differs files start := by
  induction us using reverseRecOn with
  | nil => exact iff_of_false Bool.false_ne_true fun ⟨f, hf, _⟩ => f.not_of_nil hf
  | append_singleton us e ih =>
    obtain ⟨stage, u⟩ := e
    have hbefore : Fits us start := fun stage kind =>
      (Nat.mul_le_mul_left _ (by simp)).trans (hroom stage kind)
    rw [walk_concat, step, Bool.or_eq_true, ih hbefore fun x hx => hin x (by simp [hx]),
      changed_step_iff rfl hfiles hroom (hin (stage, u) (by simp))]
    simp only [Feed.of_concat_iff, or_and_right, exists_or, exists_eq_left]

end Refresh

/-- The register files have all their registers, and all their bump environments. -/
structure RegisterFiles.Full (files : RegisterFiles) : Prop where
  sized : files.Sized
  bump : files.bump.size = 6 * bumpStageCount

namespace LinkedProgram

def bumpSamplers (p : LinkedProgram) : List Sampler :=
  (p.pixel.elim [] (·.code.samplers)).filter (·.bump)

def bumpStages (p : LinkedProgram) : List Nat :=
  StageUniforms.served (p.bumpSamplers.map (·.index))

/-- The windows of a program: those of its uniforms, and behind them those of bump environments. -/
inductive Feeds (p : LinkedProgram) : Feed → Prop
  | uniform {f : Feed} : f.Of p.uniforms → p.Feeds f
  | bump {j n : Nat} : p.bumpStages[j]? = some n →
    p.Feeds (.bump (slotsBefore p.uniforms .pixel .float + 2 * j) n)

variable {p : LinkedProgram} {files : RegisterFiles} {values : PerStage StageUniforms}

theorem WellFormed.length_bumpSamplers (h : p.WellFormed) :
    p.bumpSamplers.length = p.bumpCount := by
  rw [h.bumpCount, bumpSamplers]
  cases p.pixel with
  | none => rfl
  | some c => exact countP_eq_length_filter.symm

theorem WellFormed.length_bumpStages_le (h : p.WellFormed) : p.bumpStages.length ≤ p.bumpCount := by
  rw [← h.length_bumpSamplers]
  exact (length_filter_le _ _).trans (length_map _).le

def bumpWalk (p : LinkedProgram) (files : RegisterFiles) (v : StageUniforms) :
    StageUniforms × Bool :=
  v.refreshBump files (4 * v.bumpBase p.bumpCount) p.bumpSamplers

theorem WellFormed.refresh_eq (h : p.WellFormed) (files : RegisterFiles)
    (values : PerStage StageUniforms) :
    p.refresh files values =
      ((p.walk files values).values.set .pixel
          (p.bumpWalk files ((p.walk files values).values.get .pixel)).1,
        (p.walk files values).changed ||
          (p.bumpWalk files ((p.walk files values).values.get .pixel)).2) := by
  have hnone (hempty : p.bumpSamplers = []) (v : StageUniforms) :
      p.bumpWalk files v = (v, false) := by
    rw [bumpWalk, hempty, refreshBump]
  cases hp : p.pixel with
  | none =>
    rw [hnone (by rw [bumpSamplers, hp]; rfl), PerStage.set_get, Bool.or_false, refresh, hp]
    rfl
  | some c =>
    have hsamplers : p.bumpSamplers = c.code.samplers.filter (·.bump) := by
      rw [bumpSamplers, hp]
      rfl
    by_cases hpos : 0 < p.bumpCount
    · simp only [refresh, hp, if_pos hpos, bumpWalk, hsamplers]
      rfl
    · have hempty : p.bumpSamplers = [] :=
        eq_nil_of_length_eq_zero (by rw [h.length_bumpSamplers]; omega)
      rw [hnone hempty, PerStage.set_get, Bool.or_false, refresh, hp]
      exact if_neg hpos

theorem WellFormed.size_floats (h : p.WellFormed) (hvalues : p.Shapes values) :
    (values.get .pixel).floats.size =
      4 * (slotsBefore p.uniforms .pixel .float + 2 * p.bumpCount) := by
  have hsize := hvalues .pixel .float
  rw [h.slotsBefore_uniforms, h.bumpCount]
  simp only [words, length_map, Array.length_toList, shader] at hsize ⊢
  rw [hsize]
  cases p.pixel with
  | none => rfl
  | some c => exact Array.size_replicate

theorem word_walk_bump (j i : Nat) :
    ((p.walk files values).values.get .pixel).word .float
        (4 * slotsBefore p.uniforms .pixel .float + 8 * j + i) =
      (values.get .pixel).word .float
        (4 * slotsBefore p.uniforms .pixel .float + 8 * j + i) := by
  refine word_walk_of_le ?_
  simp only [ValueKind.lanes]
  omega

section

variable (h : p.WellFormed) (hfiles : files.Full) (hvalues : p.Shapes values)

include h hvalues

theorem bump_window :
    ((p.walk files values).values.get .pixel).bumpBase p.bumpCount =
        slotsBefore p.uniforms .pixel .float ∧
      4 * slotsBefore p.uniforms .pixel .float + 8 * p.bumpStages.length ≤
        ((p.walk files values).values.get .pixel).floats.size := by
  have hsize := h.size_floats hvalues
  have hstages := h.length_bumpStages_le
  rw [bumpBase, size_floats_walk, hsize]
  omega

include hfiles

theorem changed_bumpWalk_iff :
    (p.bumpWalk files ((p.walk files values).values.get .pixel)).2 = true ↔
      ∃ j n, p.bumpStages[j]? = some n ∧
        (Feed.bump (slotsBefore p.uniforms .pixel .float + 2 * j) n).Differs files values := by
  obtain ⟨hbase, hroom⟩ := bump_window h hvalues
  rw [bumpWalk, hbase, changed_refreshBump_iff hfiles.bump hroom]
  refine exists_congr fun j => exists_congr fun n => and_congr_right fun _ => ?_
  rw [bumpDiffers_congr fun i _ => word_walk_bump j i]
  have hplace : 4 * slotsBefore p.uniforms .pixel .float + 8 * j =
      4 * (slotsBefore p.uniforms .pixel .float + 2 * j) := by
    omega
  rw [hplace]
  rfl

theorem held_bumpWalk {j n : Nat} (hj : p.bumpStages[j]? = some n) {i : Nat} (hi : i < 8) :
    (Feed.bump (slotsBefore p.uniforms .pixel .float + 2 * j) n).held (p.refresh files values).1 i =
      if (Feed.bump (slotsBefore p.uniforms .pixel .float + 2 * j) n).Differs files values
      then (Feed.bump (slotsBefore p.uniforms .pixel .float + 2 * j) n).word files i
      else (Feed.bump (slotsBefore p.uniforms .pixel .float + 2 * j) n).held values i := by
  obtain ⟨hbase, hroom⟩ := bump_window h hvalues
  have hplace : 4 * (slotsBefore p.uniforms .pixel .float + 2 * j) =
      4 * slotsBefore p.uniforms .pixel .float + 8 * j := by
    omega
  have hword := word_refreshBump hfiles.bump hroom hj hi
  rw [if_congr (bumpDiffers_congr fun i _ => word_walk_bump j i)
    rfl (word_walk_bump j i), ← hplace] at hword
  refine Eq.trans ?_ hword
  rw [h.refresh_eq, bumpWalk, hbase]
  simp [Feed.held, Feed.stage, Feed.kind, Feed.slot, PerStage.get_set, ValueKind.lanes]

variable (hin : ∀ e ∈ p.uniforms, e.2.InFile)

include hin

/-- A refresh reports a change exactly if a window differs, as numbers, from its registers. -/
theorem changed_refresh_iff :
    (p.refresh files values).2 = true ↔ ∃ f, p.Feeds f ∧ f.Differs files values := by
  have hwalk : (p.walk files values).changed = true ↔ _ :=
    Refresh.changed_walk_iff hfiles.sized (h.hasRoom hvalues).fits hin
  rw [h.refresh_eq, Bool.or_eq_true, hwalk, changed_bumpWalk_iff h hfiles hvalues]
  constructor
  · rintro (⟨f, hf, hdiffers⟩ | ⟨j, n, hj, hdiffers⟩)
    · exact ⟨f, .uniform hf, hdiffers⟩
    · exact ⟨_, .bump hj, hdiffers⟩
  · rintro ⟨f, hf | hj, hdiffers⟩
    · exact .inl ⟨f, hf, hdiffers⟩
    · exact .inr ⟨_, _, hj, hdiffers⟩

theorem held_refresh {f : Feed} (hf : p.Feeds f) {i : Nat} (hi : i < f.size) :
    f.held (p.refresh files values).1 i =
      if f.Differs files values then f.word files i else f.held values i := by
  cases hf with
  | uniform hf =>
    obtain ⟨before, stage, u, after, hsplit, rfl⟩ := hf
    have hroom := h.hasRoom hvalues
    exact (word_refresh hroom hsplit hi).trans
      (Refresh.held_walk hsplit hfiles.sized hroom.fits (hin (stage, u) (by simp [hsplit])) hi)
  | bump hj => exact held_bumpWalk h hfiles hvalues hj hi

end

end LinkedProgram

end Device

end ShaderPipeline
