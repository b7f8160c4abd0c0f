import ShaderPipeline.Proofs.Device.Cells

/-!
# Bringing uniform arrays up to the register files

A program walks its uniforms with one running slot a kind and stage. `slotsBefore` is that running
slot in closed form. After `LinkedProgram.refresh`, every uniform whose registers exist holds them
at its slot (`Synced`), and if no change is reported there was none. Floats that reach past the end
of the register file are skipped.
-/

namespace ShaderPipeline

open List ValueKind PerStage Array Binary32 SameNumber Option

variable {n i : Nat} {kind : ValueKind} {stage : Stage} {before after : List (Stage × Uniform)}
  {u : Uniform}

def registerCount : ValueKind → Nat
  | .float => Device.floatRegisterCount
  | .int => Device.intRegisterCount
  | .bool => Device.boolRegisterCount

def Uniform.InFile (u : Uniform) : Prop := u.index + u.width ≤ registerCount u.kind

instance (u : Uniform) : Decidable u.InFile :=
  inferInstanceAs (Decidable (u.index + u.width ≤ registerCount u.kind))

namespace Device

open StageUniforms Refresh

variable (us : List (Stage × Uniform)) (files : RegisterFiles) (values : PerStage StageUniforms)

def RegisterFiles.bumpSlots (n : Nat) : List Binary32 :=
  files.bumpOf n ++ [.zero, .zero]

theorem RegisterFiles.length_bumpSlots {files : RegisterFiles}
    (hsize : files.bump.size = 6 * bumpStageCount) (hn : 1 ≤ n ∧ n ≤ bumpStageCount) :
    (files.bumpSlots n).length = 8 := by
  simp only [bumpSlots, bumpOf, length_append, Array.length_toList, size_extract,
    length_cons, length_nil, hsize]
  omega

/-! ### One uniform -/

@[simp] theorem size_syncEach (shadow : Array Int32) (start : Nat) (values : List Int32) :
    (syncEach shadow start values).1.size = shadow.size :=
  size_overwrite _ _ _

theorem syncEach_eq_of_unchanged {shadow : Array Int32} {start : Nat} {values : List Int32}
    (h : (syncEach shadow start values).2 = false) : (syncEach shadow start values).1 = shadow := by
  apply overwrite_eq_self
  intro i hi hbound
  have hold : (shadow.extract start (start + values.length)).toList[i]? = shadow[start + i]? := by
    rw [getElem?_toList, getElem?_extract, if_pos (by omega)]
  obtain ⟨a, ha⟩ : ∃ a, shadow[start + i]? = some a := ⟨_, getElem?_eq_getElem hbound⟩
  obtain ⟨b, hb⟩ : ∃ b, values[i]? = some b := ⟨_, getElem?_eq_getElem hi⟩
  have hmem : (a, b) ∈ (shadow.extract start (start + values.length)).toList.zip values :=
    mem_iff_getElem?.mpr ⟨i, getElem?_zip_eq_some.mpr ⟨hold.trans ha, hb⟩⟩
  have hne := any_eq_false.mp h _ hmem
  simp only [bne_iff_ne, ne_eq, not_not] at hne
  rw [ha, hb, hne]

namespace StageUniforms

variable (v : StageUniforms) (r : StageRegisters) (c : SlotCursor) (u : Uniform)

theorem words_refreshUniform_of_ne (h : kind ≠ u.kind) :
    (v.refreshUniform r c u).1.words kind = v.words kind := by
  unfold refreshUniform
  cases hk : u.kind <;> cases kind <;> first | rfl | exact absurd hk.symm h

theorem length_words_refreshUniform (kind : ValueKind) :
    ((v.refreshUniform r c u).1.words kind).length = (v.words kind).length := by
  unfold refreshUniform
  cases hk : u.kind <;> cases kind <;> simp [words]

theorem refreshUniform_eq_of_unchanged (h : (v.refreshUniform r c u).2 = false) :
    (v.refreshUniform r c u).1 = v := by
  unfold refreshUniform at h ⊢
  cases hk : u.kind with
  | float | int =>
    simp only [hk] at h ⊢
    rw [sync_eq_of_unchanged h]
  | bool =>
    simp only [hk] at h ⊢
    rw [syncEach_eq_of_unchanged h]

theorem word_refreshUniform_of_outside
    (hi : i < u.kind.lanes * c.next u.kind ∨
      u.kind.lanes * (c.next u.kind + u.width) ≤ i) :
    (v.refreshUniform r c u).1.word u.kind i = v.word u.kind i := by
  have hfour : ∀ n, 4 * (u.index + n) - 4 * u.index = 4 * n := by omega
  unfold refreshUniform word
  cases hk : u.kind with
  | float | int =>
    rw [hk] at hi
    simp only [words, getD_eq_getElem?_getD, List.getElem?_map, getElem?_toList]
    rw [getElem?_sync_of_outside _ _ (n := 4 * u.width)
      (fun xs hxs => (length_of_cells? hxs).trans_le (hfour _).le)
      (by simp only [lanes, SlotCursor.next] at hi; omega)]
  | bool =>
    rw [hk] at hi
    simp only [words, getD_eq_getElem?_getD, List.getElem?_map, getElem?_toList,
      syncEach, getElem?_overwrite]
    rw [if_neg]
    simp only [lanes, SlotCursor.next, length_map, Array.length_toList, size_extract] at hi ⊢
    omega

section

variable (hfile : u.kind.lanes * (u.index + u.width) ≤ (r.words u.kind).length)
  (hroom : u.kind.lanes * (c.next u.kind + u.width) ≤ (v.words u.kind).length)

include hfile hroom

theorem boolean_window (hk : u.kind = .bool) :
    ((r.bools.extract u.index (u.index + u.width)).toList.map
        fun b => b.toNat.toInt32).length = u.width ∧
      u.index + u.width ≤ r.bools.size ∧ c.bool + u.width ≤ v.bools.size := by
  rw [hk] at hfile hroom
  simp only [words, StageRegisters.words, lanes, SlotCursor.next, length_map,
    Array.length_toList, Nat.one_mul] at hfile hroom
  exact ⟨(length_map _).trans (length_window hfile), hfile, hroom⟩

/-- Bringing a uniform up reports a change exactly if one of its words differs, as a number, from
its register. -/
theorem changed_refreshUniform_iff :
    (v.refreshUniform r c u).2 = true ↔ ∃ i < u.kind.lanes * u.width,
      ¬SameNumber u.kind (v.word u.kind (u.kind.lanes * c.next u.kind + i))
        (r.word u.kind (u.kind.lanes * u.index + i)) := by
  unfold refreshUniform
  cases hk : u.kind with
  | float =>
    rw [hk] at hfile hroom
    simp only [words, StageRegisters.words, lanes, SlotCursor.next, length_map,
      Array.length_toList, Nat.mul_add] at hfile hroom
    simp only [word_float, StageRegisters.word_float, lanes, SlotCursor.next, Nat.mul_add]
    exact sync_file_changed_iff of_binary32 hfile hroom
  | int =>
    rw [hk] at hfile hroom
    simp only [words, StageRegisters.words, lanes, SlotCursor.next, length_map,
      Array.length_toList, Nat.mul_add] at hfile hroom
    simp only [word_int, StageRegisters.word_int, lanes, SlotCursor.next, Nat.mul_add]
    refine sync_file_changed_iff (fun a b => ?_) hfile hroom
    rw [beq_iff_eq]
    exact toUInt32_inj.symm
  | bool =>
    obtain ⟨hlength, hfile, hroom⟩ := boolean_window v r c u hfile hroom hk
    simp only [word_bool, StageRegisters.word_bool, lanes, SlotCursor.next, Nat.one_mul]
    rw [syncEach_changed_iff (by omega), hlength]
    refine exists_congr fun i => and_congr_right fun hi => not_congr ?_
    have ha : v.bools[c.bool + i]? = some _ := getElem?_eq_getElem (by omega)
    have hb : r.bools[u.index + i]? = some _ := getElem?_eq_getElem (by omega)
    rw [List.getElem?_map, getElem?_window hfile hi, ha, hb]
    exact some_inj.trans toUInt32_inj.symm

/-- A uniform that has changed holds its registers, and one that has not holds what it held. -/
theorem word_refreshUniform (hi : i < u.kind.lanes * u.width) :
    (v.refreshUniform r c u).1.word u.kind (u.kind.lanes * c.next u.kind + i) =
      if (v.refreshUniform r c u).2 = true then r.word u.kind (u.kind.lanes * u.index + i)
      else v.word u.kind (u.kind.lanes * c.next u.kind + i) := by
  unfold refreshUniform
  cases hk : u.kind with
  | float | int =>
    rw [hk] at hfile hroom hi
    simp only [words, StageRegisters.words, lanes, SlotCursor.next, length_map,
      Array.length_toList, Nat.mul_add] at hfile hroom hi
    simp only [word_float, word_int, StageRegisters.word_float, StageRegisters.word_int,
      lanes, SlotCursor.next, Nat.mul_add, getElem?_sync_file hfile hroom hi]
    split_ifs <;> rfl
  | bool =>
    obtain ⟨hlength, hfile', hroom'⟩ := boolean_window v r c u hfile hroom hk
    rw [hk] at hi
    simp only [lanes, Nat.one_mul] at hi
    split_ifs with hchanged
    · simp only [word_bool, StageRegisters.word_bool, lanes, SlotCursor.next,
        Nat.one_mul, syncEach, getElem?_overwrite]
      rw [if_pos (by omega), Nat.add_sub_cancel_left, List.getElem?_map, getElem?_window hfile' hi]
    · dsimp only at hchanged ⊢
      rw [syncEach_eq_of_unchanged (Bool.not_eq_true _ ▸ hchanged)]

/-- After its step, the slots of a uniform hold its registers. -/
theorem wordsAgree_refreshUniform (hi : i < u.kind.lanes * u.width) :
    WordsAgree u.kind ((v.refreshUniform r c u).1.word u.kind (u.kind.lanes * c.next u.kind + i))
      (r.word u.kind (u.kind.lanes * u.index + i)) := by
  rw [word_refreshUniform v r c u hfile hroom hi]
  split_ifs with hchanged
  · exact .refl _ _
  · rw [changed_refreshUniform_iff v r c u hfile hroom] at hchanged
    exact wordsAgree (not_not.mp fun hne => hchanged ⟨i, hi, hne⟩)

end

/-- A uniform that is not in the file is left as it is, unless it is one of several booleans. -/
theorem refreshUniform_of_not_inFile
    (hsize : (r.words u.kind).length = u.kind.lanes * registerCount u.kind) (hpast : ¬u.InFile)
    (hsingle : u.kind = .bool → u.width = 1) : (v.refreshUniform r c u).1 = v := by
  have hpast' : registerCount u.kind < u.index + u.width := Nat.not_le.mp hpast
  cases hk : u.kind with
  | float =>
    rw [hk] at hsize hpast'
    simp only [lanes, StageRegisters.words, length_map, Array.length_toList] at hsize
    have hend : ¬4 * (u.index + u.width) ≤ r.floats.size := by omega
    simp [refreshUniform, hk, cells?, hend, sync]
  | int =>
    rw [hk] at hsize hpast'
    simp only [lanes, StageRegisters.words, length_map, Array.length_toList] at hsize
    have hend : ¬4 * (u.index + u.width) ≤ r.ints.size := by omega
    simp [refreshUniform, hk, cells?, hend, sync]
  | bool =>
    rw [hk] at hsize hpast'
    rw [hsingle hk] at hpast'
    simp only [lanes, StageRegisters.words, length_map, Array.length_toList] at hsize
    have hnone : (r.bools.extract u.index (u.index + u.width)).toList = [] := by
      refine eq_nil_of_length_eq_zero ?_
      rw [Array.length_toList, size_extract]
      omega
    simp only [refreshUniform, hk, hnone, syncEach, map_nil, overwrite]

/-! ### Bump environments -/

variable (files : RegisterFiles) {start : Nat} {samplers : List Sampler} {v : StageUniforms}

theorem words_refreshBump_of_ne (h : kind ≠ .float) :
    (refreshBump files start samplers v).1.words kind = v.words kind := by
  induction samplers generalizing start v with
  | nil => rfl
  | cons s rest ih =>
    rw [refreshBump]
    split_ifs
    · exact (ih).trans (by cases kind <;> first | exact absurd rfl h | rfl)
    · exact ih

theorem size_refreshBump (start : Nat) (samplers : List Sampler) (v : StageUniforms) :
    (refreshBump files start samplers v).1.floats.size = v.floats.size := by
  induction samplers generalizing start v with
  | nil => rfl
  | cons s rest ih =>
    rw [refreshBump]
    split_ifs
    · exact (ih _ _).trans (size_sync _ _ _)
    · exact ih _ _

theorem refreshBump_eq_of_unchanged (h : (refreshBump files start samplers v).2 = false) :
    (refreshBump files start samplers v).1 = v := by
  induction samplers generalizing start v with
  | nil => rfl
  | cons s rest ih =>
    rw [refreshBump] at h ⊢
    split_ifs at h ⊢
    · obtain ⟨hfirst, hrest⟩ := Bool.or_eq_false_iff.mp h
      have hv := sync_eq_of_unchanged hfirst
      exact (ih hrest).trans (by rw [hv])
    · exact ih h

theorem word_refreshBump_of_lt (hi : i < start) :
    (refreshBump files start samplers v).1.word .float i = v.word .float i := by
  induction samplers generalizing start v with
  | nil => rfl
  | cons s rest ih =>
    rw [refreshBump]
    split_ifs
    · refine (ih (by omega)).trans ?_
      simp only [word, words, getD_eq_getElem?_getD, List.getElem?_map, getElem?_toList]
      rw [getElem?_sync_of_outside _ _
        (fun xs hxs => (congrArg length (some.inj hxs)).ge) (Or.inl hi)]
    · exact ih hi

def served (stages : List Nat) : List Nat :=
  stages.filter fun n => 1 ≤ n ∧ n ≤ bumpStageCount

theorem served_cons_of_pos (h : 1 ≤ n ∧ n ≤ bumpStageCount) (rest : List Nat) :
    served (n :: rest) = n :: served rest :=
  filter_cons_of_pos (by simpa using h)

theorem served_cons_of_neg (h : ¬(1 ≤ n ∧ n ≤ bumpStageCount)) (rest : List Nat) :
    served (n :: rest) = served rest :=
  filter_cons_of_neg (by simpa using h)

section Bump

variable {files : RegisterFiles}

theorem word_bumpSlots (n i : Nat) :
    ((files.bumpSlots n)[i]?.map bits).getD 0 =
      ((files.bumpSlots n).getD i .zero).bits := by
  rw [getD_eq_getElem?_getD]
  cases (files.bumpSlots n)[i]? <;> rfl

def BumpDiffers (v : StageUniforms) (files : RegisterFiles) (start n : Nat) : Prop :=
  ∃ i < 8, ¬SameNumber .float (v.word .float (start + i))
    ((files.bumpSlots n).getD i .zero).bits

instance (v : StageUniforms) (files : RegisterFiles) (start n : Nat) :
    Decidable (v.BumpDiffers files start n) :=
  inferInstanceAs (Decidable (∃ i < 8, ¬SameNumber .float _ _))

section First

variable {n : Nat} (hsize : files.bump.size = 6 * bumpStageCount)
  (hn : 1 ≤ n ∧ n ≤ bumpStageCount) (hroom : start + 8 ≤ v.floats.size)

include hsize hn hroom

theorem sync_bumpSlots_changed_iff :
    (sync numEq v.floats start (some (files.bumpSlots n))).2 = true ↔
      v.BumpDiffers files start n := by
  rw [sync_words_changed_iff of_binary32 (RegisterFiles.length_bumpSlots hsize hn) hroom]
  simp only [BumpDiffers, word_float, word_bumpSlots]

theorem word_sync_bumpSlots (hi : i < 8) :
    ({ v with floats := (sync numEq v.floats start (some (files.bumpSlots n))).1 } :
        StageUniforms).word .float (start + i) =
      if (sync numEq v.floats start (some (files.bumpSlots n))).2 = true
      then ((files.bumpSlots n).getD i .zero).bits else v.word .float (start + i) := by
  have hlength := RegisterFiles.length_bumpSlots hsize hn
  rw [word_float, getElem?_sync (by omega) (by omega), word_float, ← word_bumpSlots]
  split_ifs <;> rfl

end First

theorem word_sync_bumpSlots_of_ge (hsize : files.bump.size = 6 * bumpStageCount)
    (hn : 1 ≤ n ∧ n ≤ bumpStageCount) (hi : start + 8 ≤ i) :
    ({ v with floats := (sync numEq v.floats start (some (files.bumpSlots n))).1 } :
        StageUniforms).word .float i = v.word .float i := by
  have hlength : ∀ xs ∈ some (files.bumpSlots n), xs.length ≤ 8 := by
    intro xs hxs
    obtain rfl := some.inj hxs
    exact (RegisterFiles.length_bumpSlots hsize hn).le
  rw [word_float, word_float, getElem?_sync_of_outside _ _ hlength (Or.inr hi)]

theorem bumpDiffers_congr {v' : StageUniforms}
    (h : ∀ i < 8, v'.word .float (start + i) = v.word .float (start + i)) :
    v'.BumpDiffers files start n ↔ v.BumpDiffers files start n :=
  exists_congr fun i => and_congr_right fun hi => by rw [h i hi]

variable (hsize : files.bump.size = 6 * bumpStageCount)
  (hroom : start + 8 * (served (samplers.map (·.index))).length ≤ v.floats.size)

include hsize hroom

/-- Bringing up bump environments reports a change exactly if one of them differs. -/
theorem changed_refreshBump_iff :
    (refreshBump files start samplers v).2 = true ↔
      ∃ j n, (served (samplers.map (·.index)))[j]? = some n ∧
        v.BumpDiffers files (start + 8 * j) n := by
  induction samplers generalizing start v with
  | nil => simp [refreshBump, served]
  | cons s rest ih =>
    rw [refreshBump]
    split_ifs with hs
    · have hplace (j : Nat) : start + 8 + 8 * j = start + 8 * (j + 1) := by omega
      rw [map_cons, served_cons_of_pos hs] at hroom ⊢
      rw [length_cons] at hroom
      rw [Bool.or_eq_true, ih (by rw [size_sync]; omega)]
      -- The first environment leaves those behind it as they were, so they differ as before.
      refine (or_congr (sync_bumpSlots_changed_iff hsize hs (by omega)) (exists_congr fun j =>
        exists_congr fun n => and_congr_right fun _ => bumpDiffers_congr fun i _ =>
          word_sync_bumpSlots_of_ge hsize hs (by omega))).trans ⟨?_, ?_⟩
      · rintro (hfirst | ⟨j, n, hj, hlater⟩)
        · exact ⟨0, s.index, rfl, hfirst⟩
        · exact ⟨j + 1, n, hj, hplace j ▸ hlater⟩
      · rintro ⟨j, n, hj, hdiffers⟩
        cases j with
        | zero =>
          obtain rfl : s.index = n := some.inj hj
          exact .inl hdiffers
        | succ j => exact .inr ⟨j, n, hj, hplace j ▸ hdiffers⟩
    · rw [map_cons, served_cons_of_neg hs] at hroom ⊢
      exact ih hroom

/-- A bump environment that differed is copied, and one that did not is left as it is. -/
theorem word_refreshBump {j : Nat} (hj : (served (samplers.map (·.index)))[j]? = some n)
    (hi : i < 8) :
    (refreshBump files start samplers v).1.word .float (start + 8 * j + i) =
      if v.BumpDiffers files (start + 8 * j) n then ((files.bumpSlots n).getD i .zero).bits
      else v.word .float (start + 8 * j + i) := by
  induction samplers generalizing start v j with
  | nil => cases hj
  | cons s rest ih =>
    rw [refreshBump]
    by_cases hs : 1 ≤ s.index ∧ s.index ≤ bumpStageCount
    · rw [if_pos hs]
      rw [map_cons, served_cons_of_pos hs] at hj hroom
      rw [length_cons] at hroom
      cases j with
      | zero =>
        obtain rfl : s.index = n := some.inj hj
        rw [word_refreshBump_of_lt files (by omega), Nat.mul_zero, Nat.add_zero]
        refine (word_sync_bumpSlots hsize hs (by omega) hi).trans ?_
        exact if_congr (sync_bumpSlots_changed_iff hsize hs (by omega)) rfl rfl
      | succ j =>
        have hplace : start + 8 * (j + 1) = start + 8 + 8 * j := by omega
        rw [hplace]
        refine (ih (by rw [size_sync]; omega) hj).trans (if_congr ?_ rfl ?_)
        · exact bumpDiffers_congr fun i _ => word_sync_bumpSlots_of_ge hsize hs (by omega)
        · exact word_sync_bumpSlots_of_ge hsize hs (by omega)
    · rw [if_neg hs]
      rw [map_cons, served_cons_of_neg hs] at hj hroom
      exact ih hroom hj

/-- The bump environments of the stages that have one stand one after the other. -/
theorem wordsAgree_refreshBump {j : Nat} (hj : (served (samplers.map (·.index)))[j]? = some n)
    (hi : i < 8) :
    WordsAgree .float ((refreshBump files start samplers v).1.word .float (start + 8 * j + i))
      ((files.bumpSlots n).getD i .zero).bits := by
  rw [word_refreshBump hsize hroom hj hi]
  split_ifs with hdiffers
  · exact .refl _ _
  · exact wordsAgree (not_not.mp fun hne => hdiffers ⟨i, hi, hne⟩)

end Bump

theorem word_refreshBump_of_ge (hsize : files.bump.size = 6 * bumpStageCount)
    (hi : start + 8 * (served (samplers.map (·.index))).length ≤ i) :
    (refreshBump files start samplers v).1.word .float i = v.word .float i := by
  induction samplers generalizing start v with
  | nil => rfl
  | cons s rest ih =>
    rw [refreshBump]
    split_ifs with hs
    · rw [map_cons, served_cons_of_pos hs, length_cons] at hi
      exact (ih (by omega)).trans (word_sync_bumpSlots_of_ge hsize hs (by omega))
    · rw [map_cons, served_cons_of_neg hs] at hi
      exact ih hi

end StageUniforms

/-! ### All uniforms of a program -/

def slotsBefore (stage : Stage) (kind : ValueKind) : Nat :=
  ((us.filter fun e => e.1 = stage ∧ e.2.kind = kind).map (·.2.width)).sum

@[simp] theorem slotsBefore_nil (stage : Stage) (kind : ValueKind) :
    slotsBefore [] stage kind = 0 := rfl

@[simp] theorem slotsBefore_append (us us' : List (Stage × Uniform)) (stage : Stage)
    (kind : ValueKind) :
    slotsBefore (us ++ us') stage kind =
      slotsBefore us stage kind + slotsBefore us' stage kind := by
  simp [slotsBefore]

theorem slotsBefore_cons (e : Stage × Uniform) (us : List (Stage × Uniform)) (stage : Stage)
    (kind : ValueKind) :
    slotsBefore (e :: us) stage kind =
      (if e.1 = stage ∧ e.2.kind = kind then e.2.width else 0) + slotsBefore us stage kind := by
  by_cases h : e.1 = stage ∧ e.2.kind = kind
  · simp [slotsBefore, h]
  · rw [if_neg h, Nat.zero_add, slotsBefore, filter_cons_of_neg (by simpa using h)]
    rfl

def RegisterFiles.Sized : Prop :=
  ∀ stage kind, ((files.stage stage).words kind).length = kind.lanes * registerCount kind

def Synced : Prop :=
  ∀ before stage u after, us = before ++ (stage, u) :: after → u.InFile →
    ∀ i, i < u.kind.lanes * u.width →
      WordsAgree u.kind
        ((values.get stage).word u.kind (u.kind.lanes * slotsBefore before stage u.kind + i))
        ((files.stage stage).word u.kind (u.kind.lanes * u.index + i))

def Skipped (start values : PerStage StageUniforms) : Prop :=
  ∀ before stage u after, us = before ++ (stage, u) :: after → u.kind = .float → ¬u.InFile →
    ∀ i, i < 4 * u.width →
      (values.get stage).word .float (4 * slotsBefore before stage .float + i) =
        (start.get stage).word .float (4 * slotsBefore before stage .float + i)

theorem Skipped.refl : Skipped us values values :=
  fun _ _ _ _ _ _ _ _ _ => rfl

theorem Skipped.trans {us : List (Stage × Uniform)} {a b c : PerStage StageUniforms}
    (h : Skipped us a b) (h' : Skipped us b c) : Skipped us a c :=
  fun before stage u after hsplit hkind hpast i hi =>
    (h' before stage u after hsplit hkind hpast i hi).trans
      (h before stage u after hsplit hkind hpast i hi)

namespace Refresh

variable {files : RegisterFiles} {start : PerStage StageUniforms}

/-- What is known after a walk over some uniforms, begun with the arrays `start`. -/
structure Walked (start : PerStage StageUniforms) (us : List (Stage × Uniform)) (s : Refresh) :
    Prop where
  cursor : ∀ stage kind, (s.cursors.get stage).next kind = slotsBefore us stage kind
  length : ∀ stage kind,
    ((s.values.get stage).words kind).length = ((start.get stage).words kind).length
  unchanged : s.changed = false → s.values = start
  ahead : ∀ stage kind i, kind.lanes * slotsBefore us stage kind ≤ i →
    (s.values.get stage).word kind i = (start.get stage).word kind i

def Fits (us : List (Stage × Uniform)) (values : PerStage StageUniforms) : Prop :=
  ∀ stage kind, kind.lanes * slotsBefore us stage kind ≤ ((values.get stage).words kind).length

theorem word_step (s : Refresh) (e : Stage × Uniform)
    (h : e.1 = stage → e.2.kind = kind → i < kind.lanes * (s.cursors.get stage).next kind ∨
      kind.lanes * ((s.cursors.get stage).next kind + e.2.width) ≤ i) :
    (((s.step files e).values.get stage).word kind i) = (s.values.get stage).word kind i := by
  obtain ⟨stage', u⟩ := e
  by_cases hs : stage' = stage
  · subst hs
    simp only [step, get_set]
    by_cases hk : u.kind = kind
    · subst hk
      exact word_refreshUniform_of_outside _ _ _ _ (h rfl rfl)
    · rw [word, words_refreshUniform_of_ne _ _ _ _ (Ne.symm hk)]
      rfl
  · simp [step, get_set_of_ne _ _ (Ne.symm hs)]

section Walk

variable {us : List (Stage × Uniform)} {s : Refresh} (h : Walked start us s) (e : Stage × Uniform)

include h

theorem Walked.length_step (stage : Stage) (kind : ValueKind) :
    (((s.step files e).values.get stage).words kind).length =
      ((start.get stage).words kind).length := by
  obtain ⟨stage', u⟩ := e
  by_cases hs : stage' = stage
  · subst hs
    simp only [step, get_set, length_words_refreshUniform]
    exact h.length stage' kind
  · simp only [step, get_set_of_ne _ _ (Ne.symm hs)]
    exact h.length stage kind

theorem Walked.cursor_step (stage : Stage) (kind : ValueKind) :
    ((s.step files e).cursors.get stage).next kind = slotsBefore (us ++ [e]) stage kind := by
  obtain ⟨stage', u⟩ := e
  rw [slotsBefore_append, slotsBefore_cons, slotsBefore_nil, Nat.add_zero]
  by_cases hs : stage' = stage
  · subst hs
    simp [step, get_set, SlotCursor.next_advance, h.cursor]
  · simp [step, get_set_of_ne _ _ (Ne.symm hs), h.cursor, hs]

theorem Walked.step (e : Stage × Uniform) : Walked start (us ++ [e]) (s.step files e) where
  cursor := h.cursor_step e
  length := h.length_step e
  unchanged hchanged := by
    obtain ⟨hold, hnew⟩ := Bool.or_eq_false_iff.mp hchanged
    have hv := refreshUniform_eq_of_unchanged _ _ _ _ hnew
    simp only [Refresh.step, hv, set_get]
    exact h.unchanged hold
  ahead stage kind i hi := by
    rw [slotsBefore_append, slotsBefore_cons, slotsBefore_nil, Nat.add_zero, Nat.mul_add] at hi
    rw [word_step s e fun hstage hkind => Or.inr ?_]
    · exact h.ahead stage kind i (by omega)
    · rw [if_pos ⟨hstage, hkind⟩] at hi
      rw [h.cursor, Nat.mul_add]
      exact hi

/-- A walk that goes on leaves the slots behind it as they are. -/
theorem Walked.word_foldl (rest : List (Stage × Uniform))
    (hi : i < kind.lanes * slotsBefore us stage kind) :
    ((rest.foldl (Refresh.step files) s).values.get stage).word kind i =
      (s.values.get stage).word kind i := by
  induction rest generalizing us s with
  | nil => rfl
  | cons e rest ih =>
    rw [foldl_cons, ih (h.step e) (hi.trans_le (Nat.mul_le_mul_left _ (by simp)))]
    exact word_step s e fun _ _ => Or.inl (by rwa [h.cursor])

end Walk

def walk (files : RegisterFiles) (start : PerStage StageUniforms) (us : List (Stage × Uniform)) :
    Refresh :=
  us.foldl (step files) ⟨start, .both .start, false⟩

theorem walk_concat (us : List (Stage × Uniform)) (e : Stage × Uniform) :
    walk files start (us ++ [e]) = (walk files start us).step files e :=
  foldl_concat ..

theorem walked (files : RegisterFiles) (start : PerStage StageUniforms)
    (us : List (Stage × Uniform)) : Walked start us (walk files start us) := by
  induction us using reverseRecOn with
  | nil =>
    refine ⟨fun stage kind => ?_, fun _ _ => rfl, fun _ => rfl, fun _ _ _ _ => rfl⟩
    cases stage <;> exact SlotCursor.next_start kind
  | append_singleton us e ih =>
    rw [walk_concat]
    exact ih.step e

section Window

variable {us : List (Stage × Uniform)} (hsplit : us = before ++ (stage, u) :: after)

include hsplit

/-- What the slots of a uniform hold after the walk is what its own step has left there. -/
theorem word_walk (hi : i < u.kind.lanes * u.width) :
    ((walk files start us).values.get stage).word u.kind
        (u.kind.lanes * slotsBefore before stage u.kind + i) =
      (((walk files start before).values.get stage).refreshUniform (files.stage stage)
        ((walk files start before).cursors.get stage) u).1.word u.kind
          (u.kind.lanes * slotsBefore before stage u.kind + i) := by
  rw [hsplit, append_cons, walk, List.foldl_append]
  refine ((walked files start (before ++ [(stage, u)])).word_foldl after ?_).trans ?_
  · rw [slotsBefore_append, slotsBefore_cons, if_pos ⟨rfl, rfl⟩, Nat.mul_add, Nat.mul_add]
    dsimp only
    omega
  · rw [walk_concat, step, get_set]

variable (hfiles : files.Sized) (hroom : Fits us start) (hfile : u.InFile)

include hfiles hroom hfile

/-- The walk comes to a uniform with its registers in the file, room for it, and its slots as they
were. -/
theorem walk_window :
    u.kind.lanes * (u.index + u.width) ≤ ((files.stage stage).words u.kind).length ∧
      u.kind.lanes * (((walk files start before).cursors.get stage).next u.kind + u.width) ≤
        (((walk files start before).values.get stage).words u.kind).length ∧
      ∀ i, ((walk files start before).values.get stage).word u.kind
          (u.kind.lanes * ((walk files start before).cursors.get stage).next u.kind + i) =
        (start.get stage).word u.kind (u.kind.lanes * slotsBefore before stage u.kind + i) := by
  have hbefore := walked files start before
  have hspace := hroom stage u.kind
  rw [hsplit, slotsBefore_append, slotsBefore_cons, if_pos ⟨rfl, rfl⟩, ← hbefore.length] at hspace
  refine ⟨(Nat.mul_le_mul_left _ hfile).trans (hfiles stage u.kind).ge, ?_, fun i => ?_⟩
  · rw [hbefore.cursor]
    exact (Nat.mul_le_mul_left _ (by dsimp only; omega)).trans hspace
  · rw [hbefore.cursor]
    exact hbefore.ahead stage u.kind _ (Nat.le_add_right _ _)

theorem wordsAgree_walk (hi : i < u.kind.lanes * u.width) :
    WordsAgree u.kind
      (((walk files start us).values.get stage).word u.kind
        (u.kind.lanes * slotsBefore before stage u.kind + i))
      ((files.stage stage).word u.kind (u.kind.lanes * u.index + i)) := by
  obtain ⟨hreach, hspace, -⟩ := walk_window hsplit hfiles hroom hfile
  rw [word_walk hsplit hi, ← (walked files start before).cursor]
  exact wordsAgree_refreshUniform _ _ _ _ hreach hspace hi

end Window

end Refresh

namespace LinkedProgram

/-- The arrays have the slots of all uniforms, and those of bump environments come after them. -/
structure HasRoom (p : LinkedProgram) (values : PerStage StageUniforms) : Prop where
  fits : Refresh.Fits p.uniforms values
  bump : slotsBefore p.uniforms .pixel .float ≤ (values.get .pixel).bumpBase p.bumpCount

variable {p : LinkedProgram} {files : RegisterFiles} {values : PerStage StageUniforms}

/-- The walk over the uniforms of a program, before the bump environments. -/
def walk (p : LinkedProgram) (files : RegisterFiles) (values : PerStage StageUniforms) : Refresh :=
  p.uniforms.foldl (Refresh.step files) ⟨values, .both .start, false⟩

private theorem exists_refresh_eq (p : LinkedProgram) (files : RegisterFiles)
    (values : PerStage StageUniforms) :
    ∃ samplers, p.refresh files values =
      ((p.walk files values).values.set .pixel
          (((p.walk files values).values.get .pixel).refreshBump files
            (4 * ((p.walk files values).values.get .pixel).bumpBase p.bumpCount) samplers).1,
        (p.walk files values).changed ||
          (((p.walk files values).values.get .pixel).refreshBump files
            (4 * ((p.walk files values).values.get .pixel).bumpBase p.bumpCount) samplers).2) := by
  unfold refresh
  cases p.pixel with
  | none => exact ⟨[], by simp [refreshBump, walk]⟩
  | some pixel =>
    by_cases h : 0 < p.bumpCount
    · exact ⟨pixel.code.samplers.filter (·.bump), if_pos h⟩
    · exact ⟨[], by simp [refreshBump, walk, h]⟩

theorem walked (p : LinkedProgram) (files : RegisterFiles) (values : PerStage StageUniforms) :
    Refresh.Walked values p.uniforms (p.walk files values) :=
  Refresh.walked files values p.uniforms

theorem size_floats_walk (stage : Stage) :
    ((p.walk files values).values.get stage).floats.size = (values.get stage).floats.size := by
  simpa [words] using (p.walked files values).length stage .float

theorem word_walk_of_le (hi : kind.lanes * slotsBefore p.uniforms stage kind ≤ i) :
    ((p.walk files values).values.get stage).word kind i = (values.get stage).word kind i :=
  (p.walked files values).ahead stage kind i hi

/-- After the walk, a program with bump environments brings them up behind the uniforms. -/
theorem get_pixel_refresh {c : CompiledShader} (hc : p.pixel = some c)
    (hbump : 0 < p.bumpCount) :
    (p.refresh files values).1.get .pixel =
      (((p.walk files values).values.get .pixel).refreshBump files
        (4 * (values.get .pixel).bumpBase p.bumpCount) (c.code.samplers.filter (·.bump))).1 := by
  have hbase : ((p.walk files values).values.get .pixel).bumpBase p.bumpCount =
      (values.get .pixel).bumpBase p.bumpCount := by
    rw [bumpBase, size_floats_walk, bumpBase]
  rw [← hbase]
  simp only [refresh, hc, if_pos hbump]
  rfl

theorem length_words_refresh (p : LinkedProgram) (files : RegisterFiles)
    (values : PerStage StageUniforms) (stage : Stage) (kind : ValueKind) :
    (((p.refresh files values).1.get stage).words kind).length =
      ((values.get stage).words kind).length := by
  have hwalk := p.walked files values
  obtain ⟨samplers, h⟩ := exists_refresh_eq p files values
  rw [h]
  cases stage with
  | vertex => exact hwalk.length .vertex kind
  | pixel =>
    rw [get_set, ← hwalk.length .pixel kind]
    by_cases hk : kind = .float
    · subst hk
      simp [words, size_refreshBump]
    · rw [words_refreshBump_of_ne files hk]

/-- A refresh that reports no change makes none. -/
theorem refresh_eq_of_unchanged (h : (p.refresh files values).2 = false) :
    (p.refresh files values).1 = values := by
  obtain ⟨samplers, hr⟩ := exists_refresh_eq p files values
  rw [hr] at h ⊢
  obtain ⟨hold, hbump⟩ := Bool.or_eq_false_iff.mp h
  rw [refreshBump_eq_of_unchanged files hbump, set_get]
  exact (p.walked files values).unchanged hold

variable (hfiles : files.Sized) (hroom : p.HasRoom values)

include hroom

theorem word_refresh (hsplit : p.uniforms = before ++ (stage, u) :: after)
    (hi : i < u.kind.lanes * u.width) :
    ((p.refresh files values).1.get stage).word u.kind
        (u.kind.lanes * slotsBefore before stage u.kind + i) =
      ((p.walk files values).values.get stage).word u.kind
        (u.kind.lanes * slotsBefore before stage u.kind + i) := by
  obtain ⟨samplers, h⟩ := exists_refresh_eq p files values
  rw [h]
  cases stage with
  | vertex => rfl
  | pixel =>
    rw [get_set]
    by_cases hk : u.kind = .float
    · rw [hk] at hi ⊢
      refine word_refreshBump_of_lt files ?_
      have hbump := hroom.bump
      have hbefore : slotsBefore before .pixel .float + u.width ≤
          slotsBefore p.uniforms .pixel .float := by
        rw [hsplit, slotsBefore_append, slotsBefore_cons, if_pos ⟨rfl, hk⟩]
        dsimp only
        omega
      simp only [bumpBase, size_floats_walk] at hbump ⊢
      simp only [lanes] at hi ⊢
      omega
    · rw [word, words_refreshBump_of_ne files hk]
      rfl

include hfiles

/-- After a refresh, every uniform of a program holds its registers. -/
theorem synced_refresh : Synced p.uniforms files (p.refresh files values).1 := by
  intro before stage u after hsplit hfile i hi
  rw [word_refresh hroom hsplit hi]
  exact wordsAgree_walk hsplit hfiles hroom.fits hfile hi

theorem word_refresh_of_not_inFile (hsplit : p.uniforms = before ++ (stage, u) :: after)
    (hpast : ¬u.InFile) (hsingle : u.kind = .bool → u.width = 1) (hi : i < u.kind.lanes * u.width) :
    ((p.refresh files values).1.get stage).word u.kind
        (u.kind.lanes * slotsBefore before stage u.kind + i) =
      (values.get stage).word u.kind (u.kind.lanes * slotsBefore before stage u.kind + i) := by
  rw [word_refresh hroom hsplit hi]
  refine (word_walk hsplit hi).trans ?_
  rw [refreshUniform_of_not_inFile _ _ _ _ (hfiles stage u.kind) hpast hsingle]
  exact (Refresh.walked files values before).ahead stage u.kind _ (Nat.le_add_right _ _)

theorem skipped_refresh : Skipped p.uniforms values (p.refresh files values).1 := by
  intro before stage u after hsplit hkind hpast i hi
  have hword := word_refresh_of_not_inFile hfiles hroom hsplit hpast (i := i) (by simp [hkind])
    (by rw [hkind]; exact hi)
  rwa [hkind] at hword

end LinkedProgram

end Device

end ShaderPipeline
