import Mathlib.Data.List.Basic
import Mathlib.Tactic
import ShaderPipeline.Device.Program

/-!
# Cells of registers and of uniform arrays

Register files and the uniform arrays of programs are arrays of cells. `overwrite` and `sync`
change a window of an array and leave the rest alone. Seen as words, the arrays of the three kinds
of values behave alike: `StageRegisters.word` and `StageUniforms.word` give the word of a kind at
a place, zero beyond the end.
-/

namespace ShaderPipeline

open List Array Binary32

variable {start i : Nat}

variable {α : Type}

/-! ### Values for each stage -/

namespace PerStage

variable (p : PerStage α)

@[simp] theorem get_set (stage : Stage) (a : α) : (p.set stage a).get stage = a := by
  cases stage <;> rfl

theorem get_set_of_ne {stage stage' : Stage} (a : α) (h : stage' ≠ stage) :
    (p.set stage a).get stage' = p.get stage' := by
  cases stage <;> cases stage' <;> first | rfl | exact absurd rfl h

@[simp] theorem set_get (stage : Stage) : p.set stage (p.get stage) = p := by
  cases stage <;> rfl

end PerStage

/-! ### Overwriting a window -/

@[simp] theorem size_overwrite (a : Array α) (start : Nat) (xs : List α) :
    (overwrite a start xs).size = a.size := by
  induction xs generalizing a start with
  | nil => rfl
  | cons x xs ih => rw [overwrite, ih, size_setIfInBounds]

/-- Within its window, as far as the array goes, `overwrite` leaves the values. -/
theorem getElem?_overwrite (a : Array α) (start : Nat) (xs : List α) (i : Nat) :
    (overwrite a start xs)[i]? =
      if start ≤ i ∧ i < start + xs.length ∧ i < a.size then xs[i - start]? else a[i]? := by
  induction xs generalizing a start with
  | nil =>
    rw [overwrite, if_neg (by simp only [length_nil]; omega)]
  | cons x xs ih =>
    rw [overwrite, ih, size_setIfInBounds, getElem?_setIfInBounds]
    by_cases hi : start = i
    · subst hi
      by_cases hs : start < a.size
      · simp [hs]
      · simp [hs]
    · by_cases hw : start + 1 ≤ i ∧ i < start + 1 + xs.length ∧ i < a.size
      · have hsucc : i - start = (i - (start + 1)) + 1 := by omega
        rw [if_pos hw, if_pos (by simp only [length_cons]; omega), hsucc, getElem?_cons_succ]
      · rw [if_neg hw, if_neg hi, if_neg (by simp only [length_cons]; omega)]

theorem overwrite_eq_self {a : Array α} {xs : List α}
    (h : ∀ i, i < xs.length → start + i < a.size → a[start + i]? = xs[i]?) :
    overwrite a start xs = a := by
  apply Array.ext_getElem?
  intro i
  rw [getElem?_overwrite]
  split_ifs with hi
  · obtain ⟨h₁, h₂, h₃⟩ := hi
    have hi' : start + (i - start) = i := by omega
    have h' := h (i - start) (by omega) (by omega)
    rw [← h', hi']
  · rfl

namespace Device

/-! ### Reading and synchronizing a window -/

variable {stop : Nat}

theorem cells?_eq_some (file : Array α) (start : Nat) (h : stop ≤ file.size) :
    cells? file start stop = some (file.extract start stop).toList := if_pos h

theorem length_of_cells? {file : Array α} {xs : List α} (h : cells? file start stop = some xs) :
    xs.length = stop - start := by
  unfold cells? at h
  split_ifs at h with hs
  rw [← Option.some.inj h]
  simp only [length_toList, size_extract]
  omega

theorem getElem?_of_cells? {file : Array α} {xs : List α} (h : cells? file start stop = some xs)
    (hi : i < stop - start) : xs[i]? = file[start + i]? := by
  unfold cells? at h
  split_ifs at h with hs
  rw [← Option.some.inj h, getElem?_toList, getElem?_extract, if_pos (by omega)]

section Sync

variable {same : α → α → Bool} {src : Option (List α)}

@[simp] theorem size_sync (shadow : Array α) (start : Nat) (src : Option (List α)) :
    (sync same shadow start src).1.size = shadow.size := by
  unfold sync
  split
  · rfl
  · split
    · rfl
    · split_ifs
      · rfl
      · exact size_overwrite _ _ _

/-- A synchronization that reports no change makes none. -/
theorem sync_eq_of_unchanged {shadow : Array α} (h : (sync same shadow start src).2 = false) :
    (sync same shadow start src).1 = shadow := by
  unfold sync at h ⊢
  split at h
  · rfl
  · split at h
    · rfl
    · split_ifs at h ⊢
      rfl

theorem getElem?_sync_of_outside (shadow : Array α) (start : Nat) {n : Nat}
    (hn : ∀ xs ∈ src, xs.length ≤ n) (hi : i < start ∨ start + n ≤ i) :
    (sync same shadow start src).1[i]? = shadow[i]? := by
  unfold sync
  split
  · rfl
  · rename_i values
    have hlen : values.length ≤ n := hn values rfl
    split
    · rfl
    · split_ifs
      · rfl
      · rw [getElem?_overwrite, if_neg (by omega)]

end Sync

end Device

/-! ### Words -/

def ValueKind.lanes : ValueKind → Nat
  | .float => 4
  | .int => 4
  | .bool => 1

def WordsAgree : ValueKind → UInt32 → UInt32 → Prop
  | .float, a, b => a = b ∨ (a.toNat % 2 ^ 31 = 0 ∧ b.toNat % 2 ^ 31 = 0)
  | _, a, b => a = b

variable (kind : ValueKind)

@[refl] theorem WordsAgree.refl (a : UInt32) : WordsAgree kind a a := by
  cases kind
  · exact Or.inl rfl
  · rfl
  · rfl

@[symm] theorem WordsAgree.symm {kind : ValueKind} {a b : UInt32} (h : WordsAgree kind a b) :
    WordsAgree kind b a := by
  cases kind
  · exact h.imp Eq.symm And.symm
  · exact Eq.symm h
  · exact Eq.symm h

@[trans] theorem WordsAgree.trans {kind : ValueKind} {a b c : UInt32} (hab : WordsAgree kind a b)
    (hbc : WordsAgree kind b c) : WordsAgree kind a c := by
  cases kind
  · rcases hab with rfl | ⟨ha, hb⟩
    · exact hbc
    · rcases hbc with rfl | ⟨-, hc⟩
      · exact Or.inr ⟨ha, hb⟩
      · exact Or.inr ⟨ha, hc⟩
  · exact Eq.trans hab hbc
  · exact Eq.trans hab hbc

theorem not_wordsAgree_one_zero : ¬WordsAgree .float 1 0 := by simp [WordsAgree]

/-! ### Words as numbers -/

def SameNumber : ValueKind → UInt32 → UInt32 → Prop
  | .float, a, b => numEq ⟨a⟩ ⟨b⟩ = true
  | _, a, b => a = b

instance (a b : UInt32) : Decidable (SameNumber kind a b) :=
  match kind with
  | .float => inferInstanceAs (Decidable (_ = true))
  | .int | .bool => inferInstanceAs (Decidable (a = b))

/-- A word of a kind is no number. -/
def NotANumber : ValueKind → UInt32 → Prop
  | .float, a => isNaN ⟨a⟩ = true
  | _, _ => False

instance (a : UInt32) : Decidable (NotANumber kind a) :=
  match kind with
  | .float => inferInstanceAs (Decidable (_ = true))
  | .int | .bool => inferInstanceAs (Decidable False)

namespace SameNumber

variable {kind : ValueKind} {a b c : UInt32}

theorem float_iff : SameNumber .float a b ↔
    ¬NotANumber .float a ∧ ¬NotANumber .float b ∧ WordsAgree .float a b := by
  simp [SameNumber, NotANumber, WordsAgree, numEq, isZero, and_assoc]

theorem symm (h : SameNumber kind a b) : SameNumber kind b a := by
  cases kind with
  | float =>
    obtain ⟨ha, hb, hab⟩ := float_iff.mp h
    exact float_iff.mpr ⟨hb, ha, hab.symm⟩
  | int | bool => exact Eq.symm h

theorem trans (hab : SameNumber kind a b) (hbc : SameNumber kind b c) : SameNumber kind a c := by
  cases kind with
  | float =>
    obtain ⟨ha, -, hagree⟩ := float_iff.mp hab
    obtain ⟨-, hc, hagree'⟩ := float_iff.mp hbc
    exact float_iff.mpr ⟨ha, hc, hagree.trans hagree'⟩
  | int | bool => exact Eq.trans hab hbc

theorem of_binary32 (a b : Binary32) : a.numEq b = true ↔ SameNumber .float a.bits b.bits :=
  Iff.rfl

theorem wordsAgree (h : SameNumber kind a b) : WordsAgree kind a b := by
  cases kind with
  | float => exact (float_iff.mp h).2.2
  | int | bool => exact h

/-- A word is the same as itself unless it is no number. -/
theorem self_iff : SameNumber kind a a ↔ ¬NotANumber kind a := by
  cases kind with
  | float =>
    rw [float_iff]
    exact ⟨And.left, fun h => ⟨h, h, .refl _ _⟩⟩
  | int | bool => exact iff_of_true rfl not_false

end SameNumber

namespace Device

def StageRegisters.words (r : StageRegisters) : ValueKind → List UInt32
  | .float => r.floats.toList.map (·.bits)
  | .int => r.ints.toList.map (·.toUInt32)
  | .bool => r.bools.toList.map (·.toUInt32)

def StageRegisters.word (r : StageRegisters) (kind : ValueKind) (i : Nat) : UInt32 :=
  (r.words kind).getD i 0

def StageUniforms.words (v : StageUniforms) : ValueKind → List UInt32
  | .float => v.floats.toList.map (·.bits)
  | .int => v.ints.toList.map (·.toUInt32)
  | .bool => v.bools.toList.map (·.toUInt32)

def StageUniforms.word (v : StageUniforms) (kind : ValueKind) (i : Nat) : UInt32 :=
  (v.words kind).getD i 0

def SlotCursor.next (c : SlotCursor) : ValueKind → Nat
  | .float => c.float
  | .int => c.int
  | .bool => c.bool

@[simp] theorem SlotCursor.next_start (kind : ValueKind) : SlotCursor.start.next kind = 0 := by
  cases kind <;> rfl

theorem SlotCursor.next_advance (c : SlotCursor) (kind kind' : ValueKind) (n : Nat) :
    (c.advance kind n).next kind' = c.next kind' + if kind = kind' then n else 0 := by
  cases kind <;> cases kind' <;> rfl

/-! ### One window of words -/

section Sync

variable {α : Type} {same : α → α → Bool} {shadow : Array α} {start : Nat} {values : List α}

/-- A synchronization reports a change exactly if one of the cells is not the same. -/
theorem sync_changed_iff (hroom : start + values.length ≤ shadow.size) :
    (sync same shadow start (some values)).2 = true ↔
      ∃ i a b, shadow[start + i]? = some a ∧ values[i]? = some b ∧ ¬same a b = true := by
  have hold : cells? shadow start (start + values.length) =
      some (shadow.extract start (start + values.length)).toList :=
    cells?_eq_some shadow start hroom
  have hcell : ∀ i < values.length,
      (shadow.extract start (start + values.length)).toList[i]? = shadow[start + i]? :=
    fun i hi => getElem?_of_cells? hold (by omega)
  simp only [sync, hold]
  split_ifs with hall
  · refine iff_of_false (by simp) ?_
    rintro ⟨i, a, b, ha, hb, hne⟩
    have hi : i < values.length := (List.getElem?_eq_some_iff.mp hb).1
    refine hne (all_eq_true.mp hall (a, b) (mem_iff_getElem?.mpr ⟨i, ?_⟩))
    exact getElem?_zip_eq_some.mpr ⟨(hcell i hi).trans ha, hb⟩
  · refine iff_of_true rfl ?_
    obtain ⟨⟨a, b⟩, hab, hne⟩ : ∃ x ∈ (shadow.extract start (start + values.length)).toList.zip
        values, ¬same x.1 x.2 = true := by
      simpa [List.all_eq_true] using hall
    obtain ⟨i, hi⟩ := mem_iff_getElem?.mp hab
    obtain ⟨ha, hb⟩ := getElem?_zip_eq_some.mp hi
    exact ⟨i, a, b, (hcell i (List.getElem?_eq_some_iff.mp hb).1).symm.trans ha, hb, hne⟩

/-- A synchronization that reports a change leaves the values, and one that does not leaves what
was there. -/
theorem getElem?_sync (hroom : start + values.length ≤ shadow.size) (hi : i < values.length) :
    (sync same shadow start (some values)).1[start + i]? =
      if (sync same shadow start (some values)).2 = true then values[i]?
      else shadow[start + i]? := by
  have hcases : sync same shadow start (some values) = (shadow, false) ∨
      sync same shadow start (some values) = (overwrite shadow start values, true) := by
    simp only [sync, cells?_eq_some shadow start hroom]
    split_ifs
    · exact .inl rfl
    · exact .inr rfl
  rcases hcases with hsync | hsync
  · rw [hsync]
    rfl
  · rw [hsync, getElem?_overwrite, if_pos (by omega), Nat.add_sub_cancel_left]
    rfl

theorem getElem?_window {file : Array α} {base n : Nat} (hfile : base + n ≤ file.size)
    (hi : i < n) : (file.extract base (base + n)).toList[i]? = file[base + i]? :=
  getElem?_of_cells? (cells?_eq_some file base hfile) (by omega)

theorem length_window {file : Array α} {base n : Nat} (hfile : base + n ≤ file.size) :
    (file.extract base (base + n)).toList.length = n := by
  rw [length_of_cells? (cells?_eq_some file base hfile), Nat.add_sub_cancel_left]

variable {file : Array α} {base n : Nat} {kind : ValueKind} {code : α → UInt32}

/-- A synchronization reports a change exactly if a word of the window differs, as a number, from
the one it is compared with. -/
theorem sync_words_changed_iff (hsame : ∀ a b, same a b = true ↔ SameNumber kind (code a) (code b))
    (hlength : values.length = n) (hroom : start + n ≤ shadow.size) :
    (sync same shadow start (some values)).2 = true ↔
      ∃ i < n, ¬SameNumber kind ((shadow[start + i]?.map code).getD 0)
        ((values[i]?.map code).getD 0) := by
  rw [sync_changed_iff (by omega)]
  constructor
  · rintro ⟨i, a, b, ha, hb, hne⟩
    refine ⟨i, hlength ▸ (List.getElem?_eq_some_iff.mp hb).1, ?_⟩
    rw [ha, hb]
    exact fun hnumber => hne ((hsame a b).mpr hnumber)
  · rintro ⟨i, hi, hne⟩
    have ha : shadow[start + i]? = some _ := getElem?_eq_getElem (by omega)
    have hb : values[i]? = some _ := getElem?_eq_getElem (by omega)
    rw [ha, hb] at hne
    exact ⟨i, _, _, ha, hb, fun hequal => hne ((hsame _ _).mp hequal)⟩

theorem sync_file_changed_iff (hsame : ∀ a b, same a b = true ↔ SameNumber kind (code a) (code b))
    (hfile : base + n ≤ file.size) (hroom : start + n ≤ shadow.size) :
    (sync same shadow start (cells? file base (base + n))).2 = true ↔
      ∃ i < n, ¬SameNumber kind ((shadow[start + i]?.map code).getD 0)
        ((file[base + i]?.map code).getD 0) := by
  rw [cells?_eq_some file base hfile, sync_words_changed_iff hsame (length_window hfile) hroom]
  exact exists_congr fun i => and_congr_right fun hi => by rw [getElem?_window hfile hi]

theorem getElem?_sync_file (hfile : base + n ≤ file.size) (hroom : start + n ≤ shadow.size)
    (hi : i < n) :
    (sync same shadow start (cells? file base (base + n))).1[start + i]? =
      if (sync same shadow start (cells? file base (base + n))).2 = true then file[base + i]?
      else shadow[start + i]? := by
  have hlength := length_window hfile
  rw [cells?_eq_some file base hfile, getElem?_sync (by omega) (by omega), getElem?_window hfile hi]

end Sync

/-- Where every value has a cell, a change is reported exactly if one of them differs. -/
theorem syncEach_changed_iff {shadow : Array Int32} {values : List Int32}
    (hroom : start + values.length ≤ shadow.size) :
    (syncEach shadow start values).2 = true ↔
      ∃ i < values.length, shadow[start + i]? ≠ values[i]? := by
  simp only [syncEach, List.any_eq_true, bne_iff_ne]
  constructor
  · rintro ⟨⟨a, b⟩, hab, hne⟩
    obtain ⟨i, hi⟩ := mem_iff_getElem?.mp hab
    obtain ⟨ha, hb⟩ := getElem?_zip_eq_some.mp hi
    have hlt : i < values.length := (List.getElem?_eq_some_iff.mp hb).1
    rw [getElem?_window hroom hlt] at ha
    exact ⟨i, hlt, by rw [ha, hb]; exact fun h => hne (Option.some.inj h)⟩
  · rintro ⟨i, hi, hne⟩
    have ha : shadow[start + i]? = some _ := getElem?_eq_getElem (by omega)
    have hb : values[i]? = some _ := getElem?_eq_getElem hi
    rw [ha, hb] at hne
    have hold := (getElem?_window hroom hi).trans ha
    exact ⟨(_, _), mem_iff_getElem?.mpr ⟨i, getElem?_zip_eq_some.mpr ⟨hold, hb⟩⟩,
      fun h => hne (congrArg some h)⟩

theorem toUInt32_inj {a b : Int32} : a.toUInt32 = b.toUInt32 ↔ a = b :=
  ⟨fun h => by cases a; cases b; exact congrArg Int32.ofUInt32 h, congrArg Int32.toUInt32⟩

variable (r : StageRegisters) (v : StageUniforms)

theorem StageUniforms.word_float (i : Nat) : v.word .float i = (v.floats[i]?.map bits).getD 0 := by
  simp [word, words]

theorem StageUniforms.word_int (i : Nat) :
    v.word .int i = (v.ints[i]?.map Int32.toUInt32).getD 0 := by
  simp [word, words]

theorem StageUniforms.word_bool (i : Nat) :
    v.word .bool i = (v.bools[i]?.map Int32.toUInt32).getD 0 := by
  simp [word, words]

theorem StageRegisters.word_float (i : Nat) : r.word .float i = (r.floats[i]?.map bits).getD 0 := by
  simp [word, words]

theorem StageRegisters.word_int (i : Nat) :
    r.word .int i = (r.ints[i]?.map Int32.toUInt32).getD 0 := by
  simp [word, words]

theorem StageRegisters.word_bool (i : Nat) :
    r.word .bool i =
      ((r.bools[i]?.map fun b => b.toNat.toInt32).map Int32.toUInt32).getD 0 := by
  simp only [word, words, getD_eq_getElem?_getD, List.getElem?_map, getElem?_toList, Option.map_map]
  cases r.bools[i]? with
  | none => rfl
  | some b => simp [Nat.toInt32]

end Device

end ShaderPipeline
