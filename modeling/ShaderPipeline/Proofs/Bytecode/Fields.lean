import ShaderPipeline.Bytes.Word

/-!
# Words made of bit fields

The words of a shader stream hold several numbers, each in its own range of bits. A word that is put
together from fields that lie apart gives every one of them back.
-/

namespace ShaderPipeline

open List

/-- A number in the `width` bits from bit `low` on. -/
structure BitField where
  low : Nat
  width : Nat
  value : Nat

namespace BitField

/-- No bit belongs to both fields. -/
def Apart (f g : BitField) : Prop := f.low + f.width ≤ g.low ∨ g.low + g.width ≤ f.low

def Fits (f : BitField) : Prop := f.value < 2 ^ f.width ∧ f.low + f.width ≤ 32

/-- Fields that can share a word. -/
structure WellPlaced (fs : List BitField) : Prop where
  apart : fs.Pairwise Apart
  fits : ∀ f ∈ fs, f.Fits

def pack : List BitField → Nat
  | [] => 0
  | f :: fs => f.value <<< f.low ||| pack fs

end BitField

def Word.ofFields (fs : List BitField) : Word := UInt32.ofNat (BitField.pack fs)

namespace BitField

variable {f : BitField} {fs : List BitField}

theorem WellPlaced.nil : WellPlaced [] := ⟨List.Pairwise.nil, forall_mem_nil _⟩

theorem WellPlaced.cons {low width value : Nat} (hvalue : value < 2 ^ width)
    (hinside : low + width ≤ 32) (hapart : ∀ g ∈ fs, Apart ⟨low, width, value⟩ g)
    (h : WellPlaced fs) : WellPlaced (⟨low, width, value⟩ :: fs) :=
  ⟨pairwise_cons.mpr ⟨hapart, h.apart⟩, forall_mem_cons.mpr ⟨⟨hvalue, hinside⟩, h.fits⟩⟩

theorem WellPlaced.tail (h : WellPlaced (f :: fs)) : WellPlaced fs :=
  ⟨(pairwise_cons.mp h.apart).2, fun g hg => h.fits g (mem_cons_of_mem _ hg)⟩

theorem Fits.shiftLeft_lt (h : f.Fits) : f.value <<< f.low < 2 ^ 32 := by
  rw [Nat.shiftLeft_eq]
  calc f.value * 2 ^ f.low
      < 2 ^ f.width * 2 ^ f.low := Nat.mul_lt_mul_of_pos_right h.1 (Nat.two_pow_pos _)
    _ = 2 ^ (f.width + f.low) := (Nat.pow_add ..).symm
    _ ≤ 2 ^ 32 := Nat.pow_le_pow_right (by decide) (by have := h.2; omega)

theorem pack_lt (h : ∀ f ∈ fs, f.Fits) : pack fs < 2 ^ 32 := by
  induction fs with
  | nil => decide
  | cons f fs ih =>
    rw [forall_mem_cons] at h
    exact Nat.or_lt_two_pow h.1.shiftLeft_lt (ih h.2)

theorem testBit_of_apart {g : BitField} (hapart : f.Apart g) (hfits : f.Fits) {j : Nat}
    (hj : j < g.width) : (f.value <<< f.low).testBit (g.low + j) = false := by
  rw [Nat.testBit_shiftLeft]
  rcases hapart with hbelow | habove
  · have hsmall : f.value < 2 ^ (g.low + j - f.low) :=
      Nat.lt_of_lt_of_le hfits.1 (Nat.pow_le_pow_right (by decide) (by omega))
    rw [Nat.testBit_lt_two_pow hsmall, Bool.and_false]
  · rw [decide_eq_false (by omega), Bool.false_and]

theorem testBit_pack_of_apart (hapart : ∀ g ∈ fs, f.Apart g) (hfits : ∀ g ∈ fs, g.Fits) {j : Nat}
    (hj : j < f.width) : (pack fs).testBit (f.low + j) = false := by
  induction fs with
  | nil => exact Nat.zero_testBit _
  | cons g fs ih =>
    rw [forall_mem_cons] at hapart hfits
    rw [pack, Nat.testBit_or, testBit_of_apart hapart.1.symm hfits.1 hj, ih hapart.2 hfits.2,
      Bool.or_false]

theorem testBit_pack (h : WellPlaced fs) (hf : f ∈ fs) {j : Nat} (hj : j < f.width) :
    (pack fs).testBit (f.low + j) = f.value.testBit j := by
  induction fs with
  | nil => simp at hf
  | cons g fs ih =>
    have hapart := (pairwise_cons.mp h.apart).1
    rw [pack, Nat.testBit_or]
    -- The bit belongs to one field only: the other side of the `or` is silent.
    rcases mem_cons.mp hf with rfl | hf
    · rw [testBit_pack_of_apart hapart h.tail.fits hj, Bool.or_false, Nat.testBit_shiftLeft,
        decide_eq_true (by omega), Bool.true_and, Nat.add_sub_cancel_left]
    · rw [testBit_of_apart (hapart f hf) (h.fits g mem_cons_self) hj, Bool.false_or, ih h.tail hf]

end BitField

open BitField

variable {fs : List BitField}

theorem field_ofFields {low width value : Nat} (h : WellPlaced fs)
    (hf : ⟨low, width, value⟩ ∈ fs) : field (Word.ofFields fs) low width = value := by
  have hfits := h.fits _ hf
  rw [field, Word.ofFields, UInt32.toNat_ofNat', Nat.mod_eq_of_lt (pack_lt h.fits)]
  refine Nat.eq_of_testBit_eq fun j => ?_
  rw [Nat.testBit_mod_two_pow, Nat.testBit_div_two_pow, Nat.add_comm j low]
  by_cases hj : j < width
  · rw [decide_eq_true hj, Bool.true_and, testBit_pack h hf hj]
  · have hsmall : value < 2 ^ j :=
      Nat.lt_of_lt_of_le hfits.1 (Nat.pow_le_pow_right (by decide) (Nat.le_of_not_lt hj))
    rw [decide_eq_false hj, Bool.false_and, Nat.testBit_lt_two_pow hsmall]

theorem flag_ofFields {i : Nat} {b : Bool} (h : WellPlaced fs) (hf : ⟨i, 1, b.toNat⟩ ∈ fs) :
    flag (Word.ofFields fs) i = b := by
  rw [flag, field_ofFields h hf]
  cases b <;> rfl

end ShaderPipeline
