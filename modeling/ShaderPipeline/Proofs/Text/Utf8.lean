import Mathlib.Tactic.Conv
import Mathlib.Tactic.SplitIfs
import ShaderPipeline.Text.Lossy

/-!
# Reading well-formed text

Text that was written as UTF-8 is read back as it is: no replacement character appears. The reader
is followed character by character, one case for each length of a sequence.
-/

namespace ShaderPipeline

open String List

variable (s : String)

def utf8Bytes : List UInt8 := s.toUTF8.data.toList

theorem utf8Bytes_injective {s t : String} (h : utf8Bytes s = utf8Bytes t) : s = t :=
  toByteArray_inj.mp (ByteArray.ext (Array.toList_inj.mp h))

theorem utf8Bytes_eq_flatMap : utf8Bytes s = s.toList.flatMap utf8EncodeChar := by
  conv_lhs => rw [← ofList_toList (s := s)]
  rw [utf8Bytes, toUTF8_eq_toByteArray, toByteArray_ofList]
  simp [utf8Encode]

/-! ### Sequences -/

section Sequences

variable {a b c d : UInt8} (rest : List UInt8)

theorem between_iff {low high : UInt8} : (low ≤ a && a ≤ high) = true ↔
    low.toNat ≤ a.toNat ∧ a.toNat ≤ high.toNat := by
  simp [UInt8.le_iff_toNat_le]

theorem secondOfThree_iff : secondOfThree a b = true ↔
    (128 ≤ b.toNat ∧ b.toNat ≤ 191) ∧ (a.toNat = 224 → 160 ≤ b.toNat) ∧
      (a.toNat = 237 → b.toNat ≤ 159) := by
  simp only [secondOfThree, isContinuation, beq_iff_eq, ← UInt8.toNat_inj, UInt8.reduceToNat]
  split_ifs <;> rw [between_iff] <;> simp only [UInt8.reduceToNat] <;> omega

theorem secondOfFour_iff : secondOfFour a b = true ↔
    (128 ≤ b.toNat ∧ b.toNat ≤ 191) ∧ (a.toNat = 240 → 144 ≤ b.toNat) ∧
      (a.toNat = 244 → b.toNat ≤ 143) := by
  simp only [secondOfFour, isContinuation, beq_iff_eq, ← UInt8.toNat_inj, UInt8.reduceToNat]
  split_ifs <;> rw [between_iff] <;> simp only [UInt8.reduceToNat] <;> omega

theorem not_ascii (ha : 128 ≤ a.toNat) : ¬a < 0x80 :=
  mt UInt8.lt_iff_toNat_lt.mp (Nat.not_lt.mpr ha)

theorem lossyChars_one (ha : a.toNat < 128) :
    lossyChars (a :: rest) = Char.ofNat a.toNat :: lossyChars rest := by
  have hascii : a < 0x80 := UInt8.lt_iff_toNat_lt.mpr ha
  rw [lossyChars.eq_def]
  simp only []
  rw [if_pos hascii]

theorem lossyChars_two (ha : 194 ≤ a.toNat ∧ a.toNat ≤ 223) (hb : isContinuation b = true) :
    lossyChars (a :: b :: rest) =
      Char.ofNat (a.toNat % 32 * 64 + payload b) :: lossyChars rest := by
  rw [lossyChars.eq_def]
  simp only []
  rw [if_neg (not_ascii (by omega)), if_pos (between_iff.mpr (by exact ha))]
  exact if_pos hb

theorem lossyChars_three (ha : 224 ≤ a.toNat ∧ a.toNat ≤ 239) (hb : secondOfThree a b = true)
    (hc : isContinuation c = true) :
    lossyChars (a :: b :: c :: rest) =
      Char.ofNat (a.toNat % 16 * 4096 + payload b * 64 + payload c) :: lossyChars rest := by
  have htwo : ¬(0xC2 ≤ a && a ≤ 0xDF) = true := by
    simp only [between_iff, UInt8.reduceToNat]
    omega
  rw [lossyChars.eq_def]
  simp only []
  rw [if_neg (not_ascii (by omega)), if_neg htwo, if_pos (between_iff.mpr (by exact ha))]
  simp [hb, hc]

theorem lossyChars_four (ha : 240 ≤ a.toNat ∧ a.toNat ≤ 244) (hb : secondOfFour a b = true)
    (hc : isContinuation c = true) (hd : isContinuation d = true) :
    lossyChars (a :: b :: c :: d :: rest) =
      Char.ofNat (a.toNat % 8 * 262144 + payload b * 4096 + payload c * 64 + payload d) ::
        lossyChars rest := by
  have htwo : ¬(0xC2 ≤ a && a ≤ 0xDF) = true := by
    simp only [between_iff, UInt8.reduceToNat]
    omega
  have hthree : ¬(0xE0 ≤ a && a ≤ 0xEF) = true := by
    simp only [between_iff, UInt8.reduceToNat]
    omega
  rw [lossyChars.eq_def]
  simp only []
  rw [if_neg (not_ascii (by omega)), if_neg htwo, if_neg hthree,
    if_pos (between_iff.mpr (by exact ha))]
  simp [hb, hc, hd]

end Sequences

/-! ### Characters -/

theorem toNat_ofNat_of_lt {n : Nat} (h : n < 256) : (UInt8.ofNat n).toNat = n := by
  rw [UInt8.toNat_ofNat']
  exact Nat.mod_eq_of_lt h

theorem lossyChars_utf8EncodeChar (x : Char) (rest : List UInt8) :
    lossyChars (String.utf8EncodeChar x ++ rest) = x :: lossyChars rest := by
  have hvalid : x.val.toNat < 0xD800 ∨ 0xDFFF < x.val.toNat ∧ x.val.toNat < 0x110000 := x.valid
  have hchar : Char.ofNat x.val.toNat = x := Char.ofNat_toNat x
  generalize hv : x.val.toNat = v at hvalid hchar
  simp only [String.utf8EncodeChar, hv]
  have hcont : ∀ n, isContinuation (UInt8.ofNat (n % 64 + 128)) = true := by
    intro n
    simp only [isContinuation, between_iff, UInt8.reduceToNat]
    rw [toNat_ofNat_of_lt (by omega)]
    omega
  have hpayload : ∀ n, payload (UInt8.ofNat (n % 64 + 128)) = n % 64 := by
    intro n
    rw [payload, toNat_ofNat_of_lt (by omega)]
    omega
  split_ifs with hone htwo hthree
  · have ha : (UInt8.ofNat v).toNat = v := toNat_ofNat_of_lt (by omega)
    rw [singleton_append, lossyChars_one rest (by omega), ha, hchar]
  · have ha : (UInt8.ofNat (v / 64 % 32 + 192)).toNat = v / 64 % 32 + 192 :=
      toNat_ofNat_of_lt (by omega)
    have hsum : (v / 64 % 32 + 192) % 32 * 64 + v % 64 = v := by omega
    rw [cons_append, singleton_append, lossyChars_two rest (by omega) (hcont _), ha,
      hpayload, hsum, hchar]
  · have ha : (UInt8.ofNat (v / 4096 % 16 + 224)).toNat = v / 4096 % 16 + 224 :=
      toNat_ofNat_of_lt (by omega)
    have hsum : (v / 4096 % 16 + 224) % 16 * 4096 + v / 64 % 64 * 64 + v % 64 = v := by omega
    have hb : secondOfThree (UInt8.ofNat (v / 4096 % 16 + 224))
        (UInt8.ofNat (v / 64 % 64 + 128)) = true := by
      rw [secondOfThree_iff, ha, toNat_ofNat_of_lt (by omega)]
      omega
    rw [cons_append, cons_append, singleton_append,
      lossyChars_three rest (by omega) hb (hcont _), ha, hpayload, hpayload, hsum, hchar]
  · have ha : (UInt8.ofNat (v / 262144 % 8 + 240)).toNat = v / 262144 % 8 + 240 :=
      toNat_ofNat_of_lt (by omega)
    have hsum : (v / 262144 % 8 + 240) % 8 * 262144 + v / 4096 % 64 * 4096 + v / 64 % 64 * 64 +
      v % 64 = v := by omega
    have hb : secondOfFour (UInt8.ofNat (v / 262144 % 8 + 240))
        (UInt8.ofNat (v / 4096 % 64 + 128)) = true := by
      rw [secondOfFour_iff, ha, toNat_ofNat_of_lt (by omega)]
      omega
    rw [cons_append, cons_append, cons_append, singleton_append,
      lossyChars_four rest (by omega) hb (hcont _) (hcont _), ha, hpayload, hpayload, hpayload,
      hsum, hchar]

theorem lossyChars_flatMap (xs : List Char) :
    lossyChars (xs.flatMap utf8EncodeChar) = xs := by
  induction xs with
  | nil => simp [lossyChars]
  | cons x xs ih => rw [flatMap_cons, lossyChars_utf8EncodeChar, ih]

theorem lossyText_utf8Bytes : lossyText (utf8Bytes s) = s := by
  rw [lossyText, utf8Bytes_eq_flatMap, lossyChars_flatMap, ofList_toList]

/-- A text without a zero byte is read back from its bytes and the zeros behind them. -/
theorem lossyTextUntilZero_utf8Bytes {s : String} (h : 0 ∉ utf8Bytes s) (rest : List UInt8) :
    lossyTextUntilZero (utf8Bytes s ++ 0 :: rest) = s := by
  have hall : ∀ b ∈ utf8Bytes s, (b != 0) = true := by
    intro b hb
    exact bne_iff_ne.mpr fun hzero => h (hzero ▸ hb)
  have htake : (utf8Bytes s ++ 0 :: rest).takeWhile (· != 0) = utf8Bytes s := by
    rw [takeWhile_append_of_pos hall]
    simp
  rw [lossyTextUntilZero, htake, lossyText_utf8Bytes]

end ShaderPipeline
