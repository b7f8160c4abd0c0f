import Mathlib.Algebra.Order.Field.Rat
import Mathlib.Algebra.Order.Field.Basic
import Mathlib.Data.Nat.Digits.Defs
import Mathlib.Tactic.FieldSimp
import Mathlib.Tactic.Linarith
import Mathlib.Tactic.Qify
import Mathlib.Tactic.Ring
import ShaderPipeline.Text.Literal

/-!
# What float literals denote

A float literal has at most eight decimal places: it denotes the multiple of `10 ^ -8` nearest to
the float. That names the float as long as its neighbours are further away than the rounding moves
it, which is so from `1 / 8` on. Just below `1 / 8` neighbouring floats begin to share a literal.
-/

namespace ShaderPipeline

open List

/-! ### Decimal texts -/

variable (ds : List Char)

def decimalPart : ℚ := Nat.ofDigitChars 10 ds 0 / 10 ^ ds.length

def unsignedDecimal? (cs : List Char) : Option ℚ :=
  match cs.takeWhile Char.isDigit, cs.dropWhile Char.isDigit with
  | d :: whole, '.' :: c :: part =>
    if (c :: part).all Char.isDigit then
      some (Nat.ofDigitChars 10 (d :: whole) 0 + decimalPart (c :: part))
    else none
  | _, _ => none

/-- The number denoted by a decimal text, with or without a sign. -/
def decimal? (text : String) : Option ℚ :=
  match text.toList with
  | '-' :: cs => (unsignedDecimal? cs).map (- ·)
  | cs => unsignedDecimal? cs

theorem decimalPart_append_zeros (k : Nat) :
    decimalPart (ds ++ replicate k '0') = decimalPart ds := by
  rw [decimalPart, Nat.ofDigitChars_append, Nat.ofDigitChars_replicate_zero, decimalPart,
    length_append, length_replicate, pow_add]
  push_cast
  field_simp

theorem exists_dropTrailingZeros_append : ∃ k, dropTrailingZeros ds ++ replicate k '0' = ds := by
  have hzeros : ∀ c ∈ ds.reverse.takeWhile (· == '0'), c = '0' := fun c hc => by
    simpa using all_eq_true.mp all_takeWhile c hc
  refine ⟨(ds.reverse.takeWhile (· == '0')).length, reverse_inj.mp ?_⟩
  rw [reverse_append, reverse_replicate, ← eq_replicate_of_mem hzeros,
    dropTrailingZeros, reverse_reverse, takeWhile_append_dropWhile]

theorem shownDigits {ds part : List Char} (hds : ∀ c ∈ ds, c.isDigit)
    (hpart : (if (dropTrailingZeros ds).isEmpty then ['0'] else dropTrailingZeros ds) = part) :
    part ≠ [] ∧ (∀ c ∈ part, c.isDigit) ∧ decimalPart part = decimalPart ds := by
  obtain ⟨k, hk⟩ := exists_dropTrailingZeros_append ds
  have hvalue := decimalPart_append_zeros (dropTrailingZeros ds) k
  rw [hk] at hvalue
  split_ifs at hpart with hempty <;> subst hpart
  · rw [List.isEmpty_iff] at hempty
    rw [hempty] at hvalue
    exact ⟨by simp, forall_mem_singleton.mpr rfl, (decimalPart_append_zeros [] 1).trans hvalue.symm⟩
  · exact ⟨fun h => hempty (isEmpty_iff.mpr h),
      fun c hc => hds c (hk ▸ mem_append_left _ hc), hvalue.symm⟩

theorem unsignedDecimal?_append {whole part : List Char} (hwhole : whole ≠ []) (hpart : part ≠ [])
    (hw : ∀ c ∈ whole, c.isDigit) (hp : ∀ c ∈ part, c.isDigit) :
    unsignedDecimal? (whole ++ '.' :: part) =
      some (Nat.ofDigitChars 10 whole 0 + decimalPart part) := by
  obtain ⟨d, ds, rfl⟩ := exists_cons_of_ne_nil hwhole
  obtain ⟨c, cs, rfl⟩ := exists_cons_of_ne_nil hpart
  have hpoint : ¬ Char.isDigit '.' := by decide
  rw [unsignedDecimal?, takeWhile_append_of_pos hw, dropWhile_append_of_pos hw,
    takeWhile_cons_of_neg hpoint, dropWhile_cons_of_neg hpoint, append_nil]
  exact if_pos (all_eq_true.mpr hp)

theorem isDigit_of_mem_toDigits {n : Nat} {c : Char} (hc : c ∈ Nat.toDigits 10 n) : c.isDigit :=
  Nat.isDigit_of_mem_toDigits (by decide) (by decide) hc

theorem isDigit_of_mem_paddedDigits {width n : Nat} {c : Char} (hc : c ∈ paddedDigits width n) :
    c.isDigit := by
  rcases mem_append.mp hc with h | h
  · rw [(mem_replicate.mp h).2]
    decide
  · exact isDigit_of_mem_toDigits h

theorem decimalPart_paddedDigits {width n : Nat} (hwidth : 0 < width) (hn : n < 10 ^ width) :
    decimalPart (paddedDigits width n) = n / 10 ^ width := by
  have hlength := Nat.toDigits_length 10 n width hwidth hn
  rw [decimalPart, paddedDigits, Nat.ofDigitChars_append, Nat.ofDigitChars_replicate_zero, mul_zero,
    Nat.ofDigitChars_ten_toDigits, length_append, length_replicate, Nat.sub_add_cancel hlength]

/-! ### Finite floats -/

namespace Binary32

variable (x : Binary32)

/-- Neither an infinity nor a NaN. -/
def IsFinite : Prop := x.exponent ≠ 255

instance : Decidable x.IsFinite := inferInstanceAs (Decidable (_ ≠ _))

/-- The sign of a float; a zero has one too. -/
def sign (x : Binary32) : ℚ := if x.negative then -1 else 1

def value (x : Binary32) : ℚ := x.sign * (x.units / 2 ^ 149)

def literalValue : ℚ :=
  x.sign * (x.scaledMagnitude literalPlaces / 10 ^ literalPlaces)

variable {v w : Binary32}

theorem abs_sign : |x.sign| = 1 := by
  unfold sign
  split_ifs <;> norm_num

theorem decimal?_fixedText {places : Nat} (hplaces : 0 < places) (x : Binary32) :
    decimal? (x.fixedText places) = some (x.sign * (x.scaledMagnitude places / 10 ^ places)) := by
  generalize hn : x.scaledMagnitude places = n
  generalize hpart : (if (dropTrailingZeros (paddedDigits places (n % 10 ^ places))).isEmpty
    then ['0'] else dropTrailingZeros (paddedDigits places (n % 10 ^ places))) = part
  obtain ⟨hne, hdigits, hvalue⟩ := shownDigits (fun _ => isDigit_of_mem_paddedDigits) hpart
  rw [decimalPart_paddedDigits hplaces (Nat.mod_lt n (by positivity))] at hvalue
  have hread : unsignedDecimal? (Nat.toDigits 10 (n / 10 ^ places) ++ '.' :: part) =
      some ((n : ℚ) / 10 ^ places) := by
    have hsplit : (n : ℚ) = 10 ^ places * (n / 10 ^ places : Nat) + (n % 10 ^ places : Nat) := by
      exact_mod_cast (Nat.div_add_mod n (10 ^ places)).symm
    rw [unsignedDecimal?_append Nat.toDigits_ne_nil hne (fun _ => isDigit_of_mem_toDigits) hdigits,
      Nat.ofDigitChars_ten_toDigits, hvalue, hsplit]
    congr 1
    field_simp
  have htext : (x.fixedText places).toList =
      x.signText.toList ++ (Nat.toDigits 10 (n / 10 ^ places) ++ '.' :: part) := by
    rw [← hpart, ← hn, fixedText, String.toList_append, String.toList_ofList]
  rw [decimal?, htext]
  unfold signText sign
  split_ifs
  · simp [hread]
  · -- A text without a sign starts with a digit.
    obtain ⟨d, ds, hds⟩ := exists_cons_of_ne_nil
      (Nat.toDigits_ne_nil : Nat.toDigits 10 (n / 10 ^ places) ≠ [])
    have hd : d.isDigit := isDigit_of_mem_toDigits (hds ▸ mem_cons_self)
    rw [one_mul, ← hread, hds]
    split
    · simp_all
    · rfl

theorem floatLiteral_of_isFinite (h : v.IsFinite) :
    floatLiteral v = v.fixedText literalPlaces := by
  have hexponent : (v.exponent == 255) = false := beq_eq_false_iff_ne.mpr h
  simp [floatLiteral, isNaN, isInfinite, hexponent]

theorem decimal?_floatLiteral (h : v.IsFinite) :
    decimal? (floatLiteral v) = some v.literalValue := by
  rw [floatLiteral_of_isFinite h, decimal?_fixedText (by decide), literalValue]

/-- Under one sign, two literals are one text exactly if they denote one decimal. -/
theorem floatLiteral_eq_iff (hw : w.IsFinite) (hv : v.IsFinite) (hsign : w.negative = v.negative) :
    floatLiteral w = floatLiteral v ↔ w.literalValue = v.literalValue := by
  constructor <;> intro h
  · exact Option.some.inj (by rw [← decimal?_floatLiteral hw, h, decimal?_floatLiteral hv])
  · have hne : v.sign ≠ 0 := fun h0 => by simpa [h0] using abs_sign v
    have hscaled : w.scaledMagnitude literalPlaces = v.scaledMagnitude literalPlaces := by
      rw [literalValue, literalValue, sign, hsign, ← sign] at h
      exact_mod_cast (div_left_inj' (by positivity)).mp (mul_left_cancel₀ hne h)
    rw [floatLiteral_of_isFinite hw, floatLiteral_of_isFinite hv, fixedText, fixedText, hscaled,
      signText, hsign, signText]

theorem roundHalfEven_bounds (num den : Nat) (hden : 0 < den) :
    2 * num ≤ 2 * (den * roundHalfEven num den) + den ∧
      2 * (den * roundHalfEven num den) ≤ 2 * num + den := by
  have hnum := Nat.div_add_mod num den
  have hmod : num % den < den := Nat.mod_lt _ hden
  have hnext : den * (num / den + 1) = den * (num / den) + den := by ring
  dsimp only [roundHalfEven]
  split_ifs
  · omega
  · omega
  · rcases Nat.mod_two_eq_zero_or_one (num / den) with hq | hq <;> rw [hq] <;> grind

theorem abs_literalValue_sub_value_le :
    |x.literalValue - x.value| ≤ 1 / (2 * 10 ^ literalPlaces) := by
  obtain ⟨hbelow, habove⟩ :=
    roundHalfEven_bounds (x.units * 10 ^ literalPlaces) (2 ^ 149) (by positivity)
  rw [← scaledMagnitude] at hbelow habove
  have hscale : (x.scaledMagnitude literalPlaces / 10 ^ literalPlaces - x.units / 2 ^ 149 : ℚ) =
      (2 ^ 149 * x.scaledMagnitude literalPlaces - x.units * 10 ^ literalPlaces) /
        (2 ^ 149 * 10 ^ literalPlaces) := by
    field_simp
  rw [literalValue, value, ← mul_sub, abs_mul, abs_sign, one_mul, hscale, abs_le, ← neg_div,
    div_le_div_iff₀ (by positivity) (by positivity),
    div_le_div_iff₀ (by positivity) (by positivity)]
  qify at hbelow habove
  constructor <;> nlinarith [(by positivity : (0 : ℚ) < 10 ^ literalPlaces)]

/-- Powers of two from `1 / 8` on need no more than three places. -/
theorem literalValue_of_fraction_eq_zero (he : 124 ≤ v.exponent) (hf : v.fraction = 0) :
    v.literalValue = v.value := by
  obtain ⟨k, hk⟩ := Nat.exists_eq_add_of_le he
  have hunits : v.units = 2 ^ 146 * 2 ^ k := by
    rw [units, if_neg (by omega), hf, add_zero, show v.exponent - 1 = 123 + k by omega, pow_add]
    ring
  have hscaled : v.scaledMagnitude literalPlaces = 12500000 * 2 ^ k := by
    have hnum : v.units * 10 ^ literalPlaces = 2 ^ 149 * (12500000 * 2 ^ k) := by
      rw [hunits, literalPlaces]
      ring
    simp [scaledMagnitude, hnum, roundHalfEven]
  rw [literalValue, value, hscaled, hunits, literalPlaces]
  push_cast
  ring

/-! ### Neighbours -/

theorem fraction_lt : x.fraction < 2 ^ 23 := Nat.mod_lt _ (by positivity)

/-- From `1 / 8` on, other floats are at least `2 ^ -27` away, and below a power of two only. -/
theorem units_gap (he : 124 ≤ v.exponent) (hne : w.units ≠ v.units) :
    2 ^ 122 ≤ |(w.units - v.units : ℤ)| ∧
      (v.fraction ≠ 0 → 2 ^ 123 ≤ |(w.units - v.units : ℤ)|) := by
  obtain ⟨k, hk⟩ := Nat.exists_eq_add_of_le he
  have hv : v.units = (2 ^ 23 + v.fraction) * (2 ^ 123 * 2 ^ k) := by
    rw [units, if_neg (by omega), show v.exponent - 1 = 123 + k by omega, pow_add]
  have hpow : 0 < 2 ^ k := by positivity
  rcases le_or_gt v.exponent w.exponent with hle | hlt
  · -- Both are multiples of the distance between neighbours of `v`.
    obtain ⟨j, hj⟩ := Nat.exists_eq_add_of_le hle
    have hw : w.units = (2 ^ 23 + w.fraction) * 2 ^ j * (2 ^ 123 * 2 ^ k) := by
      rw [units, if_neg (by omega), show w.exponent - 1 = j + (123 + k) by omega, pow_add, pow_add]
      ring
    have hgap : 2 ^ 123 ≤ |(w.units - v.units : ℤ)| := by
      rw [hw, hv] at hne ⊢
      have hfactor := Int.one_le_abs (sub_ne_zero.mpr fun h =>
        hne (congrArg (· * (2 ^ 123 * 2 ^ k)) (Int.ofNat_inj.mp h)))
      calc (2 ^ 123 : ℤ) ≤ 1 * (2 ^ 123 * 2 ^ k) := by nlinarith
        _ ≤ _ := mul_le_mul_of_nonneg_right hfactor (by positivity)
        _ = _ := by
          rw [← abs_of_nonneg (by positivity : (0 : ℤ) ≤ 2 ^ 123 * 2 ^ k), ← abs_mul, sub_mul]
          push_cast
          rfl
    exact ⟨le_trans (by norm_num) hgap, fun _ => hgap⟩
  · -- Floats with a smaller exponent end below the power of two under `v`.
    have hw : w.units + 2 ^ 122 ≤ 2 ^ 23 * (2 ^ 123 * 2 ^ k) := by
      have hpowers : 2 ^ (w.exponent - 1) ≤ 2 ^ 122 * 2 ^ k := by
        rw [← pow_add]
        exact Nat.pow_le_pow_right (by decide) (by omega)
      have hfraction := w.fraction_lt
      unfold units
      split_ifs <;> nlinarith
    have hvw : w.units + 2 ^ 122 + v.fraction * 2 ^ 123 ≤ v.units := by
      rw [hv]
      nlinarith
    zify at hvw
    rw [abs_sub_comm]
    refine ⟨le_trans ?_ (le_abs_self _), fun hf => le_trans ?_ (le_abs_self _)⟩
    · nlinarith
    · have hone : (1 : ℤ) ≤ v.fraction := by exact_mod_cast Nat.one_le_iff_ne_zero.mpr hf
      nlinarith

theorem exponent_ge_of_value (h : 1 / 8 ≤ |v.value|) : 124 ≤ v.exponent := by
  by_contra! hlt
  have hpowers : 2 ^ (v.exponent - 1) ≤ 2 ^ 122 := Nat.pow_le_pow_right (by decide) (by omega)
  have hfraction := v.fraction_lt
  have hunits : v.units < 2 ^ 146 := by
    unfold units
    split_ifs <;> nlinarith
  rw [value, abs_mul, abs_sign, one_mul, abs_of_nonneg (by positivity),
    le_div_iff₀ (by positivity)] at h
  qify at hunits
  norm_num at h hunits
  linarith

theorem value_gap (h : 1 / 8 ≤ |v.value|) (hne : w.value ≠ v.value) :
    1 / 2 ^ 27 ≤ |w.value - v.value| ∧ (v.fraction ≠ 0 → 1 / 2 ^ 26 ≤ |w.value - v.value|) := by
  by_cases hsign : w.sign = v.sign
  · have hunits : w.units ≠ v.units := fun hu => hne (by rw [value, value, hsign, hu])
    obtain ⟨hgap, hfraction⟩ := units_gap (exponent_ge_of_value h) hunits
    have hdistance : |w.value - v.value| = |(w.units - v.units : ℤ)| / 2 ^ 149 := by
      rw [value, value, hsign, ← mul_sub, abs_mul, abs_sign, one_mul, ← sub_div, abs_div]
      norm_num
    rw [hdistance, le_div_iff₀ (by positivity), le_div_iff₀ (by positivity)]
    qify at hgap hfraction
    norm_num at hgap hfraction ⊢
    exact ⟨hgap, hfraction⟩
  · -- Across zero the distance is the sum of the magnitudes.
    have hopposite : w.sign = -v.sign := by
      unfold sign at hsign ⊢
      split_ifs at hsign ⊢ <;> simp_all
    have hdistance : |w.value - v.value| = w.units / 2 ^ 149 + |v.value| := by
      rw [value, value, hopposite, abs_mul v.sign, abs_sign, neg_mul, ← neg_add', abs_neg,
        ← mul_add, abs_mul, abs_sign, abs_of_nonneg (by positivity), abs_of_nonneg (by positivity)]
      ring
    have hnonneg : (0 : ℚ) ≤ w.units / 2 ^ 149 := by positivity
    rw [hdistance]
    exact ⟨by linarith, fun _ => by linarith⟩

/-- The literal of a finite float denotes the decimal of eight places next to it. Floats of one sign
share a literal exactly if that decimal is the same. From `1 / 8` on no other float has that
decimal, nor is any other as close to it. -/
theorem floatLiteral_reads_back (v : Binary32) (hv : v.IsFinite) :
    decimal? (floatLiteral v) = some v.literalValue ∧
      |v.literalValue - v.value| ≤ 1 / (2 * 10 ^ literalPlaces) ∧
      (∀ w : Binary32, w.IsFinite → w.negative = v.negative →
        (floatLiteral w = floatLiteral v ↔ w.literalValue = v.literalValue)) ∧
      (1 / 8 ≤ |v.value| → ∀ w : Binary32, w.IsFinite → w.value ≠ v.value →
        w.literalValue ≠ v.literalValue ∧
          |v.literalValue - v.value| < |v.literalValue - w.value|) := by
  refine ⟨decimal?_floatLiteral hv, v.abs_literalValue_sub_value_le,
    fun w hw hsign => floatLiteral_eq_iff hw hv hsign, fun hbig w _ hne => ?_⟩
  have hmove := v.abs_literalValue_sub_value_le
  obtain ⟨hgap, hfraction⟩ := value_gap hbig hne
  have htriangle := abs_sub_le w.value v.literalValue v.value
  rw [abs_sub_comm w.value v.literalValue] at htriangle
  have hfar : 1 / (2 * 10 ^ literalPlaces) < |v.literalValue - w.value| := by
    by_cases hf : v.fraction = 0
    · rw [literalValue_of_fraction_eq_zero (exponent_ge_of_value hbig) hf, abs_sub_comm]
      exact lt_of_lt_of_le (by norm_num [literalPlaces]) hgap
    · have := hfraction hf
      norm_num [literalPlaces] at hmove this ⊢
      linarith
  exact ⟨fun heq => not_le.mpr hfar (heq ▸ w.abs_literalValue_sub_value_le),
    lt_of_le_of_lt hmove hfar⟩

/-- The two floats before `1 / 8` have one literal, and so have `10 ^ -9` and `2 * 10 ^ -9`. -/
theorem floatLiteral_reads_back_shared :
    (⟨0x3dfffffe⟩ : Binary32).value ≠ (⟨0x3dffffff⟩ : Binary32).value ∧
      floatLiteral ⟨0x3dfffffe⟩ = floatLiteral ⟨0x3dffffff⟩ ∧
      (⟨0x3089705f⟩ : Binary32).value ≠ (⟨0x3109705f⟩ : Binary32).value ∧
      floatLiteral ⟨0x3089705f⟩ = floatLiteral ⟨0x3109705f⟩ := by
  refine ⟨?_, ((floatLiteral_reads_back ⟨0x3dffffff⟩ ?_).2.2.1 ⟨0x3dfffffe⟩ ?_ ?_).mpr ?_, ?_,
    ((floatLiteral_reads_back ⟨0x3109705f⟩ ?_).2.2.1 ⟨0x3089705f⟩ ?_ ?_).mpr ?_⟩
  all_goals decide +kernel

end Binary32

end ShaderPipeline
