import ShaderPipeline.Proofs.Device.Copies

/-!
# Integers and booleans in registers

What a symbol takes from a parameter that is neither of floats nor a structure for float registers
is given cell by cell. Float registers take the columns of one row each, as numbers. Integer
registers take all words. Boolean registers are scalars and take the columns of one row after the
other; filled one at a time, they are done after at most as many steps as there are registers.
-/

namespace ShaderPipeline

open List

variable {α : Type}

/-- The second file holds the values that `written` gives for cells, as far as it has these cells,
and is the first one in all others. -/
structure Filled (file file' : Array α) (written : Nat → α → Prop) : Prop where
  size : file'.size = file.size
  holds : ∀ k x, written k x → k < file.size → file'[k]? = some x
  kept : ∀ k, (∀ x, ¬written k x) → file'[k]? = file[k]?

theorem Writes.filled {ws : Writes α} {written : Nat → α → Prop}
    (h : ∀ k x, ws.value? k = some x ↔ written k x) (file : Array α) :
    Filled file (ws.apply file) written where
  size := size_apply ws file
  holds k x hx hk := by
    rw [getElem?_apply, (h k x).mpr hx, Array.getElem?_eq_getElem hk]
    rfl
  kept k hk := by
    have hnone : ws.value? k = none := by
      by_contra hsome
      obtain ⟨x, hx⟩ := Option.ne_none_iff_exists'.mp hsome
      exact hk x ((h k x).mp hx)
    rw [getElem?_apply, hnone]
    exact Option.map_id_apply

namespace Device

/-! ### Packing booleans -/

/-- Where the packing of booleans stands: the registers of the rows that are done, the number of
these rows, the columns of the row that are done, and the boolean registers. -/
structure Packing where
  register : Nat
  row : Nat
  column : Nat
  file : Array UInt8

/-- Fills one more register. A row ends at its last column or with the last of `count` registers.
The packing ends before a row if all registers are done, and wherever words are missing. -/
def Packing.next? (words : List Word) (columns first count : Nat) (p : Packing) :
    Option Packing :=
  if p.column = 0 ∧ count ≤ p.register then none
  else
    words[p.row * 4 + p.column]?.map fun w =>
      let file := p.file.setIfInBounds (first + p.register + p.column) (boolOfWord w)
      if columns ≤ p.column + 1 ∨ count ≤ p.register + (p.column + 1) then
        ⟨p.register + (p.column + 1), p.row + 1, 0, file⟩
      else ⟨p.register, p.row, p.column + 1, file⟩

/-- A packing ends within a number of steps, and leaves the boolean registers. -/
inductive Packing.Ends (next? : Packing → Option Packing) : Nat → Packing → Array UInt8 → Prop
  | stop {n : Nat} {p : Packing} (h : next? p = none) : Ends next? n p p.file
  | step {n : Nat} {p q : Packing} {file : Array UInt8} (h : next? p = some q)
    (hq : Ends next? n q file) : Ends next? (n + 1) p file

section Packing

variable (words : List Word) {c : Nat} (hc : 1 ≤ c) (first : Nat)

include hc

/-- One step of the packing, after `m` registers and with `n` to follow. -/
theorem next?_packing (m n : Nat) (file : Array UInt8) :
    Packing.next? words c first (m + (n + 1)) ⟨m / c * c, m / c, m % c, file⟩ =
      words[4 * (m / c) + m % c]?.map fun w =>
        if n = 0 then ⟨m + 1, m / c + 1, 0, file.setIfInBounds (first + m) (boolOfWord w)⟩
        else ⟨(m + 1) / c * c, (m + 1) / c, (m + 1) % c,
          file.setIfInBounds (first + m) (boolOfWord w)⟩ := by
  have hdone : m / c * c + m % c = m := Nat.div_add_mod' m c
  have hcolumn : m % c < c := Nat.mod_lt m hc
  rw [Packing.next?, if_neg (by omega : ¬(m % c = 0 ∧ m + (n + 1) ≤ m / c * c)),
    Nat.mul_comm (m / c) 4]
  refine congrArg (Option.map · _) (funext fun w => ?_)
  dsimp only
  have hplace : first + m / c * c + m % c = first + m := by omega
  have hsum : m / c * c + (m % c + 1) = m + 1 := by omega
  rw [hplace, hsum]
  by_cases hn : n = 0
  · rw [if_pos (.inr (by omega)), if_pos hn]
  · rw [if_neg hn]
    by_cases hrow : c ≤ m % c + 1
    · -- The row ends here, and the next register starts one.
      obtain ⟨hdiv, hmod⟩ : (m + 1) / c = m / c + 1 ∧ (m + 1) % c = 0 :=
        (Nat.div_mod_unique hc).mpr ⟨by rw [Nat.mul_succ, Nat.mul_comm c]; omega, hc⟩
      rw [if_pos (.inl hrow), hdiv, hmod, Nat.succ_mul]
      congr 1
      omega
    · obtain ⟨hdiv, hmod⟩ : (m + 1) / c = m / c ∧ (m + 1) % c = m % c + 1 :=
        (Nat.div_mod_unique hc).mpr ⟨by rw [Nat.mul_comm c]; omega, by omega⟩
      rw [if_neg (by omega), hdiv, hmod]

/-- The packing after `m` registers, with `n` more of them to fill. -/
theorem ends_packing_from (hc' : c ≤ 4) (m n : Nat) (hm : m = 0 ∨ n ≠ 0) (file : Array UInt8) :
    Packing.Ends (Packing.next? words c first (m + n)) n ⟨m / c * c, m / c, m % c, file⟩
      (overwrite file (first + m)
        (((((wordRows words).map (·.take c)).flatten.drop m).take n).map boolOfWord)) := by
  induction n generalizing m file with
  | zero =>
    obtain rfl : m = 0 := hm.resolve_right fun h => h rfl
    exact .stop (if_pos ⟨Nat.zero_mod c, Nat.zero_le _⟩)
  | succ n ih =>
    have hnext := next?_packing words hc first m n file
    have hword := getElem?_flatten_wordRows words hc hc' m
    cases hw : words[4 * (m / c) + m % c]? with
    | none =>
      rw [drop_of_length_le (getElem?_eq_none_iff.mp (hword.trans hw)), take_nil]
      rw [hw] at hnext
      exact .stop hnext
    | some w =>
      obtain ⟨hlt, hget⟩ := List.getElem?_eq_some_iff.mp (hword.trans hw)
      rw [drop_eq_getElem_cons hlt, hget, take_succ_cons, map_cons, overwrite]
      rw [hw] at hnext
      refine .step hnext ?_
      split_ifs with hn
      · subst hn
        exact .stop (if_pos ⟨rfl, Nat.le_refl _⟩)
      · have hrest := ih (m + 1) (.inr hn) (file.setIfInBounds (first + m) (boolOfWord w))
        rw [Nat.add_right_comm m 1 n] at hrest
        exact hrest

theorem ends_packing (hc' : c ≤ 4) (count : Nat) (file : Array UInt8) :
    Packing.Ends (Packing.next? words c first count) count ⟨0, 0, 0, file⟩
      (overwrite file first
        ((((wordRows words).map (·.take c)).flatten.take count).map boolOfWord)) := by
  simpa using ends_packing_from words hc first hc' 0 count (.inl rfl) file

end Packing

/-! ### Contents of the files -/

section Contents

variable {info : TypeInfo} {words : List Word} {s : Symbol}

theorem copiedBool_eq_some_iff (hset : s.registerSet = .bool)
    (hverbatim : isVerbatim info s = false) (r : Nat) (x : UInt8) :
    copiedBool info words s r = some x ↔ ∃ k < s.count, r = s.index + k ∧
      ∃ w, words[4 * (k / convertedColumns info) + k % convertedColumns info]? = some w ∧
        x = if w = 0 then 0 else 1 := by
  unfold copiedBool
  constructor
  · intro h
    split_ifs at h with hr
    obtain ⟨w, hw, rfl⟩ := Option.map_eq_some_iff.mp h
    exact ⟨r - s.index, by omega, by omega, w, hw, rfl⟩
  · rintro ⟨k, hk, rfl, w, hw, rfl⟩
    rw [if_pos ⟨by omega, by omega, hset, hverbatim⟩, Nat.add_sub_cancel_left, hw]
    rfl

theorem copiedFloat_eq_some_iff (hset : s.registerSet = .float4)
    (hverbatim : isVerbatim info s = false) (k : Nat) (x : Binary32) :
    copiedFloat info words s k = some x ↔ ∃ r < s.count, ∃ j < convertedColumns info,
      k = 4 * (s.index + r) + j ∧ ∃ w, words[4 * r + j]? = some w ∧
        x = Binary32.ofInt32 w.toInt32 := by
  have hcolumns := convertedColumns_le info
  unfold copiedFloat
  rw [hverbatim, if_neg Bool.false_ne_true]
  constructor
  · intro h
    split_ifs at h with hk hcolumn
    obtain ⟨w, hw, rfl⟩ := Option.map_eq_some_iff.mp h
    refine ⟨k / 4 - s.index, by omega, k % 4, hcolumn.2, by omega, w, ?_, rfl⟩
    rw [← hw]
    congr 1
    omega
  · rintro ⟨r, hr, j, hj, rfl, w, hw, rfl⟩
    have hcell : 4 * (s.index + r) + j - 4 * s.index = 4 * r + j := by omega
    rw [if_pos ⟨by omega, by omega⟩, if_pos ⟨hset, by omega⟩, hcell, hw]
    rfl

theorem copiedInt_eq_some_iff (hset : s.registerSet = .int4)
    (hverbatim : isVerbatim info s = false) (k : Nat) (x : Int32) :
    copiedInt info words s k = some x ↔ ∃ j < 4 * s.count, k = 4 * s.index + j ∧
      ∃ w, words[j]? = some w ∧ x = w.toInt32 := by
  unfold copiedInt
  constructor
  · intro h
    split_ifs at h with hk
    obtain ⟨w, hw, rfl⟩ := Option.map_eq_some_iff.mp h
    exact ⟨k - 4 * s.index, by omega, by omega, w, hw, rfl⟩
  · rintro ⟨j, hj, rfl, w, hw, rfl⟩
    rw [if_pos ⟨by omega, by omega, hset, hverbatim⟩, Nat.add_sub_cancel_left, hw]
    rfl

end Contents

theorem copyParameters_singleton {params : List Effect.Param} {n : Nat} {p : Effect.Param}
    {words : List Word} (hp : params[n]? = some p) (hwords : p.value.words = .ok words) (s : Symbol)
    (t : ParameterTarget) :
    copyParameters params [n] [s] t = t.write (wordWrites p.value.info words s) := by
  rw [← copyWords_eq, copyParameters, zip_cons_cons, zip_nil_left, foldl_cons,
    foldl_nil, copyParameter]
  simp [hp, hwords]

/-- A parameter that is neither of floats nor a structure for float registers fills the registers
of a symbol as far as it has words, and no other cell of any file. Boolean register `k` takes column
`k % c` of row `k / c`, for `c` columns, and the packing ends. Float registers take the columns of
one row each as numbers, and integer registers all words. -/
theorem conversions_fill {params : List Effect.Param} {n : Nat} {p : Effect.Param}
    {words : List Word} {s : Symbol} (hp : params[n]? = some p)
    (hwords : p.value.words = .ok words) (helem : p.value.info.elem ≠ .float)
    (hstruct : ¬(s.registerSet = .float4 ∧ p.value.info.cls = .struct)) (t : ParameterTarget) :
    let c := convertedColumns p.value.info
    let t' := copyParameters params [n] [s] t
    (s.registerSet = .bool → t'.floats = t.floats ∧ t'.ints = t.ints ∧
      t'.bools.isSome = t.bools.isSome ∧ ∀ file ∈ t.bools, ∃ file' ∈ t'.bools,
        Filled file file' (fun r x => ∃ k < s.count, r = s.index + k ∧
          ∃ w, words[4 * (k / c) + k % c]? = some w ∧ x = if w = 0 then 0 else 1) ∧
        Packing.Ends (Packing.next? words c s.index s.count) s.count ⟨0, 0, 0, file⟩ file') ∧
    (s.registerSet = .float4 → t'.ints = t.ints ∧ t'.bools = t.bools ∧
      Filled t.floats t'.floats fun k x => ∃ r < s.count, ∃ j < c,
        k = 4 * (s.index + r) + j ∧ ∃ w, words[4 * r + j]? = some w ∧
          x = Binary32.ofInt32 w.toInt32) ∧
    (s.registerSet = .int4 → t'.floats = t.floats ∧ t'.bools = t.bools ∧
      t'.ints.isSome = t.ints.isSome ∧ ∀ file ∈ t.ints, ∃ file' ∈ t'.ints,
        Filled file file' fun k x => ∃ j < 4 * s.count, k = 4 * s.index + j ∧
          ∃ w, words[j]? = some w ∧ x = w.toInt32) ∧
    (s.registerSet = .sampler → t' = t) := by
  have hverbatim : isVerbatim p.value.info s = false := by
    simpa [isVerbatim, helem] using hstruct
  intro c t'
  have ht' : t' = t.write (wordWrites p.value.info words s) :=
    copyParameters_singleton hp hwords s t
  rw [ht']
  refine ⟨fun hset => ?_, fun hset => ?_, fun hset => ?_, fun hset => ?_⟩
  · have hwrites : wordWrites p.value.info words s = ⟨[], [], [(s.index,
        (((wordRows words).map (·.take c)).flatten.take s.count).map boolOfWord)]⟩ := by
      simp [wordWrites, hset, hverbatim, c]
    refine ⟨by rw [hwrites]; rfl, by simp [hwrites, ParameterTarget.write], Option.isSome_map,
      fun file hfile => ⟨_, Option.mem_map_of_mem _ hfile, ?_, ?_⟩⟩
    · refine Writes.filled (fun r x => ?_) file
      rw [value?_wordWrites_bools]
      exact copiedBool_eq_some_iff hset hverbatim r x
    · rw [hwrites]
      exact ends_packing words (one_le_convertedColumns _) s.index (convertedColumns_le _)
        s.count file
  · refine ⟨?_, ?_, Writes.filled (fun k x => ?_) t.floats⟩
    · simp [wordWrites, hset, hverbatim, ParameterTarget.write]
    · simp [wordWrites, hset, hverbatim, ParameterTarget.write]
    · rw [value?_wordWrites_floats]
      exact copiedFloat_eq_some_iff hset hverbatim k x
  · refine ⟨?_, ?_, Option.isSome_map,
      fun file hfile => ⟨_, Option.mem_map_of_mem _ hfile, Writes.filled (fun k x => ?_) file⟩⟩
    · simp [wordWrites, hset, hverbatim, ParameterTarget.write]
    · simp [wordWrites, hset, hverbatim, ParameterTarget.write]
    · rw [value?_wordWrites_ints]
      exact copiedInt_eq_some_iff hset hverbatim k x
  · simp [wordWrites, hset, hverbatim, ParameterTarget.write]

def flagsParam : Effect.Param :=
  ⟨⟨some "flags", none, ⟨.matrixRows, .bool, 2, 3, 0, []⟩, .registers [1, 0, 7, 9, 0, 5, 0, 9]⟩, []⟩

/-- The fourth and the fifth register take the first columns of the second row, and the register
behind them keeps what it held. -/
theorem conversions_fill_flags :
    ∃ file', (copyParameters [flagsParam] [0] [⟨"flags", .bool, 1, 5, default⟩]
        ⟨#[], none, some #[9, 9, 9, 9, 9, 9, 9]⟩).bools = some file' ∧
      file'.size = 7 ∧ (file'[1]? = some 1 ∧ file'[2]? = some 0 ∧ file'[3]? = some 1 ∧
        file'[4]? = some 0 ∧ file'[5]? = some 1 ∧ file'[6]? = some 9) ∧
      Packing.Ends (Packing.next? [1, 0, 7, 9, 0, 5, 0, 9] 3 1 5) 5
        ⟨0, 0, 0, #[9, 9, 9, 9, 9, 9, 9]⟩ file' := by
  obtain ⟨-, -, -, hfill⟩ :=
    (@conversions_fill [flagsParam] 0 flagsParam _ ⟨"flags", .bool, 1, 5, default⟩ rfl rfl
      (by decide) (by decide) ⟨#[], none, some #[9, 9, 9, 9, 9, 9, 9]⟩).1 rfl
  obtain ⟨file', hfile', hfilled, hends⟩ := hfill _ rfl
  refine ⟨file', hfile', hfilled.size, ⟨?_, ?_, ?_, ?_, ?_, ?_⟩, hends⟩
  · exact hfilled.holds 1 1 ⟨0, by decide, rfl, 1, rfl, rfl⟩ (by decide)
  · exact hfilled.holds 2 0 ⟨1, by decide, rfl, 0, rfl, rfl⟩ (by decide)
  · exact hfilled.holds 3 1 ⟨2, by decide, rfl, 7, rfl, rfl⟩ (by decide)
  · exact hfilled.holds 4 0 ⟨3, by decide, rfl, 0, rfl, rfl⟩ (by decide)
  · exact hfilled.holds 5 1 ⟨4, by decide, rfl, 5, rfl, rfl⟩ (by decide)
  · refine hfilled.kept 6 ?_
    rintro x ⟨k, hk, hr, -⟩
    simp only at hk hr
    omega

end Device

end ShaderPipeline
