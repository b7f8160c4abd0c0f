import ShaderPipeline.Proofs.Effect.Trailing
import ShaderPipeline.Proofs.Effect.Typed

/-!
# Where the words of values come from

Numbers are stored packed and kept in rows of four words. A row of a value is found by the cells of
all rows before it: those of the same member, of the members before and, in an array of structures,
of the elements before. What is not stored is zero.
-/

namespace ShaderPipeline

open List

def TypeInfo.rowCount (info : TypeInfo) : Nat := info.rows * max info.elements 1 % 2 ^ 62

theorem TypeInfo.rowCount_eq_iff (info : TypeInfo) :
    info.rowCount = info.rows * max info.elements 1 ↔
      info.rows * max info.elements 1 < 2 ^ 62 :=
  ⟨fun h => h ▸ Nat.mod_lt _ (by decide), Nat.mod_eq_of_lt⟩

namespace Effect

variable {base : Bytes} {offset columns n : Nat} {ms : List Member} {m : Member}

/-- Four words from an index on: the first `columns` are the words at an offset, which are all
there, and the others are zero. -/
def RowAt (base : Bytes) (words : List Word) (index offset columns : Nat) : Prop :=
  ∀ j < 4,
    (j < columns → ∃ w, wordAt? base (offset + 4 * j) = some w ∧ words[index + j]? = some w) ∧
    (columns ≤ j → words[index + j]? = some 0)

/-! ### Rows one behind the other -/

theorem rowsFrom_append_rows {xs ys : List Nat} : rowsFrom base offset (xs ++ ys) [] =
    rowsFrom base offset xs [] ++ rowsFrom base (offset + 4 * xs.sum) ys [] := by
  induction xs generalizing offset with
  | nil => rfl
  | cons c xs ih =>
    rw [cons_append, rowsFrom_cons, rowsFrom_cons, ih, append_assoc, sum_cons,
      Nat.mul_add, Nat.add_assoc]

/-- A row comes from behind the cells of the rows before it. -/
theorem rowAt_rowsFrom {xs ys : List Nat}
    (h : offset + 4 * (xs ++ columns :: ys).sum ≤ base.size) :
    RowAt base (rowsFrom base offset (xs ++ columns :: ys) []) (4 * xs.length)
      (offset + 4 * xs.sum) columns := by
  rw [sum_append, sum_cons] at h
  intro j hj
  have hword : (rowsFrom base offset (xs ++ columns :: ys) [])[4 * xs.length + j]? =
      some (if j < columns then (wordAt? base (offset + 4 * xs.sum + 4 * j)).getD 0 else 0) := by
    rw [rowsFrom_append_rows, getElem?_append_right (by rw [length_rowsFrom]; omega),
      length_rowsFrom, Nat.add_sub_cancel_left, rowsFrom_cons,
      getElem?_append_left (by rwa [length_rowAt]), rowAt, getElem?_map, getElem?_range hj]
    rfl
  refine ⟨fun hstored => ?_, fun hpadding => ?_⟩
  · obtain ⟨w, hw⟩ :=
      exists_wordAt? (show offset + 4 * xs.sum + 4 * j + 4 ≤ base.size by omega)
    rw [hword, if_pos hstored, hw]
    exact ⟨w, rfl, rfl⟩
  · rw [hword, if_neg (Nat.not_lt.mpr hpadding)]

theorem rowAt_replicate {i : Nat} (hi : i < n)
    (h : replicate n columns ≠ [] → offset + 4 * (replicate n columns).sum ≤ base.size) :
    RowAt base (rowsFrom base offset (replicate n columns) []) (4 * i)
      (offset + 4 * (i * columns)) columns := by
  have hsplit : replicate n columns =
      replicate i columns ++ columns :: replicate (n - i - 1) columns := by
    rw [← replicate_succ, ← replicate_add]
    congr 1
    omega
  rw [hsplit] at h ⊢
  have hrow := rowAt_rowsFrom (h (by simp))
  rwa [length_replicate, sum_replicate_nat] at hrow

/-! ### Structures -/

def rowTotal (ms : List Member) : Nat := (ms.map fun m => m.info.rowCount).sum

def cellTotal (ms : List Member) : Nat := (ms.map fun m => m.info.rowCount * m.info.columns).sum

theorem rowCount_of_words_le (h : m.words ≤ maxValueWords) :
    m.info.rows * max m.info.elements 1 % 2 ^ 32 = m.info.rowCount ∧
      4 * m.info.rowCount = m.words := by
  rw [Member.words, maxValueWords, Nat.mul_assoc] at h
  rw [Member.words, Nat.mul_assoc, TypeInfo.rowCount]
  omega

section Members

variable (h : ∀ m ∈ ms, m.words ≤ maxValueWords)
include h

theorem length_memberRows_eq : (memberRows ms).length = rowTotal ms := by
  unfold memberRows rowTotal
  induction ms with
  | nil => rfl
  | cons m ms ih =>
    obtain ⟨hm, hms⟩ := forall_mem_cons.mp h
    rw [flatMap_cons, length_append, length_replicate, ih hms, map_cons,
      sum_cons, (rowCount_of_words_le hm).1]

theorem sum_memberRows : (memberRows ms).sum = cellTotal ms := by
  unfold memberRows cellTotal
  induction ms with
  | nil => rfl
  | cons m ms ih =>
    obtain ⟨hm, hms⟩ := forall_mem_cons.mp h
    rw [flatMap_cons, sum_append, sum_replicate_nat, ih hms, map_cons,
      sum_cons, (rowCount_of_words_le hm).1]

theorem structWords_eq : structWords ms = 4 * rowTotal ms := by
  rw [← length_memberRows h, length_memberRows_eq h]

end Members

theorem exists_member_of_lt {q : Nat} (hq : q < rowTotal ms) : ∃ before m after r,
    ms = before ++ m :: after ∧ r < m.info.rowCount ∧ q = rowTotal before + r := by
  induction ms generalizing q with
  | nil => exact absurd hq (Nat.not_lt_zero q)
  | cons m ms ih =>
    by_cases hfirst : q < m.info.rowCount
    · exact ⟨[], m, ms, q, rfl, hfirst, (Nat.zero_add q).symm⟩
    · have hrest : q - m.info.rowCount < rowTotal ms := by
        rw [rowTotal, map_cons, sum_cons] at hq
        rw [rowTotal]
        omega
      obtain ⟨before, m', after, r, hms, hr, hq'⟩ := ih hrest
      refine ⟨m :: before, m', after, r, congrArg (m :: ·) hms, hr, ?_⟩
      rw [rowTotal, map_cons, sum_cons, Nat.add_assoc]
      rw [rowTotal] at hq'
      omega

/-- The elements before one of them. -/
theorem exists_structRows_eq (ms : List Member) {elements e : Nat} (he : e < elements) : ∃ rest,
    structRows elements ms =
      (replicate e (memberRows ms)).flatten ++ (memberRows ms ++ rest) := by
  have hstruct : structRows elements ms = (replicate elements (memberRows ms)).flatten := by
    unfold structRows
    split
    · next hnil => rw [hnil, flatten_replicate_nil]
    · rfl
  have helements : elements = e + (elements - e - 1 + 1) := by omega
  rw [hstruct, helements, replicate_add, flatten_append, replicate_succ, flatten_cons]
  exact ⟨_, rfl⟩

/-- The members and rows before a row of a member. -/
theorem exists_memberRows_eq (before after : List Member) {r : Nat}
    (hsmall : m.words ≤ maxValueWords) (hr : r < m.info.rowCount) : ∃ rest,
    memberRows (before ++ m :: after) =
      memberRows before ++ (replicate r m.info.columns ++ m.info.columns :: rest) := by
  have hrows : m.info.rowCount = r + (m.info.rowCount - r - 1 + 1) := by omega
  unfold memberRows
  rw [flatMap_append, flatMap_cons, (rowCount_of_words_le hsmall).1, hrows,
    replicate_add, replicate_succ, append_assoc, cons_append]
  exact ⟨_, rfl⟩

/-- A row of a member of an element comes from behind the cells of all before it. -/
theorem rowAt_structRows {before after : List Member} {elements e r : Nat}
    (hsmall : ∀ m ∈ ms, m.words ≤ maxValueWords)
    (hroom : structRows elements ms ≠ [] → offset + 4 * (structRows elements ms).sum ≤ base.size)
    (he : e < elements) (hms : ms = before ++ m :: after) (hr : r < m.info.rowCount) :
    RowAt base (rowsFrom base offset (structRows elements ms) [])
      (e * (4 * rowTotal ms) + 4 * rowTotal before + 4 * r)
      (offset + 4 * (e * cellTotal ms + cellTotal before + r * m.info.columns)) m.info.columns := by
  have hbefore : ∀ m ∈ before, m.words ≤ maxValueWords := fun m hm =>
    hsmall m (hms ▸ mem_append_left _ hm)
  obtain ⟨rest, helement⟩ := exists_structRows_eq ms he
  obtain ⟨rest', hmember⟩ := exists_memberRows_eq before after
    (hsmall m (hms ▸ mem_append_right _ mem_cons_self)) hr
  rw [← hms] at hmember
  let xs := (replicate e (memberRows ms)).flatten ++
    (memberRows before ++ replicate r m.info.columns)
  have hsplit : structRows elements ms = xs ++ m.info.columns :: (rest' ++ rest) := by
    refine helement.trans ?_
    conv_lhs => arg 2; rw [hmember]
    simp only [xs, append_assoc, cons_append]
  have hlength : 4 * xs.length = e * (4 * rowTotal ms) + 4 * rowTotal before + 4 * r := by
    simp only [xs, length_append, length_flatten, map_replicate,
      sum_replicate_nat, length_replicate, length_memberRows_eq hsmall,
      length_memberRows_eq hbefore, Nat.mul_add, Nat.mul_left_comm 4 e, Nat.add_assoc]
  have hsum : xs.sum = e * cellTotal ms + cellTotal before + r * m.info.columns := by
    simp only [xs, sum_append, sum_flatten, map_replicate, sum_replicate_nat,
      sum_memberRows hsmall, sum_memberRows hbefore, Nat.add_assoc]
  rw [hsplit] at hroom ⊢
  rw [← hlength, ← hsum]
  exact rowAt_rowsFrom (hroom (by simp))

theorem exists_row_of_lt {elements k : Nat} (hk : k < elements * (4 * rowTotal ms)) :
    ∃ e < elements, ∃ before m after r j, ms = before ++ m :: after ∧ r < m.info.rowCount ∧ j < 4 ∧
      k = e * (4 * rowTotal ms) + 4 * rowTotal before + 4 * r + j := by
  have hpos : 0 < rowTotal ms := Nat.pos_of_ne_zero fun hzero => by simp [hzero] at hk
  obtain ⟨before, m, after, r, hms, hr, hq⟩ := exists_member_of_lt (Nat.mod_lt (k / 4) hpos)
  have hdiv := Nat.div_add_mod (k / 4) (rowTotal ms)
  rw [hq, Nat.mul_comm] at hdiv
  rw [Nat.mul_left_comm] at hk
  refine ⟨k / 4 / rowTotal ms, (Nat.div_lt_iff_lt_mul hpos).mpr (by omega), before, m, after, r,
    k % 4, hms, hr, by omega, ?_⟩
  rw [Nat.mul_left_comm]
  omega

/-! ### Values -/

def pairArray : Bytes :=
  (numberBytes [3, 5, 36, 36, 2, 1, 3, 1, 36, 0, 0, 2, 1, 7, 9, 8, 10]).toArray

end Effect

end ShaderPipeline
