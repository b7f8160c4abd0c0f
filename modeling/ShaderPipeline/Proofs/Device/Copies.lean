import ShaderPipeline.Proofs.Device.Writes

/-!
# What copies leave in a cell

A copy of a parameter to the registers of a symbol reaches a cell exactly if the cell is in these
registers and the parameter has a word for it. Of several copies, the last one that reaches a cell
decides about it.
-/

namespace ShaderPipeline

open List Writes Option

variable {params : List Effect.Param} {links : List (Symbol × Nat)}

/-! ### Single writes -/

theorem Writes.value?_append {α : Type} (ws ws' : Writes α) (k : Nat) :
    (ws ++ ws').value? k = (ws'.value? k).or (ws.value? k) := by
  induction ws with
  | nil => simp [value?]
  | cons w rest ih => rw [cons_append, value?, ih, value?, Option.or_assoc]

/-- A write of at most `n` values. -/
theorem Writes.value?_window {α β : Type} (start n : Nat) (xs : List β) (f : β → α) (k : Nat) :
    value? [(start, (xs.take n).map f)] k =
      if start ≤ k ∧ k < start + n then xs[k - start]?.map f else none := by
  change (if start ≤ k then ((xs.take n).map f)[k - start]? else none) = _
  rw [getElem?_map, getElem?_take, ite_and]
  refine ite_congr rfl (fun hk => ?_) fun _ => rfl
  rw [apply_ite (Option.map f)]
  exact if_congr (by omega) rfl rfl

namespace Device

open ParameterTarget

variable {α : Type} {words : List Word} {info : TypeInfo} {s : Symbol}

/-! ### Rows -/

theorem one_le_convertedColumns (info : TypeInfo) : 1 ≤ convertedColumns info := by
  unfold convertedColumns
  omega

theorem convertedColumns_le (info : TypeInfo) : convertedColumns info ≤ 4 := Nat.min_le_right _ _

theorem wordRows_eq (h : words ≠ []) :
    wordRows words = words.take 4 :: wordRows (words.drop 4) := by
  match words, h with
  | [_], _ | [_, _], _ | [_, _, _], _ | _ :: _ :: _ :: _ :: _, _ => rfl

theorem getElem?_wordRows (words : List Word) (r : Nat) : (wordRows words)[r]? =
    if 4 * r < words.length then some ((words.drop (4 * r)).take 4) else none := by
  induction r generalizing words with
  | zero =>
    by_cases hwords : words = []
    · simp [hwords, wordRows]
    · rw [wordRows_eq hwords]
      simp [length_pos_iff, hwords]
  | succ r ih =>
    by_cases hwords : words = []
    · simp [hwords, wordRows]
    · rw [wordRows_eq hwords, getElem?_cons_succ, ih, length_drop, drop_drop,
        Nat.mul_succ, Nat.add_comm 4]
      exact if_congr (by omega) rfl rfl

theorem length_le_of_mem_wordRows {row : List Word} (h : row ∈ wordRows words) :
    row.length ≤ 4 := by
  obtain ⟨r, hr⟩ := mem_iff_getElem?.mp h
  rw [getElem?_wordRows] at hr
  split_ifs at hr
  obtain rfl := some.inj hr
  exact length_take_le _ _

theorem getElem?_cut_wordRows (words : List Word) (c r : Nat) {j : Nat} (hj : j < 4) :
    ((wordRows words).map (·.take c))[r]?.bind (·[j]?) =
      if j < c then words[4 * r + j]? else none := by
  rw [getElem?_map, getElem?_wordRows]
  by_cases hr : 4 * r < words.length
  · rw [if_pos hr, map_some, bind_some, getElem?_take, getElem?_take, if_pos hj, getElem?_drop]
  · rw [if_neg hr, getElem?_eq_none (by omega), ite_self]
    rfl

/-- Rows that are cut to `c` columns and put side by side. -/
theorem getElem?_flatten_wordRows (words : List Word) {c : Nat} (hc : 1 ≤ c) (hc' : c ≤ 4)
    (k : Nat) :
    ((wordRows words).map (·.take c)).flatten[k]? = words[4 * (k / c) + k % c]? := by
  induction k using Nat.strong_induction_on generalizing words with
  | _ k ih =>
  by_cases hwords : words = []
  · simp [hwords, wordRows]
  rw [wordRows_eq hwords, map_cons, flatten_cons, take_take, Nat.min_eq_left hc',
    getElem?_append, length_take]
  by_cases hk : k < c
  · rw [Nat.div_eq_of_lt hk, Nat.mod_eq_of_lt hk, Nat.mul_zero, Nat.zero_add]
    split_ifs with hlt
    · exact getElem?_take_of_lt hk
    · have hshort : words.length ≤ k := by omega
      rw [drop_of_length_le (by omega), getElem?_eq_none hshort]
      rfl
  · obtain ⟨k, rfl⟩ := Nat.exists_eq_add_of_le (Nat.not_lt.mp hk)
    rw [if_neg (by omega), Nat.add_div_left _ hc, Nat.add_mod_left]
    by_cases hlt : c ≤ words.length
    · rw [Nat.min_eq_left hlt, Nat.add_sub_cancel_left, ih k (by omega), getElem?_drop]
      congr 1
      rw [Nat.mul_succ]
      omega
    · have hpast : words.length ≤ 4 * (k / c).succ + k % c := by
        rw [Nat.mul_succ]
        omega
      rw [drop_of_length_le (by omega), getElem?_eq_none hpast]
      rfl

theorem value?_rowWrites (start : Nat) {rows : List (List α)}
    (hrows : ∀ row ∈ rows, row.length ≤ 4) (k : Nat) :
    (rowWrites start rows).value? k =
      if start ≤ k then rows[(k - start) / 4]?.bind (·[(k - start) % 4]?) else none := by
  induction rows generalizing start with
  | nil => simp [rowWrites, value?]
  | cons row rest ih =>
    rw [forall_mem_cons] at hrows
    rw [rowWrites, value?, ih (start + 4) hrows.2]
    by_cases hrow : k < start + 4
    · rw [if_neg (by omega), none_or]
      refine ite_congr rfl (fun hk => ?_) fun _ => rfl
      rw [Nat.div_eq_of_lt (by omega), Nat.mod_eq_of_lt (by omega)]
      rfl
    · obtain ⟨j, rfl⟩ := Nat.exists_eq_add_of_le (Nat.not_lt.mp hrow)
      have hj : start + 4 + j - start = j + 4 := by omega
      rw [if_pos (by omega), if_pos (by omega), hj, Nat.add_sub_cancel_left,
        Nat.add_div_right _ (by decide), Nat.add_mod_right, getElem?_cons_succ,
        getElem?_eq_none (l := row) (by omega), or_none, if_pos (by omega)]

/-- The first `n` rows, cut to `c` columns and written one register apart. -/
theorem value?_cut_wordRows (start c n : Nat) (f : Word → α) (words : List Word) (k : Nat) :
    (rowWrites start ((((wordRows words).map (·.take c)).take n).map (·.map f))).value? k =
      if start ≤ k ∧ k < start + 4 * n ∧ (k - start) % 4 < c then words[k - start]?.map f
      else none := by
  have hrows : ∀ row ∈ (((wordRows words).map (·.take c)).take n).map (·.map f),
      row.length ≤ 4 := by
    intro row hrow
    obtain ⟨cut, hcut, rfl⟩ := mem_map.mp hrow
    obtain ⟨whole, hwhole, rfl⟩ := mem_map.mp (mem_of_mem_take hcut)
    rw [length_map]
    exact (length_take_le' _ _).trans (length_le_of_mem_wordRows hwhole)
  rw [value?_rowWrites _ hrows, ite_and]
  refine ite_congr rfl (fun hk => ?_) fun _ => rfl
  have hcell : 4 * ((k - start) / 4) + (k - start) % 4 = k - start := Nat.div_add_mod _ _
  have hcut := getElem?_cut_wordRows words c ((k - start) / 4)
    (Nat.mod_lt (k - start) (by decide : 0 < 4))
  rw [getElem?_map, getElem?_take, ite_and]
  by_cases hlast : k < start + 4 * n
  · rw [if_pos (by omega), if_pos hlast]
    refine Eq.trans ?_ ((congrArg (Option.map f) hcut).trans ?_)
    · cases ((wordRows words).map (·.take c))[(k - start) / 4]? with
      | none => rfl
      | some row => exact getElem?_map
    · rw [hcell, apply_ite (Option.map f), map_none]
  · rw [if_neg (by omega), if_neg hlast]
    rfl

/-! ### One copy -/

def copiedFloat (info : TypeInfo) (words : List Word) (s : Symbol) (k : Nat) : Option Binary32 :=
  if 4 * s.index ≤ k ∧ k < 4 * (s.index + s.count) then
    if isVerbatim info s then words[k - 4 * s.index]?.map Binary32.mk
    else if s.registerSet = .float4 ∧ k % 4 < convertedColumns info then
      words[k - 4 * s.index]?.map floatOfWord
    else none
  else none

def copiedInt (info : TypeInfo) (words : List Word) (s : Symbol) (k : Nat) : Option Int32 :=
  if 4 * s.index ≤ k ∧ k < 4 * (s.index + s.count) ∧ s.registerSet = .int4 ∧
      isVerbatim info s = false then
    words[k - 4 * s.index]?.map (·.toInt32)
  else none

/-- What the copy of words to the registers of a symbol leaves in a boolean register. The registers
take the columns of one row after the other. -/
def copiedBool (info : TypeInfo) (words : List Word) (s : Symbol) (k : Nat) : Option UInt8 :=
  if s.index ≤ k ∧ k < s.index + s.count ∧ s.registerSet = .bool ∧ isVerbatim info s = false then
    words[4 * ((k - s.index) / convertedColumns info) +
      (k - s.index) % convertedColumns info]?.map boolOfWord
  else none

theorem value?_wordWrites_floats (info : TypeInfo) (words : List Word) (s : Symbol) (k : Nat) :
    (wordWrites info words s).floats.value? k = copiedFloat info words s k := by
  unfold wordWrites copiedFloat
  by_cases hverbatim : isVerbatim info s = true
  · simp only [hverbatim, if_true, value?_window, Nat.mul_add]
  · simp only [if_neg hverbatim]
    cases hset : s.registerSet with
    | float4 =>
      simp only [true_and, value?_cut_wordRows, Nat.mul_add, ← ite_and, and_assoc]
      refine if_congr ?_ rfl rfl
      exact and_congr_right fun hk => and_congr_right fun _ => by
        rw [show (k - 4 * s.index) % 4 = k % 4 by omega]
    | int4 | bool | sampler => simp [value?]

theorem value?_wordWrites_ints (info : TypeInfo) (words : List Word) (s : Symbol) (k : Nat) :
    (wordWrites info words s).ints.value? k = copiedInt info words s k := by
  unfold wordWrites copiedInt
  by_cases hverbatim : isVerbatim info s = true
  · simp [hverbatim, value?]
  · simp only [if_neg hverbatim]
    cases hset : s.registerSet with
    | int4 => simp only [value?_window, Nat.mul_add, hverbatim, and_true]
    | float4 | bool | sampler => simp [value?]

theorem value?_wordWrites_bools (info : TypeInfo) (words : List Word) (s : Symbol) (k : Nat) :
    (wordWrites info words s).bools.value? k = copiedBool info words s k := by
  unfold wordWrites copiedBool
  by_cases hverbatim : isVerbatim info s = true
  · simp [hverbatim, value?]
  · simp only [if_neg hverbatim]
    cases hset : s.registerSet with
    | bool =>
      simp only [value?_window, hverbatim, and_true, getElem?_flatten_wordRows words
        (one_le_convertedColumns info) (convertedColumns_le info)]
    | float4 | int4 | sampler => simp [value?]

/-! ### Copies in turn -/

/-- The words that feed a symbol, and their type. Without a parameter or without words there is
nothing to copy. -/
def fed? (params : List Effect.Param) (link : Symbol × Nat) : Option (TypeInfo × List Word) :=
  params[link.2]?.bind fun p => p.value.words.toOption.map fun words => (p.value.info, words)

/-- What the last of several copies that reach a cell leaves there. -/
def lastCopied (params : List Effect.Param) (links : List (Symbol × Nat))
    (copied : TypeInfo → List Word → Symbol → Option α) : Option α :=
  links.reverse.findSome? fun link => (fed? params link).bind fun x => copied x.1 x.2 link.1

theorem lastCopied_cons (params : List Effect.Param) (link : Symbol × Nat)
    (rest : List (Symbol × Nat)) (copied : TypeInfo → List Word → Symbol → Option α) :
    lastCopied params (link :: rest) copied = (lastCopied params rest copied).or
      ((fed? params link).bind fun x => copied x.1 x.2 link.1) := by
  unfold lastCopied
  rw [reverse_cons, findSome?_append, findSome?_singleton]

section Links

variable (params : List Effect.Param) (links : List (Symbol × Nat)) (k : Nat)

/-- What the writes of several copies leave in a cell, if `writes` picks those to one file. -/
theorem value?_linkWrites (writes : ParameterWrites → Writes α)
    (copied : TypeInfo → List Word → Symbol → Nat → Option α)
    (hnil : writes ⟨[], [], []⟩ = [])
    (happend : ∀ w w' : ParameterWrites, writes ⟨w.floats ++ w'.floats, w.ints ++ w'.ints,
      w.bools ++ w'.bools⟩ = writes w ++ writes w')
    (hword : ∀ info words s k,
      (writes (wordWrites info words s)).value? k = copied info words s k) :
    (writes (linkWrites params links)).value? k =
      lastCopied params links fun info words s => copied info words s k := by
  induction links with
  | nil =>
    rw [linkWrites, hnil]
    rfl
  | cons link rest ih =>
    obtain ⟨s, n⟩ := link
    rw [lastCopied_cons, linkWrites, fed?]
    cases params[n]? with
    | none => simp [ih]
    | some p =>
      cases hwords : p.value.words with
      | error e => simp [hwords, ih, Except.toOption]
      | ok ws => simp [hwords, happend, value?_append, ih, hword, Except.toOption]

theorem value?_linkWrites_floats : (linkWrites params links).floats.value? k =
    lastCopied params links fun info words s => copiedFloat info words s k :=
  value?_linkWrites params links k ParameterWrites.floats _ rfl (fun _ _ => rfl)
    value?_wordWrites_floats

theorem value?_linkWrites_ints : (linkWrites params links).ints.value? k =
    lastCopied params links fun info words s => copiedInt info words s k :=
  value?_linkWrites params links k ParameterWrites.ints _ rfl (fun _ _ => rfl)
    value?_wordWrites_ints

theorem value?_linkWrites_bools : (linkWrites params links).bools.value? k =
    lastCopied params links fun info words s => copiedBool info words s k :=
  value?_linkWrites params links k ParameterWrites.bools _ rfl (fun _ _ => rfl)
    value?_wordWrites_bools

end Links

theorem exists_of_lastCopied {copied : TypeInfo → List Word → Symbol → Option α} {a : α}
    (h : lastCopied params links copied = some a) :
    ∃ link ∈ links, ∃ info words, fed? params link = some (info, words) ∧
      copied info words link.1 = some a := by
  obtain ⟨link, hlink, ha⟩ := exists_of_findSome?_eq_some h
  obtain ⟨⟨info, words⟩, hfed, ha⟩ := bind_eq_some_iff.mp ha
  exact ⟨link, mem_reverse.mp hlink, info, words, hfed, ha⟩

/-- If one copy reaches a cell, something is left there. -/
theorem isSome_lastCopied (copied : TypeInfo → List Word → Symbol → Option α)
    {link : Symbol × Nat} (hlink : link ∈ links) (hfed : fed? params link = some (info, words))
    (h : (copied info words link.1).isSome) : (lastCopied params links copied).isSome := by
  rw [lastCopied, findSome?_isSome_iff]
  refine ⟨link, mem_reverse.mpr hlink, ?_⟩
  rwa [hfed, bind_some]

section Files

variable (params : List Effect.Param) (indices : List Nat) (symbols : List Symbol)
  (t : ParameterTarget) (k : Nat)

theorem getElem?_floats_copyParameters :
    (copyParameters params indices symbols t).floats[k]? =
      t.floats[k]?.map (lastCopied params (symbols.zip indices)
        fun info words s => copiedFloat info words s k).getD := by
  rw [copyParameters_eq, write, getElem?_apply, value?_linkWrites_floats]

theorem getElem?_ints_copyParameters :
    (copyParameters params indices symbols t).ints.bind (·[k]?) =
      (t.ints.bind (·[k]?)).map (lastCopied params (symbols.zip indices)
        fun info words s => copiedInt info words s k).getD := by
  rw [copyParameters_eq, write]
  cases t.ints with
  | none => rfl
  | some file => exact (getElem?_apply _ _ _).trans (by rw [value?_linkWrites_ints]; rfl)

theorem getElem?_bools_copyParameters :
    (copyParameters params indices symbols t).bools.bind (·[k]?) =
      (t.bools.bind (·[k]?)).map (lastCopied params (symbols.zip indices)
        fun info words s => copiedBool info words s k).getD := by
  rw [copyParameters_eq, write]
  cases t.bools with
  | none => rfl
  | some file => exact (getElem?_apply _ _ _).trans (by rw [value?_linkWrites_bools]; rfl)

end Files

end Device

end ShaderPipeline
