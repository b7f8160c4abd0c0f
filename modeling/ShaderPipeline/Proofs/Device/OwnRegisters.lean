import ShaderPipeline.Proofs.Device.Copies

/-!
# Copies and the registers of symbols

A symbol names the register set that it lives in. Integers, booleans and structures are copied to
the registers of their symbol and to nothing else. Floats always go to the float file, also if their
symbol lives in another one, and there they change registers that nothing names.
-/

namespace ShaderPipeline

open Option

/-- The number of cells of a register of a set. Samplers have none. -/
def RegisterSet.cells : RegisterSet → Nat
  | .float4 | .int4 => 4
  | .bool => 1
  | .sampler => 0

def Symbol.Owns (s : Symbol) (set : RegisterSet) (k : Nat) : Prop :=
  s.registerSet = set ∧ set.cells * s.index ≤ k ∧ k < set.cells * (s.index + s.count)

namespace Device

/-- Files of the same sizes that differ only in cells that `owned` allows for their register set. -/
structure ParameterTarget.ChangedWithin (owned : RegisterSet → Nat → Prop)
    (t t' : ParameterTarget) : Prop where
  size_floats : t'.floats.size = t.floats.size
  size_ints : t'.ints.map Array.size = t.ints.map Array.size
  size_bools : t'.bools.map Array.size = t.bools.map Array.size
  floats : ∀ k, t'.floats[k]? ≠ t.floats[k]? → owned .float4 k
  ints : ∀ k, t'.ints.bind (·[k]?) ≠ t.ints.bind (·[k]?) → owned .int4 k
  bools : ∀ k, t'.bools.bind (·[k]?) ≠ t.bools.bind (·[k]?) → owned .bool k

variable (params : List Effect.Param) (links : List (Symbol × Nat))

def Owned (set : RegisterSet) (k : Nat) : Prop :=
  ∃ link ∈ links, (fed? params link).isSome ∧ link.1.Owns set k

def Stray (k : Nat) : Prop :=
  ∃ link ∈ links, link.1.registerSet ≠ .float4 ∧ ∃ info words,
    fed? params link = some (info, words) ∧ info.elem = .float ∧
      4 * link.1.index ≤ k ∧ k < 4 * (link.1.index + link.1.count) ∧
      k < 4 * link.1.index + words.length

section Cells

variable {info : TypeInfo} {words : List Word} {s : Symbol} {k : Nat}

theorem owns_of_copiedFloat {x : Binary32} (h : copiedFloat info words s k = some x) :
    s.Owns .float4 k ∨ s.registerSet ≠ .float4 ∧ info.elem = .float ∧ 4 * s.index ≤ k ∧
      k < 4 * (s.index + s.count) ∧ k < 4 * s.index + words.length := by
  unfold copiedFloat at h
  split_ifs at h with hk hverbatim hset
  · by_cases hset : s.registerSet = .float4
    · exact .inl ⟨hset, hk⟩
    · obtain ⟨w, hw, -⟩ := map_eq_some_iff.mp h
      have hlength := (List.getElem?_eq_some_iff.mp hw).1
      refine .inr ⟨hset, ?_, hk.1, hk.2, by omega⟩
      simpa [isVerbatim, hset] using hverbatim
  · exact .inl ⟨hset.1, hk⟩

theorem owns_of_copiedInt {x : Int32} (h : copiedInt info words s k = some x) :
    s.Owns .int4 k := by
  unfold copiedInt at h
  split_ifs at h with hk
  exact ⟨hk.2.2.1, hk.1, hk.2.1⟩

theorem owns_of_copiedBool {x : UInt8} (h : copiedBool info words s k = some x) :
    s.Owns .bool k := by
  unfold copiedBool at h
  split_ifs at h with hk
  refine ⟨hk.2.2.1, ?_, ?_⟩ <;> simp only [RegisterSet.cells, Nat.one_mul]
  exacts [hk.1, hk.2.1]

theorem isSome_copiedFloat (helem : info.elem = .float) (hfirst : 4 * s.index ≤ k)
    (hlast : k < 4 * (s.index + s.count)) (hword : k < 4 * s.index + words.length) :
    (copiedFloat info words s k).isSome := by
  have hverbatim : isVerbatim info s = true := by simp [isVerbatim, helem]
  have hlt : k - 4 * s.index < words.length := by omega
  rw [copiedFloat, if_pos ⟨hfirst, hlast⟩, if_pos hverbatim, List.getElem?_eq_getElem hlt]
  rfl

end Cells

theorem exists_of_map_getD_ne {α : Type} {before : Option α} {copied : Option α}
    (h : before.map copied.getD ≠ before) : ∃ a, copied = some a := by
  cases copied with
  | none => exact absurd map_id_apply h
  | some a => exact ⟨a, rfl⟩

theorem changedWithin_copyParameters (indices : List Nat) (symbols : List Symbol)
    (t : ParameterTarget) :
    t.ChangedWithin (fun set k => Owned params (symbols.zip indices) set k ∨
        set = .float4 ∧ Stray params (symbols.zip indices) k)
      (copyParameters params indices symbols t) where
  size_floats := by rw [copyParameters_eq]; exact Writes.size_apply _ _
  size_ints := by
    rw [copyParameters_eq, ParameterTarget.write, map_map]
    exact map_congr fun file _ => Writes.size_apply _ _
  size_bools := by
    rw [copyParameters_eq, ParameterTarget.write, map_map]
    exact map_congr fun file _ => Writes.size_apply _ _
  floats k h := by
    rw [getElem?_floats_copyParameters] at h
    obtain ⟨x, hx⟩ := exists_of_map_getD_ne h
    obtain ⟨link, hlink, info, words, hfed, hx⟩ := exists_of_lastCopied hx
    obtain howns | ⟨hset, hstray⟩ := owns_of_copiedFloat hx
    · exact .inl ⟨link, hlink, by rw [hfed]; rfl, howns⟩
    · exact .inr ⟨rfl, link, hlink, hset, info, words, hfed, hstray⟩
  ints k h := by
    rw [getElem?_ints_copyParameters] at h
    obtain ⟨x, hx⟩ := exists_of_map_getD_ne h
    obtain ⟨link, hlink, info, words, hfed, hx⟩ := exists_of_lastCopied hx
    exact .inl ⟨link, hlink, by rw [hfed]; rfl, owns_of_copiedInt hx⟩
  bools k h := by
    rw [getElem?_bools_copyParameters] at h
    obtain ⟨x, hx⟩ := exists_of_map_getD_ne h
    obtain ⟨link, hlink, info, words, hfed, hx⟩ := exists_of_lastCopied hx
    exact .inl ⟨link, hlink, by rw [hfed]; rfl, owns_of_copiedBool hx⟩

/-- What is copied to a cell is not there in every file. -/
theorem exists_changed_of_stray {params : List Effect.Param} {indices : List Nat}
    {symbols : List Symbol} {k : Nat} (h : Stray params (symbols.zip indices) k) :
    ∃ t : ParameterTarget, (copyParameters params indices symbols t).floats[k]? ≠ t.floats[k]? := by
  obtain ⟨link, hlink, -, info, words, hfed, helem, hfirst, hlast, hword⟩ := h
  obtain ⟨x, hx⟩ := isSome_iff_exists.mp
    (isSome_lastCopied (fun info words s => copiedFloat info words s k) hlink hfed
      (isSome_copiedFloat helem hfirst hlast hword))
  refine ⟨⟨Array.replicate (k + 1) ⟨x.bits + 1⟩, none, none⟩, fun heq => ?_⟩
  rw [getElem?_floats_copyParameters, hx] at heq
  have hbits : x.bits = x.bits + 1 := by simpa using congrArg (Option.map Binary32.bits) heq
  simp at hbits

/-- Copies keep the sizes of the files. They change cells in the registers of symbols that are fed,
each in the file of its own set, and besides only stray cells of the float file. All changes in all
files are in the registers of symbols exactly if the registers of float symbols hold every stray
cell. -/
theorem copies_own_registers_iff (params : List Effect.Param) (indices : List Nat)
    (symbols : List Symbol) :
    (∀ t : ParameterTarget, t.ChangedWithin (fun set k => Owned params (symbols.zip indices) set k ∨
        set = .float4 ∧ Stray params (symbols.zip indices) k)
      (copyParameters params indices symbols t)) ∧
    ((∀ t : ParameterTarget, t.ChangedWithin (Owned params (symbols.zip indices))
        (copyParameters params indices symbols t)) ↔
      ∀ k, Stray params (symbols.zip indices) k →
        Owned params (symbols.zip indices) .float4 k) := by
  refine ⟨changedWithin_copyParameters params indices symbols, fun h k hk => ?_, fun h t => ?_⟩
  · obtain ⟨t, ht⟩ := exists_changed_of_stray hk
    exact (h t).floats k ht
  · have hchanged := changedWithin_copyParameters params indices symbols t
    refine ⟨hchanged.size_floats, hchanged.size_ints, hchanged.size_bools, fun k hk => ?_,
      fun k hk => ?_, fun k hk => ?_⟩
    · exact (hchanged.floats k hk).elim id fun hstray => h k hstray.2
    · exact (hchanged.ints k hk).resolve_right (by simp)
    · exact (hchanged.bools k hk).resolve_right (by simp)

def tintParam : Effect.Param :=
  ⟨⟨some "tint", none, ⟨.vector, .float, 1, 4, 0, []⟩, .registers [1, 2, 3, 4]⟩, []⟩

def tintSymbol : Symbol := ⟨"tint", .int4, 0, 1, ⟨.vector, .int, 1, 4, 0, []⟩⟩

/-- Floats that feed an integer register change a float register, which no symbol names. -/
theorem copies_own_registers_iff_tint :
    ¬∀ t : ParameterTarget, t.ChangedWithin (Owned [tintParam] ([tintSymbol].zip [0]))
      (copyParameters [tintParam] [0] [tintSymbol] t) := by
  intro h
  have hstray : Stray [tintParam] ([tintSymbol].zip [0]) 0 :=
    ⟨_, List.mem_cons_self, by decide, _, _, rfl, rfl, by decide, by decide, by decide⟩
  obtain ⟨link, hlink, -, hset, -⟩ :=
    (copies_own_registers_iff [tintParam] [0] [tintSymbol]).2.mp h 0 hstray
  rw [List.mem_singleton.mp hlink] at hset
  exact absurd hset (by decide)

end Device

end ShaderPipeline
