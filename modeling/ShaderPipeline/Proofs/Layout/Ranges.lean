import Mathlib.Data.List.Basic
import Mathlib.Data.Nat.Basic
import Mathlib.Tactic.SplitIfs
import ShaderPipeline.Layout.Ranges

/-!
# Relatively addressed ranges are apart

The ranges that the relative accesses of a shader reach are in order, none is empty, and there is a
gap between any two of them. Together they have the registers that the accesses may reach one by
one.
-/

namespace ShaderPipeline

open List RegisterRange

variable {r : RegisterRange} {rest : List RegisterRange}

theorem RegisterRange.contains_iff {n : Nat} :
    r.contains n = true ↔ r.base ≤ n ∧ n < r.base + r.count := by
  simp [contains]

/-- Ranges have been merged: there are gaps between those that are left, none is empty, and no
register was added or lost. -/
structure Merged (ranges merged : List RegisterRange) : Prop where
  gaps : merged.Pairwise fun a b => a.base + a.count < b.base
  count_pos : ∀ r ∈ merged, 0 < r.count
  contains_iff : ∀ n, (∃ r ∈ merged, r.contains n = true) ↔ ∃ r ∈ ranges, r.contains n = true

/-- Merging from a range on gives only ranges that do not start before it. -/
theorem merged_mergeFrom (h : (r :: rest).Pairwise fun a b => a.base ≤ b.base)
    (hpos : ∀ s ∈ r :: rest, 0 < s.count) :
    Merged (r :: rest) (mergeFrom r rest) ∧ ∀ x ∈ mergeFrom r rest, r.base ≤ x.base := by
  induction rest generalizing r with
  | nil => exact ⟨⟨pairwise_singleton _ _, hpos, fun n => Iff.rfl⟩, by simp [mergeFrom]⟩
  | cons s rest ih =>
    obtain ⟨hr, hrest⟩ := pairwise_cons.mp h
    obtain ⟨hs, htail⟩ := pairwise_cons.mp hrest
    obtain ⟨hrpos, hspos⟩ := forall_mem_cons.mp hpos
    have hrs := hr s mem_cons_self
    rw [mergeFrom]
    split_ifs with htouch
    · have hmerged : ∀ y ∈ rest, r.base ≤ y.base := fun y hy => hr y (mem_cons_of_mem _ hy)
      obtain ⟨⟨hgaps, hcount, hunion⟩, hbase⟩ :=
        ih (r := ⟨r.base, max r.count (s.base + s.count - r.base)⟩)
          (pairwise_cons.mpr ⟨hmerged, htail⟩)
          (forall_mem_cons.mpr ⟨lt_of_lt_of_le hrpos (le_max_left _ _), fun y hy =>
            hspos y (mem_cons_of_mem _ hy)⟩)
      refine ⟨⟨hgaps, hcount, fun n => (hunion n).trans ?_⟩, hbase⟩
      simp only [exists_mem_cons_iff, ← or_assoc]
      refine or_congr_left ?_
      simp only [contains_iff]
      omega
    · obtain ⟨⟨hgaps, hcount, hunion⟩, hbase⟩ := ih hrest hspos
      refine ⟨⟨pairwise_cons.mpr ⟨fun x hx => ?_, hgaps⟩, forall_mem_cons.mpr ⟨hrpos, hcount⟩,
        fun n => ?_⟩, forall_mem_cons.mpr ⟨le_refl _, fun x hx => le_trans hrs (hbase x hx)⟩⟩
      · have := hbase x hx
        omega
      · rw [exists_mem_cons_iff, hunion, exists_mem_cons_iff _ r]

/-- The range of an access is not empty: it has the register that the access starts from. -/
theorem count_pos_accessedRange (v : Version) (symbols : List Symbol) (n : Nat) :
    0 < (accessedRange v symbols n).count := by
  unfold accessedRange
  cases hfound : symbols.find? fun s => s.registerSet == .float4 && s.covers n with
  | none => exact lt_of_lt_of_le (Nat.succ_pos n) (le_max_right _ _)
  | some s =>
    have hcovers := find?_some hfound
    simp only [Symbol.covers, Bool.and_eq_true, decide_eq_true_eq] at hcovers
    dsimp only
    omega

theorem RegisterRange.le_iff {s : RegisterRange} :
    r.le s = true ↔ r.base < s.base ∨ r.base = s.base ∧ r.count ≤ s.count := by
  simp [le]

section Relative

variable (v : Version) (symbols : List Symbol) (accesses : List Nat)

theorem merged_relativeRanges :
    Merged (accesses.map (accessedRange v symbols)) (relativeRanges v symbols accesses) := by
  have hsorted : ((accesses.map (accessedRange v symbols)).mergeSort le).Pairwise
      fun a b => a.base ≤ b.base := by
    refine (pairwise_mergeSort (fun a b c => ?_) (fun a b => ?_) _).imp fun {a b} hab => ?_
    · simp only [le_iff]
      omega
    · simp only [Bool.or_eq_true, le_iff]
      omega
    · rw [le_iff] at hab
      omega
  have hpos : ∀ s ∈ (accesses.map (accessedRange v symbols)).mergeSort le, 0 < s.count := by
    intro s hs
    obtain ⟨n, -, rfl⟩ := mem_map.mp (mem_mergeSort.mp hs)
    exact count_pos_accessedRange v symbols n
  have hmem : ∀ s, s ∈ (accesses.map (accessedRange v symbols)).mergeSort le ↔
      s ∈ accesses.map (accessedRange v symbols) := fun s => mem_mergeSort
  unfold relativeRanges
  cases hranges : (accesses.map (accessedRange v symbols)).mergeSort le with
  | nil =>
    simp only [hranges, not_mem_nil, false_iff] at hmem
    exact ⟨.nil, by simp [mergeRanges], fun n => by simp [mergeRanges, hmem]⟩
  | cons r rest =>
    rw [hranges] at hsorted hpos hmem
    obtain ⟨⟨hgaps, hcount, hunion⟩, -⟩ := merged_mergeFrom hsorted hpos
    exact ⟨hgaps, hcount, fun n => by simp only [mergeRanges, hunion, hmem]⟩

theorem count_pos_of_mem_relativeRanges (hr : r ∈ relativeRanges v symbols accesses) :
    0 < r.count :=
  (merged_relativeRanges v symbols accesses).count_pos r hr

theorem exists_relativeRange_contains_iff {n : Nat} :
    (∃ r ∈ relativeRanges v symbols accesses, r.contains n = true) ↔
      ∃ m ∈ accesses, (accessedRange v symbols m).contains n = true := by
  rw [(merged_relativeRanges v symbols accesses).contains_iff n]
  simp

end Relative

end ShaderPipeline
