import Mathlib.Data.List.Pairwise
import ShaderPipeline.Proofs.Layout.Slots

/-!
# Arrays of relatively addressed registers

Each relative access asks for the registers of the first float symbol around the register it starts
from, or for the whole register file. The arrays of a layout hold exactly the registers asked for:
they come in order with gaps between them, so each access has one array of its own to index into.
-/

namespace ShaderPipeline

open List RegisterRange

variable {v : Version} {symbols : List Symbol} {s : Symbol} {m n : Nat}

/-- A symbol is a range of float registers around a register. -/
def Symbol.Spans (s : Symbol) (n : Nat) : Prop :=
  s.registerSet = .float4 ∧ s.index ≤ n ∧ n < s.index + s.count

/-- Register `n` is asked for by a relative access from register `m`: it is in the first symbol
around `m`, or there is none and it is in the register file, taken to hold `m` at least. -/
inductive Requested (v : Version) (symbols : List Symbol) (m n : Nat) : Prop
  | symbol {before after : List Symbol} {s : Symbol} (split : symbols = before ++ s :: after)
      (first : ∀ t ∈ before, ¬t.Spans m) (around : s.Spans m) (reached : s.Spans n)
  | file (none : ∀ t ∈ symbols, ¬t.Spans m) (reached : n < max v.floatRegisters (m + 1))

theorem Symbol.spans_iff : (s.registerSet == .float4 && s.covers m) = true ↔ s.Spans m := by
  simp [Spans, covers]

theorem find?_spans_eq_some_iff :
    (symbols.find? fun s => s.registerSet == .float4 && s.covers m) = some s ↔
      s.Spans m ∧ ∃ before after, symbols = before ++ s :: after ∧ ∀ t ∈ before, ¬t.Spans m := by
  simp only [find?_eq_some_iff_append, Bool.not_eq_true', ← Bool.not_eq_true, Symbol.spans_iff]

theorem contains_accessedRange_iff :
    (accessedRange v symbols m).contains n = true ↔ Requested v symbols m n := by
  rw [accessedRange, contains_iff]
  cases hfound : symbols.find? fun s => s.registerSet == .float4 && s.covers m with
  | none =>
    have hnone : ∀ t ∈ symbols, ¬t.Spans m := by
      simpa only [find?_eq_none, Symbol.spans_iff] using hfound
    refine ⟨fun h => .file hnone (by simpa using h), ?_⟩
    rintro (⟨rfl, -, hs, -⟩ | ⟨-, hn⟩)
    · exact absurd hs (hnone _ (by simp))
    · simpa using hn
  | some s =>
    obtain ⟨hs, before, after, hsplit, hbefore⟩ := find?_spans_eq_some_iff.mp hfound
    refine ⟨fun h => .symbol hsplit hbefore hs ⟨hs.1, h⟩, ?_⟩
    rintro (⟨hsplit', hbefore', hs', hn⟩ | ⟨hnone, -⟩)
    · -- There is only one first symbol.
      have hfound' := find?_spans_eq_some_iff.mpr ⟨hs', _, _, hsplit', hbefore'⟩
      obtain rfl := Option.some.inj (hfound.symm.trans hfound')
      exact hn.2
    · exact absurd hs (hnone s (by simp [hsplit]))

theorem requested_self (v : Version) (symbols : List Symbol) (m : Nat) :
    Requested v symbols m m := by
  rw [← contains_accessedRange_iff, contains_iff, accessedRange]
  cases hfound : symbols.find? fun s => s.registerSet == .float4 && s.covers m with
  | none => exact ⟨Nat.zero_le m, by simp⟩
  | some s => exact (find?_spans_eq_some_iff.mp hfound).1.2

theorem eq_of_contains {ranges : List RegisterRange} {r r' : RegisterRange}
    (hgaps : ranges.Pairwise fun a b => a.base + a.count < b.base) (hr : r ∈ ranges)
    (hr' : r' ∈ ranges) (h : r.contains n = true) (h' : r'.contains n = true) : r = r' := by
  by_contra hne
  have : Std.Symm fun a b : RegisterRange => a.contains n = true → ¬b.contains n = true :=
    ⟨fun _ _ hab hb ha => hab ha hb⟩
  have hapart : ranges.Pairwise fun a b => a.contains n = true → ¬b.contains n = true :=
    hgaps.imp fun {a b} hab => by simp only [contains_iff]; omega
  exact hapart.forall hr hr' hne h h'

/-- Taking one of two kinds out of a merged list leaves the list of the other. -/
theorem filter_merge_eq_right {α : Type} {le : α → α → Bool} {p : α → Bool} {xs ys : List α}
    (hxs : ∀ x ∈ xs, p x = false) (hys : ∀ y ∈ ys, p y = true) :
    (xs.merge ys le).filter p = ys := by
  fun_induction List.merge xs ys le with
  | case1 => simpa using hys
  | case2 => simpa using hxs
  | case3 x xs y ys h ih =>
    rw [filter_cons_of_neg (by simpa using hxs x mem_cons_self)]
    exact ih (fun z hz => hxs z (mem_cons_of_mem _ hz)) hys
  | case4 x xs y ys h ih =>
    rw [filter_cons_of_pos (hys y mem_cons_self), ih hxs fun z hz => hys z (mem_cons_of_mem _ hz)]

/-- The arrays of a layout are the merged ranges, in their order. -/
theorem arrays_ofSurvey (e : Surroundings) (symbols : List Symbol) (w : Survey) :
    (Layout.ofSurvey e symbols w).arrays =
      (relativeRanges e.version symbols w.relative).map (arrayUniform w.floatDefs) := by
  refine filter_merge_eq_right (fun u hu => ?_) fun u hu => ?_
  · obtain ⟨n, -, rfl⟩ := mem_map.mp hu
    rfl
  · obtain ⟨r, hr, rfl⟩ := mem_map.mp hu
    exact decide_eq_true (count_pos_of_mem_relativeRanges _ _ _ hr)

/-- For any accesses and symbols, the arrays are in order, with a gap after each, none is empty, and
together they have the registers asked for. So every access has exactly one array, and an array is
constant if each of its registers is defined. -/
theorem arrays_cover_requests (e : Surroundings) (symbols : List Symbol) (w : Survey) :
    let arrays := (Layout.ofSurvey e symbols w).arrays
    (arrays.Pairwise fun a b => a.index + a.arrayCount < b.index) ∧
    (∀ a ∈ arrays, 1 ≤ a.arrayCount ∧ ∀ n,
      a.covers n = true ↔ a.index ≤ n ∧ n < a.index + a.arrayCount) ∧
    (∀ n, (∃ a ∈ arrays, a.covers n = true) ↔ ∃ m ∈ w.relative, Requested e.version symbols m n) ∧
    (∀ m ∈ w.relative, ∃! a, a ∈ arrays ∧ a.covers m = true) ∧
    ∀ a ∈ arrays, a.constant = true ↔
      ∀ n, a.covers n = true → (w.floatDefs.lookup n).isSome = true := by
  obtain ⟨hgaps, hpos, -⟩ := merged_relativeRanges e.version symbols w.relative
  have hunion : ∀ n, (∃ r ∈ relativeRanges e.version symbols w.relative, r.contains n = true) ↔
      ∃ m ∈ w.relative, Requested e.version symbols m n := fun n => by
    simp only [exists_relativeRange_contains_iff, contains_accessedRange_iff]
  simp only [arrays_ofSurvey]
  generalize relativeRanges e.version symbols w.relative = ranges at hpos hgaps hunion
  have hcovers : ∀ r ∈ ranges, ∀ n, (arrayUniform w.floatDefs r).covers n = r.contains n :=
    fun r hr => covers_arrayUniform _ (hpos r hr)
  have hsome : ∀ n, (∃ a ∈ ranges.map (arrayUniform w.floatDefs), a.covers n = true) ↔
      ∃ r ∈ ranges, r.contains n = true := fun n => by
    simp only [mem_map, exists_exists_and_eq_and]
    exact exists_congr fun r => and_congr_right fun hr => by rw [hcovers r hr]
  refine ⟨pairwise_map.mpr hgaps, ?_, fun n => (hsome n).trans (hunion n), fun m hm => ?_, ?_⟩
  · simp only [forall_mem_map]
    intro r hr
    refine ⟨hpos r hr, fun n => ?_⟩
    rw [hcovers r hr, contains_iff]
    rfl
  · obtain ⟨r, hr, hn⟩ := (hunion m).mpr ⟨m, hm, requested_self _ _ m⟩
    refine ⟨_, ⟨mem_map_of_mem hr, (hcovers r hr m).trans hn⟩, ?_⟩
    rintro _ ⟨ha, hn'⟩
    obtain ⟨r', hr', rfl⟩ := mem_map.mp ha
    rw [eq_of_contains hgaps hr hr' hn ((hcovers r' hr' m).symm.trans hn')]
  · simp only [forall_mem_map]
    intro r hr
    simp only [constant_arrayUniform_iff, hcovers r hr]

end ShaderPipeline
