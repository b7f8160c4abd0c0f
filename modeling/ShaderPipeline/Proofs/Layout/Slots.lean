import Mathlib.Data.Set.Function
import Mathlib.Order.Interval.Set.Defs
import ShaderPipeline.Lowering.Shader
import ShaderPipeline.Proofs.Layout.Ranges
import ShaderPipeline.Proofs.Layout.Recorded

/-!
# Slots of packed uniforms

The uniforms of one kind share an array, in the order of the list of uniforms. `PackedAt` says which
slot a register of a uniform has there, and `slotOf?` finds it. In the layout of a shader no two
uniforms of a kind have a register in common, so the registers fed from outside and the slots
correspond one to one. The floats of a lowered shader come before all other uniforms.
-/

namespace ShaderPipeline

open List ShaderPipeline.Uniform List.Pairwise Option

variable {u : Uniform} {v : Survey} {n : Nat} {ranges : List RegisterRange} {r : RegisterRange}
  {kind : ValueKind}

@[simp] theorem slotCount_nil : slotCount [] = 0 := rfl

@[simp] theorem slotCount_cons (u : Uniform) (us : List Uniform) :
    slotCount (u :: us) = u.slots + slotCount us := by
  simp [slotCount]

@[simp] theorem slotCount_append (us vs : List Uniform) :
    slotCount (us ++ vs) = slotCount us + slotCount vs := by
  simp [slotCount]

/-- The slot of the `k`-th register of a uniform that is fed from outside: the slots of the uniforms
of its kind before it, and then `k`. -/
def PackedAt (us : List Uniform) (u : Uniform) (k slot : Nat) : Prop :=
  u.constant = false ∧ k < u.width ∧ ∃ before after, us = before ++ u :: after ∧
    slot = slotCount (before.filter (·.kind == u.kind)) + k

theorem PackedAt.lt {us : List Uniform} {k slot : Nat} (h : PackedAt us u k slot) :
    slot < slotCount (us.filter (·.kind == u.kind)) := by
  obtain ⟨hfed, hk, before, after, rfl, rfl⟩ := h
  have hslots : u.slots = u.width := by simp [slots, hfed]
  rw [filter_append, filter_cons_of_pos (by simp), slotCount_append, slotCount_cons]
  omega

/-! ### Registers of uniforms -/

namespace Uniform

/-- Two uniforms have no register in common. -/
def Apart (u v : Uniform) : Prop := u.index + u.width ≤ v.index ∨ v.index + v.width ≤ u.index

theorem Apart.symm {v : Uniform} (h : u.Apart v) : v.Apart u := Or.symm h

theorem covers_iff : u.covers n = true ↔ u.index ≤ n ∧ n < u.index + u.width := by
  simp [covers]

theorem Apart.not_covers {v : Uniform} (h : u.Apart v) (hv : v.covers n = true) :
    u.covers n = false := by
  rw [← Bool.not_eq_true, covers_iff]
  rw [covers_iff] at hv
  unfold Apart at h
  omega

end Uniform

section SlotOf

variable {us : List Uniform} {n slot : Nat}

theorem exists_split_of_slotOf? (h : slotOf? us n = some slot) :
    ∃ before u after, us = before ++ u :: after ∧ u.constant = false ∧ u.covers n = true ∧
      slot = slotCount before + (n - u.index) := by
  induction us generalizing slot with
  | nil => simp [slotOf?] at h
  | cons u rest ih =>
    rw [slotOf?] at h
    split_ifs at h with hu
    · obtain ⟨hfed, hcovers⟩ := Bool.and_eq_true_iff.mp hu
      exact ⟨[], u, rest, rfl, by simpa using hfed, hcovers, by simpa using (some.inj h).symm⟩
    · obtain ⟨slot', hslot', rfl⟩ := map_eq_some_iff.mp h
      obtain ⟨before, v, after, rfl, hfed, hcovers, rfl⟩ := ih hslot'
      exact ⟨u :: before, v, after, rfl, hfed, hcovers, by rw [slotCount_cons, Nat.add_assoc]⟩

theorem slotOf?_of_split {before after : List Uniform}
    (hapart : (before ++ u :: after).Pairwise Uniform.Apart) (hfed : u.constant = false)
    (hn : u.covers n = true) :
    slotOf? (before ++ u :: after) n = some (slotCount before + (n - u.index)) := by
  induction before with
  | nil => simp [slotOf?, hfed, hn]
  | cons v before ih =>
    obtain ⟨hv, hrest⟩ := pairwise_cons.mp hapart
    have hother : v.covers n = false := (hv u (by simp)).not_covers hn
    rw [cons_append, slotOf?, ih hrest, hother, slotCount_cons]
    simp [Nat.add_assoc]

theorem slotOf?_lt (h : slotOf? us n = some slot) : slot < slotCount us := by
  obtain ⟨before, u, after, rfl, hfed, hcovers, rfl⟩ := exists_split_of_slotOf? h
  have hslots : u.slots = u.width := by simp [slots, hfed]
  have hwithin := covers_iff.mp hcovers
  rw [slotCount_append, slotCount_cons]
  omega

/-- A register has a slot exactly if it belongs to a uniform that is fed from outside. -/
theorem isSome_slotOf?_iff :
    (slotOf? us n).isSome ↔ ∃ u ∈ us, u.constant = false ∧ u.covers n = true := by
  induction us with
  | nil => simp [slotOf?]
  | cons u rest ih =>
    rw [slotOf?]
    split_ifs with hu
    · obtain ⟨hfed, hcovers⟩ := Bool.and_eq_true_iff.mp hu
      exact iff_of_true rfl ⟨u, mem_cons_self, by simpa using hfed, hcovers⟩
    · rw [isSome_map, ih]
      refine ⟨fun ⟨v, hv, hfed⟩ => ⟨v, mem_cons_of_mem _ hv, hfed⟩, fun ⟨v, hv, hfed⟩ => ?_⟩
      rcases mem_cons.mp hv with rfl | hv
      · exact absurd (by simp [hfed]) hu
      · exact ⟨v, hv, hfed⟩

/-- The slots of the first uniform come before those of the others. -/
theorem slotOf?_cons_eq_some (h : slotOf? (u :: us) n = some slot) :
    (u.constant = false ∧ u.covers n = true ∧ slot = n - u.index ∧ slot < u.slots) ∨
      ∃ slot', slotOf? us n = some slot' ∧ slot = u.slots + slot' := by
  rw [slotOf?] at h
  split_ifs at h with hu
  · obtain ⟨hfed, hcovers⟩ := Bool.and_eq_true_iff.mp hu
    have hfed' : u.constant = false := by simpa using hfed
    have hslots : u.slots = u.width := by simp [slots, hfed']
    have hslot := some.inj h
    have hwithin := covers_iff.mp hcovers
    exact Or.inl ⟨hfed', hcovers, hslot.symm, by omega⟩
  · obtain ⟨slot', hslot', heq⟩ := map_eq_some_iff.mp h
    exact Or.inr ⟨slot', hslot', heq.symm⟩

theorem slotOf?_inj {m : Nat} (hm : slotOf? us m = some slot) (hn : slotOf? us n = some slot) :
    m = n := by
  induction us generalizing slot with
  | nil => simp [slotOf?] at hm
  | cons u rest ih =>
    rcases slotOf?_cons_eq_some hm with ⟨-, hm, hslot, hlt⟩ | ⟨slot', hm, hslot⟩ <;>
      rcases slotOf?_cons_eq_some hn with ⟨-, hn, hslot', hlt'⟩ | ⟨slot'', hn, hslot'⟩
    · have hm' := covers_iff.mp hm
      have hn' := covers_iff.mp hn
      omega
    · omega
    · omega
    · obtain rfl : slot' = slot'' := by omega
      exact ih hm hn

/-- Every slot that is counted has a register, if no two uniforms share one. -/
theorem exists_slotOf?_eq_some (h : us.Pairwise Uniform.Apart) (hslot : slot < slotCount us) :
    ∃ n, slotOf? us n = some slot := by
  induction us generalizing slot with
  | nil => simp at hslot
  | cons u rest ih =>
    obtain ⟨hu, hrest⟩ := pairwise_cons.mp h
    rw [slotCount_cons] at hslot
    by_cases hfirst : slot < u.slots
    · have hfed : u.constant = false := by
        by_contra hconst
        rw [slots, if_pos (by simpa using hconst)] at hfirst
        omega
      have hwidth : u.slots = u.width := by simp [slots, hfed]
      have hcovers : u.covers (u.index + slot) = true := covers_iff.mpr (by omega)
      exact ⟨u.index + slot, by simp [slotOf?, hfed, hcovers]⟩
    · have hlater : slot - u.slots < slotCount rest := by omega
      obtain ⟨n, hn⟩ := ih hrest hlater
      obtain ⟨before, v, after, rfl, -, hcovers, -⟩ := exists_split_of_slotOf? hn
      have hpassed : u.covers n = false := (hu v (by simp)).not_covers hcovers
      refine ⟨n, ?_⟩
      rw [slotOf?, if_neg (by simp [hpassed]), hn]
      exact congrArg some (Nat.add_sub_cancel' (by omega))

end SlotOf

/-! ### Layouts -/

theorem kind_of_mem_floatUniforms (hu : u ∈ floatUniforms v ranges) : u.kind = .float := by
  rcases mem_merge.mp hu with hu | hu
  · obtain ⟨n, -, rfl⟩ := mem_map.mp hu
    rfl
  · obtain ⟨r, -, rfl⟩ := mem_map.mp hu
    rfl

theorem kind_of_mem_intUniforms (hu : u ∈ intUniforms v) : u.kind = .int := by
  obtain ⟨n, -, rfl⟩ := mem_map.mp hu
  rfl

theorem kind_of_mem_boolUniforms (hu : u ∈ boolUniforms v) : u.kind = .bool := by
  obtain ⟨n, -, rfl⟩ := mem_map.mp hu
  rfl

theorem covers_arrayUniform (defs : List (Nat × Quad Binary32)) (hr : 0 < r.count) (n : Nat) :
    (arrayUniform defs r).covers n = r.contains n := by
  have hwidth : (arrayUniform defs r).width = r.count := Nat.max_eq_left hr
  rw [covers, hwidth]
  rfl

/-- An array is constant if every register of its range is defined. -/
theorem constant_arrayUniform_iff {defs : List (Nat × Quad Binary32)} :
    (arrayUniform defs r).constant = true ↔
      ∀ n, r.contains n = true → (defs.lookup n).isSome = true := by
  simp [arrayUniform, RegisterRange.contains_iff]

theorem pairwise_apart_singles (kind : ValueKind) {ns : List Nat} (h : ns.Pairwise (· < ·)) :
    (ns.map (single kind)).Pairwise Uniform.Apart := by
  refine pairwise_map.mpr (h.imp fun {a b} hab => Or.inl ?_)
  simp only [single, width]
  omega

/-- No two floats have a register in common: singles are in no range, and there are gaps between
ranges. -/
theorem pairwise_apart_floatUniforms (hv : v.Ordered)
    (hgaps : ranges.Pairwise fun a b => a.base + a.count < b.base)
    (hpos : ∀ r ∈ ranges, 0 < r.count) : (floatUniforms v ranges).Pairwise Uniform.Apart := by
  unfold floatUniforms
  generalize hsingles : (v.floatUsed.filter fun n =>
    (v.floatDefs.lookup n).isNone && !ranges.any (·.contains n)) = singles
  have hused : singles.Pairwise (· < ·) := by
    rw [← hsingles]
    exact filter _ hv.floatUsed
  have hfree : ∀ n ∈ singles, ∀ r ∈ ranges, r.contains n = false := by
    intro n hn r hr
    rw [← hsingles] at hn
    have hnone := (mem_filter.mp hn).2
    simp only [Bool.and_eq_true, Bool.not_eq_true', List.any_eq_false] at hnone
    simpa using hnone.2 r hr
  -- The relation is symmetric, so the order of the merged list does not matter.
  refine (List.Perm.pairwise_iff (fun h => Uniform.Apart.symm h)
    (merge_perm_append _)).mpr ?_
  refine pairwise_append.mpr
    ⟨pairwise_apart_singles .float hused, pairwise_map.mpr ?_, ?_⟩
  · refine imp_of_mem (fun {a b} ha hb hab => Or.inl ?_) hgaps
    have := hpos a ha
    simp only [arrayUniform, width]
    omega
  · intro x hx y hy
    obtain ⟨n, hn, rfl⟩ := mem_map.mp hx
    obtain ⟨r, hr, rfl⟩ := mem_map.mp hy
    have hout := hfree n hn r hr
    have := hpos r hr
    simp only [RegisterRange.contains, Bool.and_eq_false_iff, decide_eq_false_iff_not] at hout
    simp only [Uniform.Apart, single, arrayUniform, width]
    omega

namespace Layout

variable (l : Layout)

def ofKind : ValueKind → List Uniform
  | .float => l.floats
  | .int => l.ints
  | .bool => l.bools

def slot? : ValueKind → Nat → Option Nat
  | .float => l.floatSlot?
  | .int => l.intSlot?
  | .bool => l.boolSlot?

def count (kind : ValueKind) : Nat := slotCount (l.ofKind kind)

/-- A register is fed from outside: it is a uniform of its own, or in an array that is not all
defined by the shader. -/
def Feeds (kind : ValueKind) (n : Nat) : Prop :=
  ∃ u ∈ l.uniforms, u.kind = kind ∧ u.constant = false ∧ u.covers n = true

theorem slot?_eq (kind : ValueKind) (n : Nat) : l.slot? kind n = slotOf? (l.ofKind kind) n := by
  cases kind <;> rfl

/-- The uniforms are listed under their kinds, and no two of a kind have a register in common. -/
structure Sound : Prop where
  kinds : ∀ kind, ∀ u ∈ l.ofKind kind, u.kind = kind
  apart : ∀ kind, (l.ofKind kind).Pairwise Uniform.Apart

variable {l}

namespace Sound

theorem filter_uniforms (h : l.Sound) (kind : ValueKind) :
    l.uniforms.filter (·.kind == kind) = l.ofKind kind := by
  have hall : ∀ kind', (l.ofKind kind').filter (·.kind == kind) =
      if kind' = kind then l.ofKind kind' else [] := by
    intro kind'
    split_ifs with heq
    · exact filter_eq_self.mpr fun u hu => by simp [h.kinds kind' u hu, heq]
    · exact filter_eq_nil_iff.mpr fun u hu => by simp [h.kinds kind' u hu, heq]
  change (l.ofKind .float ++ l.ofKind .int ++ l.ofKind .bool).filter (·.kind == kind) = _
  rw [filter_append, filter_append, hall, hall, hall]
  cases kind <;> simp

theorem feeds_iff (h : l.Sound) :
    l.Feeds kind n ↔ ∃ u ∈ l.ofKind kind, u.constant = false ∧ u.covers n = true := by
  rw [← h.filter_uniforms kind]
  simp [Feeds, and_assoc]

/-- A register has a slot exactly if it is fed from outside. -/
theorem isSome_slot?_iff (h : l.Sound) : (l.slot? kind n).isSome ↔ l.Feeds kind n := by
  rw [slot?_eq, isSome_slotOf?_iff, h.feeds_iff]

theorem bijOn_slot (h : l.Sound) (kind : ValueKind) :
    Set.BijOn (fun n => (l.slot? kind n).getD 0) {n | l.Feeds kind n} (Set.Iio (l.count kind)) := by
  have hfound : ∀ n, l.Feeds kind n → ∃ slot, l.slot? kind n = some slot := fun n hn =>
    isSome_iff_exists.mp (h.isSome_slot?_iff.mpr hn)
  refine ⟨fun n hn => ?_, fun m hm n hn heq => ?_, fun slot hslot => ?_⟩
  · obtain ⟨slot, hslot⟩ := hfound n hn
    rw [slot?_eq] at hslot
    have hlt : slot < l.count kind := slotOf?_lt hslot
    simpa [slot?_eq, hslot] using hlt
  · obtain ⟨slot, hslot⟩ := hfound m hm
    obtain ⟨slot', hslot'⟩ := hfound n hn
    obtain rfl : slot = slot' := by simpa [hslot, hslot'] using heq
    rw [slot?_eq] at hslot hslot'
    exact slotOf?_inj hslot hslot'
  · obtain ⟨n, hn⟩ := exists_slotOf?_eq_some (h.apart kind) hslot
    rw [← slot?_eq] at hn
    exact ⟨n, h.isSome_slot?_iff.mp (by rw [hn]; rfl), by simp [hn]⟩

theorem packedAt_of_slot? (h : l.Sound) {slot : Nat} (hslot : l.slot? kind n = some slot) :
    ∃ u k, PackedAt l.uniforms u k slot ∧ u.kind = kind ∧ n = u.index + k := by
  rw [slot?_eq, ← h.filter_uniforms] at hslot
  obtain ⟨before, u, after, hsplit, hfed, hcovers, rfl⟩ := exists_split_of_slotOf? hslot
  obtain ⟨first, rest, huniforms, hfirst, hrest⟩ := filter_eq_append_iff.mp hsplit
  obtain ⟨others, last, hlast, hothers, hkind, -⟩ := filter_eq_cons_iff.mp hrest
  have hwithin := covers_iff.mp hcovers
  have hkind' : u.kind = kind := by simpa using hkind
  have hbefore : (first ++ others).filter (·.kind == u.kind) = before := by
    rw [filter_append, hkind', hfirst, filter_eq_nil_iff.mpr hothers, append_nil]
  refine ⟨u, n - u.index, ⟨hfed, by omega, first ++ others, last, ?_, ?_⟩, hkind', by omega⟩
  · rw [huniforms, hlast, append_assoc]
  · rw [hbefore]

/-- The list of all uniforms is floats, integers, booleans: no other stands before a float. -/
theorem floatsFirst (h : l.Sound) :
    l.uniforms.Pairwise fun u v => v.kind = .float → u.kind = .float := by
  have hints : ∀ u ∈ l.ints, u.kind ≠ .float := fun u hu => by rw [h.kinds .int u hu]; decide
  have hbools : ∀ u ∈ l.bools, u.kind ≠ .float := fun u hu => by rw [h.kinds .bool u hu]; decide
  refine pairwise_append.mpr ⟨pairwise_append.mpr ⟨?_, ?_, ?_⟩, ?_, ?_⟩
  · exact pairwise_of_forall_mem_list fun u hu _ _ _ => h.kinds .float u hu
  · exact pairwise_of_forall_mem_list fun _ _ v hv hfloat => absurd hfloat (hints v hv)
  · exact fun _ _ v hv hfloat => absurd hfloat (hints v hv)
  · exact pairwise_of_forall_mem_list fun _ _ v hv hfloat => absurd hfloat (hbools v hv)
  · exact fun _ _ v hv hfloat => absurd hfloat (hbools v hv)

end Sound

theorem sound_ofSurvey (e : Surroundings) (symbols : List Symbol) (hv : v.Ordered) :
    (ofSurvey e symbols v).Sound where
  kinds kind u hu := by
    cases kind with
    | float => exact kind_of_mem_floatUniforms hu
    | int => exact kind_of_mem_intUniforms hu
    | bool => exact kind_of_mem_boolUniforms hu
  apart kind := by
    cases kind with
    | float =>
      exact pairwise_apart_floatUniforms hv (merged_relativeRanges _ _ _).gaps
        fun r hr => count_pos_of_mem_relativeRanges _ _ _ hr
    | int => exact pairwise_apart_singles .int (filter _ hv.intUsed)
    | bool => exact pairwise_apart_singles .bool (filter _ hv.boolUsed)

end Layout

def Shader.layout (profile : Profile) (options : Options) (symbols : List Symbol) (s : Shader) :
    Layout :=
  .ofSurvey ⟨s.version, profile, options⟩ symbols
    (Survey.ofInstructions ⟨s.version, profile, options⟩ s.instructions).survey

theorem Shader.sound_layout (profile : Profile) (options : Options) (symbols : List Symbol)
    (s : Shader) : (s.layout profile options symbols).Sound :=
  Layout.sound_ofSurvey _ symbols (Survey.ordered_ofInstructions _ _)

/-! ### Order of uniforms -/

/-- No uniform stands before a float except floats. -/
def LoweredShader.FloatsFirst (s : LoweredShader) : Prop :=
  s.uniforms.Pairwise fun u v => v.kind = .float → u.kind = .float

instance (s : LoweredShader) : Decidable s.FloatsFirst :=
  inferInstanceAs (Decidable (List.Pairwise _ _))

theorem LoweredShader.FloatsFirst.before {s : LoweredShader} (h : s.FloatsFirst)
    {before after : List Uniform} (hsplit : s.uniforms = before ++ u :: after)
    (hu : u.kind = .float) : ∀ v ∈ before, v.kind = .float := by
  intro v hv
  rw [LoweredShader.FloatsFirst, hsplit] at h
  exact (pairwise_append.mp h).2.2 v hv u mem_cons_self hu

namespace LoweredShader

theorem floatsFirst_ofShader (profile : Profile) (options : Options) (s : Shader) :
    (ofShader profile options s).FloatsFirst :=
  (s.sound_layout profile options (Annexes.ofShader s).symbols).floatsFirst

theorem floatsFirst_ofBytes (profile : Profile) (options : Options) (bytes : Bytes) :
    (ofBytes profile options bytes).FloatsFirst := by
  unfold ofBytes
  cases Shader.ofBytes bytes with
  | ok s => exact floatsFirst_ofShader profile options s
  | error e => exact nil

end LoweredShader

end ShaderPipeline
