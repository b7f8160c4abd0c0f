import Mathlib.Data.Multiset.Bind
import Mathlib.Data.Multiset.Dedup
import ShaderPipeline.Proofs.Device.Holders
import ShaderPipeline.Proofs.Device.Registry

/-!
# The accounts of a store

A store counts the references to shaders and programs and queues the names of objects that no one
refers to any more. A program that is referred to refers to its shaders. `Accounts` says that the
counts are right and that the objects that exist are those that are referred to or queued: each of
them once. Every operation of the store keeps accounts.
-/

namespace ShaderPipeline.Device

open Multiset Store Option Released

def LinkedProgram.shaders (p : LinkedProgram) : Multiset CompiledShader :=
  ↑p.vertex.toList + ↑p.pixel.toList

def shadersOf (programs : Multiset LinkedProgram) : Multiset CompiledShader :=
  programs.dedup.bind LinkedProgram.shaders

/-- The object that a queued name belongs to, if the driver has one. Pairs of assembly programs are
none. -/
def Released.object? (glsl : Bool) : Released → Option ObjectName
  | .shader n => some (.ofShader glsl n)
  | .program n => if glsl then some (.program n) else none

def CompiledShader.object (glsl : Bool) (x : CompiledShader) : ObjectName := .ofShader glsl x.name

def programObjects (glsl : Bool) (programs : Multiset LinkedProgram) : Registry :=
  if glsl then programs.dedup.map fun p => .program p.names.program else 0

namespace Store

def queued (s : Store) (glsl : Bool) : List ObjectName := s.released.filterMap (·.object? glsl)

def owed (s : Store) (glsl : Bool) (refs : Multiset CompiledShader) : Registry :=
  ↑(s.queued glsl) + refs.dedup.map (·.object glsl)

variable {s : Store} {glsl : Bool} {refs : Multiset CompiledShader} {x : CompiledShader}

theorem owed_release (s : Store) (r : Released) (glsl : Bool) (refs : Multiset CompiledShader) :
    (s.release r).owed glsl refs = ↑(r.object? glsl).toList + s.owed glsl refs := by
  have hqueued : (↑((s.release r).queued glsl) : Registry) =
      ↑(r.object? glsl).toList + ↑(s.queued glsl) := by
    rw [queued, release, List.filterMap_append, ← coe_add, add_comm]
    cases h : r.object? glsl <;> simp [queued, h]
  rw [owed, hqueued, add_assoc]
  rfl

/-! ### Shaders -/

theorem owed_holdShader (hx : x ∈ refs) : (s.holdShader x).owed glsl (x ::ₘ refs) =
    s.owed glsl refs := by
  rw [owed, dedup_cons_of_mem hx]
  rfl

/-- The last reference to a shader queues its name. -/
theorem owed_dropShader (h : Counted CompiledShader.id s.shaderHolders (x ::ₘ refs)) :
    (s.dropShader x).owed glsl refs = s.owed glsl (x ::ₘ refs) := by
  unfold dropShader
  by_cases hx : x ∈ refs
  · have hmore : ¬s.shaderHolders[x.id]? = some 1 := fun hone => h.last_iff.mp hone hx
    rw [if_neg hmore, owed, owed, dedup_cons_of_mem hx]
    rfl
  · rw [if_pos (h.last_iff.mpr hx), owed_release, owed, owed, dedup_cons_of_notMem hx,
      map_cons, add_cons]
    rfl

theorem shaderHolders_dropShader (s : Store) (x : CompiledShader) :
    (s.dropShader x).shaderHolders = s.shaderHolders.modify x.id (· - 1) := by
  unfold dropShader
  split_ifs <;> rfl

theorem hold_shader? (glsl : Bool) {x : Option CompiledShader}
    (h : Counted CompiledShader.id s.shaderHolders refs) (hx : ∀ a ∈ x, a ∈ refs) :
    Counted CompiledShader.id (s.holdShader? x).shaderHolders (↑x.toList + refs) ∧
      (s.holdShader? x).owed glsl (↑x.toList + refs) = s.owed glsl refs := by
  cases x with
  | none =>
    rw [toList_none, coe_nil, zero_add]
    exact ⟨h, rfl⟩
  | some a => exact ⟨h.hold (hx a rfl), owed_holdShader (hx a rfl)⟩

theorem drop_shader? (glsl : Bool) {x : Option CompiledShader}
    (h : Counted CompiledShader.id s.shaderHolders (↑x.toList + refs)) :
    Counted CompiledShader.id (s.dropShader? x).shaderHolders refs ∧
      (s.dropShader? x).owed glsl refs = s.owed glsl (↑x.toList + refs) := by
  cases x with
  | none =>
    rw [toList_none, coe_nil, zero_add] at h ⊢
    exact ⟨h, rfl⟩
  | some a =>
    have h : Counted CompiledShader.id s.shaderHolders (a ::ₘ refs) := h
    refine ⟨?_, owed_dropShader h⟩
    rw [dropShader?, shaderHolders_dropShader]
    exact h.drop

end Store

/-! ### Accounts -/

/-- The counts of a store are right for references to shaders and programs from outside, and the
objects that exist are those that are referred to or queued. -/
structure Accounts (glsl : Bool) (s : Store) (shaders : Multiset CompiledShader)
    (programs : Multiset LinkedProgram) (known : Registry) : Prop where
  shaderCounts : Counted CompiledShader.id s.shaderHolders (shaders + shadersOf programs)
  programCounts : Counted LinkedProgram.id s.programHolders programs
  balanced : known = s.owed glsl (shaders + shadersOf programs) + programObjects glsl programs

section Lists

variable {programs : Multiset LinkedProgram} {p : LinkedProgram}

theorem shadersOf_cons_of_mem (h : p ∈ programs) :
    shadersOf (p ::ₘ programs) = shadersOf programs := by
  rw [shadersOf, dedup_cons_of_mem h]
  rfl

theorem shadersOf_cons_of_notMem (h : p ∉ programs) :
    shadersOf (p ::ₘ programs) = p.shaders + shadersOf programs := by
  rw [shadersOf, dedup_cons_of_notMem h, cons_bind]
  rfl

theorem programObjects_cons_of_mem (glsl : Bool) (h : p ∈ programs) :
    programObjects glsl (p ::ₘ programs) = programObjects glsl programs := by
  rw [programObjects, dedup_cons_of_mem h]
  rfl

theorem programObjects_cons_of_notMem (glsl : Bool) (h : p ∉ programs) :
    programObjects glsl (p ::ₘ programs) =
      ↑((program p.names.program).object? glsl).toList + programObjects glsl programs := by
  unfold programObjects
  cases glsl with
  | false => rfl
  | true =>
    rw [if_pos rfl, if_pos rfl, dedup_cons_of_notMem h, map_cons]
    rfl

theorem mem_shadersOf {x : CompiledShader} :
    x ∈ shadersOf programs ↔ ∃ p ∈ programs, x ∈ p.shaders := by
  rw [shadersOf, mem_bind]
  simp

end Lists

namespace Accounts

variable {glsl : Bool} {s : Store} {shaders : Multiset CompiledShader}
  {programs : Multiset LinkedProgram} {known : Registry} {x : CompiledShader} {p : LinkedProgram}

theorem mem_of_shader (h : Accounts glsl s shaders programs known)
    (hx : x ∈ shaders + shadersOf programs) : x.object glsl ∈ known := by
  rw [h.balanced, owed]
  refine mem_add.mpr (Or.inl (mem_add.mpr (Or.inr ?_)))
  exact mem_map_of_mem _ (mem_dedup.mpr hx)

theorem mem_of_program (h : Accounts true s shaders programs known) (hp : p ∈ programs) :
    .program p.names.program ∈ known := by
  rw [h.balanced, programObjects, if_pos rfl]
  refine mem_add.mpr (Or.inr ?_)
  exact mem_map_of_mem (fun p => ObjectName.program p.names.program)
    (mem_dedup.mpr hp)

theorem queued_le (h : Accounts glsl s shaders programs known) : ↑(s.queued glsl) ≤ known := by
  rw [h.balanced, owed, add_assoc]
  exact le_add_right _ _

theorem holdShader (h : Accounts glsl s shaders programs known)
    (hx : x ∈ shaders + shadersOf programs) :
    Accounts glsl (s.holdShader x) (x ::ₘ shaders) programs known where
  shaderCounts := by
    rw [cons_add]
    exact h.shaderCounts.hold hx
  programCounts := h.programCounts
  balanced := by rw [h.balanced, cons_add, owed_holdShader hx]

theorem dropShader (h : Accounts glsl s (x ::ₘ shaders) programs known) :
    Accounts glsl (s.dropShader x) shaders programs known where
  shaderCounts := by
    have hshaders := h.shaderCounts
    rw [cons_add] at hshaders
    rw [shaderHolders_dropShader]
    exact hshaders.drop
  programCounts := by
    rw [programHolders_dropShader]
    exact h.programCounts
  balanced := by
    have hshaders := h.shaderCounts
    rw [cons_add] at hshaders
    rw [h.balanced, cons_add, owed_dropShader hshaders]

theorem holdProgram (h : Accounts glsl s shaders programs known) (hp : p ∈ programs) :
    Accounts glsl (s.holdProgram p) shaders (p ::ₘ programs) known where
  shaderCounts := by
    rw [shadersOf_cons_of_mem hp]
    exact h.shaderCounts
  programCounts := h.programCounts.hold hp
  balanced := by
    rw [shadersOf_cons_of_mem hp, programObjects_cons_of_mem glsl hp]
    exact h.balanced

theorem dropProgram (h : Accounts glsl s shaders (p ::ₘ programs) known) :
    Accounts glsl (s.dropProgram p) shaders programs known := by
  have hprograms : Counted LinkedProgram.id (s.dropProgram p).programHolders programs := by
    rw [programHolders_dropProgram]
    exact h.programCounts.drop
  have hshaders := h.shaderCounts
  have hknown := h.balanced
  by_cases hp : p ∈ programs
  · have hmore : ¬s.programHolders[p.id]? = some 1 :=
      fun hone => h.programCounts.last_iff.mp hone hp
    have hdrop : s.dropProgram p =
        { s with programHolders := s.programHolders.modify p.id (· - 1) } := if_neg hmore
    rw [shadersOf_cons_of_mem hp] at hshaders hknown
    rw [programObjects_cons_of_mem glsl hp] at hknown
    exact ⟨hdrop ▸ hshaders, hprograms, hdrop ▸ hknown⟩
  · -- The last reference takes the program's own references to its shaders with it.
    have hsplit : shaders + shadersOf (p ::ₘ programs) =
        ↑p.vertex.toList + (↑p.pixel.toList + (shaders + shadersOf programs)) := by
      rw [shadersOf_cons_of_notMem hp, LinkedProgram.shaders]
      ac_rfl
    rw [hsplit] at hshaders hknown
    let s₁ : Store := { s with programHolders := s.programHolders.modify p.id (· - 1) }
    let s₂ := s₁.release (.program p.names.program)
    have hdrop : s.dropProgram p = (s₂.dropShader? p.vertex).dropShader? p.pixel :=
      if_pos (h.programCounts.last_iff.mpr hp)
    have hcounts : Counted CompiledShader.id s₂.shaderHolders _ := hshaders
    obtain ⟨hvertex, howed⟩ := drop_shader? glsl hcounts
    obtain ⟨hpixel, howed'⟩ := drop_shader? glsl hvertex
    refine ⟨hdrop ▸ hpixel, hprograms, ?_⟩
    rw [hknown, hdrop, howed', howed, owed_release, programObjects_cons_of_notMem glsl hp,
      add_left_comm, add_assoc]
    rfl

theorem addShader (h : Accounts glsl s shaders programs known) (n : Nat) (stage : Stage)
    (code : LoweredShader) :
    Accounts glsl (s.addShader n stage code).2 ((s.addShader n stage code).1 ::ₘ shaders) programs
      (.ofShader glsl n ::ₘ known) := by
  have hnew : (s.addShader n stage code).1 ∉ shaders + shadersOf programs :=
    fun hmem => (h.shaderCounts.id_lt hmem).ne rfl
  refine ⟨?_, h.programCounts, ?_⟩
  · rw [cons_add]
    exact h.shaderCounts.push rfl
  · rw [h.balanced, cons_add, owed, owed, dedup_cons_of_notMem hnew, map_cons, add_cons, cons_add]
    rfl

theorem addProgram (h : Accounts glsl s shaders programs known) {generation : UInt64}
    (hid : p.id = (s.addProgram p.vertex p.pixel generation).1)
    (hshaders : ∀ x ∈ p.shaders, x ∈ shaders + shadersOf programs) :
    Accounts glsl (s.addProgram p.vertex p.pixel generation).2 shaders (p ::ₘ programs)
      (↑((program p.names.program).object? glsl).toList + known) := by
  have hsize : p.id = s.programHolders.size := by simpa [Store.addProgram] using hid
  have hnew : p ∉ programs := fun hmem => (h.programCounts.id_lt hmem).ne hsize
  have hvertex : ∀ a ∈ p.vertex, a ∈ shaders + shadersOf programs := fun a ha =>
    hshaders a (mem_add.mpr (Or.inl (mem_toList.mpr ha)))
  have hpixel : ∀ a ∈ p.pixel, a ∈ ↑p.vertex.toList + (shaders + shadersOf programs) :=
    fun a ha => mem_add.mpr (Or.inr
      (hshaders a (mem_add.mpr (Or.inr (mem_toList.mpr ha)))))
  obtain ⟨hcounts, howed⟩ := hold_shader? glsl h.shaderCounts hvertex
  obtain ⟨hcounts', howed'⟩ := hold_shader? glsl hcounts hpixel
  have hsplit : shaders + shadersOf (p ::ₘ programs) =
      ↑p.pixel.toList + (↑p.vertex.toList + (shaders + shadersOf programs)) := by
    rw [shadersOf_cons_of_notMem hnew, LinkedProgram.shaders]
    ac_rfl
  refine ⟨?_, ?_, ?_⟩
  · rw [hsplit]
    exact hcounts'
  · simp only [Store.addProgram, programHolders_holdShader?]
    exact h.programCounts.push hsize
  · rw [hsplit, programObjects_cons_of_notMem glsl hnew, h.balanced, ← howed, ← howed',
      add_left_comm]
    rfl

theorem collect (h : Accounts glsl s shaders programs known) :
    Accounts glsl { s with released := [] } shaders programs (known - ↑(s.queued glsl)) where
  shaderCounts := h.shaderCounts
  programCounts := h.programCounts
  balanced := by
    rw [h.balanced, owed, add_assoc, add_tsub_cancel_left, owed]
    exact congrArg (· + _) (zero_add _).symm

end Accounts

end ShaderPipeline.Device
