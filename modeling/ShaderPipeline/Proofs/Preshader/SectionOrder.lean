import Mathlib.Data.List.Nodup
import ShaderPipeline.Proofs.Preshader.RoundTrip

/-!
# The order of sections

The sections of a preshader are collected before any of them is read. So their order does not
matter, nor do empty blocks between them or words behind the end token: the preshader, or the
error, is the same.
-/

namespace ShaderPipeline.Preshader

open List

def sectionTags : List Word := [ConstantTable.tag, literalTag, instructionTag, outputTag]

/-- The tags of the blocks that are not empty. -/
def tagsOf (blocks : List (List Word)) : List Word := blocks.filterMap head?

def streamOf (blocks : List (List Word)) (after : List Word) : List Word :=
  blocks.flatMap commentBlock ++ endToken :: after

variable {blocks blocks' : List (List Word)} {s : Sections}

namespace Sections

/-- The section with a tag. -/
def find (s : Sections) (tag : Word) : Option (List Word) :=
  if tag = ConstantTable.tag then s.table
  else if tag = literalTag then s.literals
  else if tag = instructionTag then s.instructions
  else s.outputs

theorem ext_find {t : Sections} (h : ∀ w ∈ sectionTags, s.find w = t.find w) : s = t := by
  have htable : s.table = t.table := h ConstantTable.tag (by decide)
  have hliterals : s.literals = t.literals := h literalTag (by decide)
  have hinstructions : s.instructions = t.instructions := h instructionTag (by decide)
  have houtputs : s.outputs = t.outputs := h outputTag (by decide)
  cases s
  cases t
  congr

/-- A block is put into the place of its tag, if that is free. -/
theorem exists_of_add {block : List Word}
    (h : ∀ w ∈ block.head?, w ∈ sectionTags ∧ s.find w = none) :
    ∃ s', s.add block = .ok s' ∧
      ∀ w ∈ sectionTags, s'.find w = if block.head? = some w then some block else s.find w := by
  cases block with
  | nil => exact ⟨s, rfl, fun _ _ => rfl⟩
  | cons tag rest =>
    obtain ⟨htag, hfree⟩ := h tag rfl
    simp only [sectionTags, forall_mem_cons, not_mem_nil, false_imp_iff, implies_true,
      and_true, head?_cons, Option.some.injEq]
    simp only [sectionTags, mem_cons, not_mem_nil, or_false] at htag
    rcases htag with rfl | rfl | rfl | rfl
    · have hnone : s.table = none := hfree
      exact ⟨{ s with table := some _ }, by simp [add, claim, hnone], rfl, rfl, rfl, rfl⟩
    · have hnone : s.literals = none := hfree
      refine ⟨{ s with literals := some _ }, ?_, rfl, rfl, rfl, rfl⟩
      rw [add, if_neg (by decide), if_pos rfl, claim, hnone]
      rfl
    · have hnone : s.instructions = none := hfree
      refine ⟨{ s with instructions := some _ }, ?_, rfl, rfl, rfl, rfl⟩
      rw [add, if_neg (by decide), if_neg (by decide), if_pos rfl, claim, hnone]
      rfl
    · have hnone : s.outputs = none := hfree
      refine ⟨{ s with outputs := some _ }, ?_, rfl, rfl, rfl, rfl⟩
      rw [add, if_neg (by decide), if_neg (by decide), if_neg (by decide), if_pos rfl, claim, hnone]
      rfl

/-- Blocks with tags of their own are collected, each into the place of its tag. -/
theorem exists_of_collect (hshort : ∀ b ∈ blocks, b.length ≤ 0x7FFF)
    (hfree : ∀ w ∈ tagsOf blocks, w ∈ sectionTags ∧ s.find w = none)
    (hdistinct : (tagsOf blocks).Nodup) (after : List Word) :
    ∃ s', collect 0 s (streamOf blocks after) = .ok s' ∧ ∀ w ∈ sectionTags, ∀ b,
      s'.find w = some b ↔ (b ∈ blocks ∧ b.head? = some w) ∨ s.find w = some b := by
  induction blocks generalizing s with
  | nil => exact ⟨s, by simp [streamOf, collect], by simp⟩
  | cons block rest ih =>
    have htags : tagsOf (block :: rest) = block.head?.toList ++ tagsOf rest := by
      cases block <;> rfl
    rw [htags] at hfree hdistinct
    obtain ⟨hblock, hrest⟩ := forall_mem_cons.mp hshort
    have hhead : ∀ w ∈ block.head?, w ∈ sectionTags ∧ s.find w = none := fun w hw =>
      hfree w (mem_append_left _ (Option.mem_toList.mpr hw))
    obtain ⟨t, hadd, hfind⟩ := exists_of_add hhead
    have hfree' : ∀ w ∈ tagsOf rest, w ∈ sectionTags ∧ t.find w = none := by
      intro w hw
      obtain ⟨hsection, hnone⟩ := hfree w (mem_append_right _ hw)
      have hne : block.head? ≠ some w := fun h =>
        disjoint_of_nodup_append hdistinct (Option.mem_toList.mpr h) hw
      exact ⟨hsection, by rw [hfind w hsection, if_neg hne, hnone]⟩
    obtain ⟨s', hcollect, hfind'⟩ := ih hrest hfree' hdistinct.of_append_right
    refine ⟨s', ?_, fun w hw b => ?_⟩
    · rw [streamOf, flatMap_cons, append_assoc, collect_commentBlock hblock hadd]
      exact hcollect
    · rw [hfind' w hw, hfind w hw, mem_cons]
      by_cases h : block.head? = some w
      · rw [if_pos h, (hhead w h).2]
        grind
      · rw [if_neg h]
        grind

end Sections

theorem tagsOf_filter (blocks : List (List Word)) :
    tagsOf (blocks.filter (· ≠ [])) = tagsOf blocks := by
  rw [tagsOf, tagsOf, filterMap_filter]
  refine filterMap_congr fun b _ => ?_
  cases b <;> rfl

/-- The result of reading sections with tags of their own depends on the sections alone. -/
theorem ofWords_streamOf_perm (hshort : ∀ b ∈ blocks, b.length ≤ 0x7FFF)
    (hknown : ∀ w ∈ tagsOf blocks, w ∈ sectionTags) (hdistinct : (tagsOf blocks).Nodup)
    (hperm : (blocks.filter (· ≠ [])).Perm (blocks'.filter (· ≠ []))) (version : Word)
    (after after' : List Word) :
    ofWords (version :: streamOf blocks after) = ofWords (version :: streamOf blocks' after') := by
  have htags : (tagsOf blocks).Perm (tagsOf blocks') := by
    rw [← tagsOf_filter, ← tagsOf_filter blocks']
    exact hperm.filterMap _
  have hmem : ∀ b ≠ [], b ∈ blocks ↔ b ∈ blocks' := fun b hb => by
    simpa [hb] using hperm.mem_iff (a := b)
  have hshort' : ∀ b ∈ blocks', b.length ≤ 0x7FFF := by
    intro b hb
    by_cases hnil : b = []
    · simp [hnil]
    · exact hshort b ((hmem b hnil).mpr hb)
  have hempty : ∀ w, Sections.empty.find w = none := by simp [Sections.find, Sections.empty]
  obtain ⟨s, hs, hfind⟩ := Sections.exists_of_collect (s := .empty) hshort
    (fun w hw => ⟨hknown w hw, hempty w⟩) hdistinct after
  obtain ⟨s', hs', hfind'⟩ := Sections.exists_of_collect (s := .empty) hshort'
    (fun w hw => ⟨hknown w (htags.mem_iff.mpr hw), hempty w⟩) (htags.nodup_iff.mp hdistinct) after'
  have hsections : s = s' := Sections.ext_find fun w hw => Option.ext fun b => by
    rw [hfind w hw, hfind' w hw]
    have := hmem b
    grind
  rw [ofWords, ofWords, hs, hs', hsections]

/-- Sections that come last to first, with an empty block and words behind the end, are read. -/
theorem ofWords_streamOf_perm_reversed :
    (ofWords (maxVersion :: streamOf [instructionSection [], [], literalSection [.zero],
      ConstantTable.toWords []] [endToken, 7])).isOk = true := by
  let sections := [ConstantTable.toWords [], literalSection [.zero], instructionSection []]
  have hperm : ([instructionSection [], [], literalSection [.zero],
      ConstantTable.toWords []].filter (· ≠ [])).Perm (sections.filter (· ≠ [])) := by decide
  rw [ofWords_streamOf_perm (by decide) (fun _ hw => (show tagsOf _ ⊆ sectionTags by decide) hw)
    (by decide) hperm maxVersion _ []]
  decide +kernel

end ShaderPipeline.Preshader
