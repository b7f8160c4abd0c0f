import Mathlib.Data.List.Chain
import ShaderPipeline.Proofs.Bytecode.Decoded

/-!
# Instructions that tile a stream

The instructions of a shader that has been read stand one behind the other, from the second word of
the stream up to an end marker. Each is read from its own words only, so that nothing behind the end
marker matters, and a stream that breaks off in front of it is refused.
-/

namespace ShaderPipeline

open List

namespace Instruction

/-- An instruction lies inside a stream. If it is a comment, it holds the words it takes up. -/
structure Inside (tokens : List Word) (i : Instruction) : Prop where
  length : 1 ≤ i.length
  ends : i.position + i.length ≤ tokens.length
  comment : i.comment = if i.opcode = .comment
    then some ((tokens.drop (i.position + 1)).take (i.length - 1)) else none

variable {v : Version} {index position : Nat} {head : Word} {tail tokens : List Word}
  {i : Instruction}

theorem inside_of_ofTokens (hwords : tokens.drop position = head :: tail)
    (h : ofTokens v index position head tail = .ok i) :
    i.index = index ∧ i.position = position ∧ i.Inside tokens := by
  have htail : tokens.drop (position + 1) = tail := by
    rw [← tail_drop, hwords, tail_cons]
  have hlength : position + 1 + tail.length = tokens.length := by
    have := congrArg List.length hwords
    rw [length_drop, length_cons] at this
    omega
  rcases ofTokens_cases h with h | rfl | rfl | ⟨op, h⟩
  · obtain ⟨hinside, rfl⟩ := ofComment_eq_ok h
    refine ⟨rfl, rfl, Nat.le_add_right 1 _, ?_, ?_⟩
    · change position + (1 + field head 16 15) ≤ tokens.length
      omega
    · change some _ = some _
      rw [show (marker index position .comment).position = position from rfl, htail,
        Nat.add_sub_cancel_left]
  · exact ⟨rfl, rfl, Nat.le_refl 1, by change position + 1 ≤ _; omega, rfl⟩
  · exact ⟨rfl, rfl, Nat.le_refl 1, by change position + 1 ≤ _; omega, rfl⟩
  · obtain ⟨kinds, words, parts, s, hkinds, hwords, -, -, -, declaration, -, rfl⟩ :=
      exists_of_ofOperands h
    have htaken := congrArg List.length (operandWords_eq_ok hwords).1
    rw [length_take] at htaken
    refine ⟨rfl, rfl, Nat.le_add_right 1 _, by dsimp only; omega, (if_neg ?_).symm⟩
    rintro rfl
    exact nomatch hkinds

theorem ofTokens_append (h : ofTokens v index position head tail = .ok i) (suffix : List Word) :
    ofTokens v index position head (tail ++ suffix) = .ok i := by
  have htake {n : Nat} (hn : ¬(tail.take n).length < n) :
      (tail ++ suffix).take n = tail.take n := by
    rw [length_take] at hn
    exact take_append_of_le_length (by omega)
  unfold ofTokens at h ⊢
  split at h
  · unfold ofComment at h ⊢
    dsimp only at h ⊢
    split_ifs at h with hlength
    rwa [htake hlength, if_neg hlength]
  · exact h
  · exact h
  · unfold ofOperands at h ⊢
    split at h
    · cases h
    · obtain ⟨words, hwords, h⟩ := bind_eq_ok.mp h
      refine bind_eq_ok.mpr ⟨words, ?_, h⟩
      unfold operandWords at hwords ⊢
      split_ifs at hwords ⊢ with hmajor
      all_goals
        dsimp only at hwords ⊢
        split_ifs at hwords with hlength
        rwa [htake hlength, if_neg hlength]

end Instruction

namespace Shader

variable {v : Version} {tokens : List Word} {index position : Nat} {is : List Instruction}

/-- Instructions with numbers from `index` on that cover a stream from a position on, up to an end
marker. -/
structure Tiles (tokens : List Word) (index position : Nat) (is : List Instruction) : Prop where
  index : ∀ n i, is[n]? = some i → i.index = index + n
  first : ∀ i ∈ is.head?, i.position = position
  next : is.IsChain fun i j => j.position = i.position + i.length
  inside : ∀ i ∈ is, i.Inside tokens
  /-- The last one, and no other, is an end marker. -/
  stop : ∃ before last, is = before ++ [last] ∧ last.opcode = .stop ∧
    ∀ i ∈ before, i.opcode ≠ .stop

theorem Stream.tiles (h : Stream v tokens index position is) : Tiles tokens index position is := by
  induction h with
  | @stop index position head tail i words read stops =>
    obtain ⟨hindex, hposition, hinside⟩ := Instruction.inside_of_ofTokens words read
    refine ⟨?_, ?_, .singleton i, by simpa using hinside, [], i, rfl, stops, by simp⟩
    · rintro (_ | n) j hj
      · exact Option.some.inj hj ▸ hindex
      · cases hj
    · simpa using hposition
  | @step index position head tail i is words read goes rest ih =>
    obtain ⟨hindex, hposition, hinside⟩ := Instruction.inside_of_ofTokens words read
    obtain ⟨before, last, his, hstop, hbefore⟩ := ih.stop
    refine ⟨?_, by simpa using hposition, ?_, forall_mem_cons.mpr ⟨hinside, ih.inside⟩,
      i :: before, last, congrArg (i :: ·) his, hstop, forall_mem_cons.mpr ⟨goes, hbefore⟩⟩
    · rintro (_ | n) j hj
      · exact Option.some.inj hj ▸ hindex
      · rw [ih.index n j hj, Nat.add_assoc, Nat.add_comm 1 n]
    · refine ih.next.cons fun j hj => ?_
      rw [ih.first j hj, hposition]

theorem readInstructions_append {skip : Nat} {done : List Instruction} {words : List Word}
    (h : readInstructions v skip position index done words = .ok is) (suffix : List Word) :
    readInstructions v skip position index done (words ++ suffix) = .ok is := by
  fun_induction readInstructions v skip position index done words with
  | case1 => cases h
  | case2 skip position index done w tail ih => exact ih h
  | case3 position index done head tail ih =>
    obtain ⟨i, hi, h⟩ := bind_eq_ok.mp h
    refine bind_eq_ok.mpr ⟨i, Instruction.ofTokens_append hi suffix, ?_⟩
    split_ifs at h ⊢ with hstop
    · exact h
    · exact ih i h

/-- Words behind the end marker are not looked at, unless there are too many. -/
theorem ofTokens_append {s : Shader} (h : ofTokens tokens = .ok s) {suffix : List Word}
    (hlength : (tokens ++ suffix).length ≤ DecodeFault.maxTokens) :
    ofTokens (tokens ++ suffix) = .ok s := by
  unfold ofTokens at h ⊢
  rw [if_neg (Nat.not_lt.mpr hlength)]
  split_ifs at h
  split at h
  · cases h
  · rw [cons_append]
    dsimp only
    split at h
    · cases h
    · split_ifs at h ⊢
      obtain ⟨is, his, h⟩ := bind_eq_ok.mp h
      exact bind_eq_ok.mpr ⟨is, readInstructions_append his suffix, h⟩

/-- The instructions of a shader that has been read tile its stream from the second word on, what
follows the end marker does not matter, and the end marker must not be cut off. -/
theorem ofTokens_tiles {s : Shader} (h : ofTokens tokens = .ok s) :
    Tiles tokens 0 1 s.instructions ∧
      (∀ suffix, (tokens ++ suffix).length ≤ DecodeFault.maxTokens →
        ofTokens (tokens ++ suffix) = .ok s) ∧
      ∀ cut, cut <+: tokens →
        (∀ i ∈ s.instructions, i.opcode = .stop → cut.length ≤ i.position) →
          ∃ e, ofTokens cut = .error e := by
  obtain ⟨hlength, hstream⟩ := stream_of_ofTokens h
  refine ⟨hstream.tiles, fun suffix => ofTokens_append h, ?_⟩
  rintro cut ⟨rest, rfl⟩ hcut
  cases ht : ofTokens cut with
  | error e => exact ⟨e, rfl⟩
  | ok t =>
    -- With the rest behind it, the cut stream would be read as the same shader.
    obtain rfl : t = s := Except.ok.inj ((ofTokens_append ht hlength).symm.trans h)
    have htiles := (stream_of_ofTokens ht).2.tiles
    obtain ⟨before, last, his, hstop, -⟩ := htiles.stop
    have hlast : last ∈ t.instructions := by simp [his]
    have hinside := htiles.inside last hlast
    have := hcut last hlast hstop
    have := hinside.length
    have := hinside.ends
    omega

/-- A comment and an instruction, with one more word behind the end marker. -/
theorem ofTokens_tiles_commented : ∃ s,
    ofTokens [0xFFFE0101, 0x0001FFFE, 7, 1, 0x800F0000, 0x90E40000, 0x0000FFFF] = .ok s ∧
      ofTokens [0xFFFE0101, 0x0001FFFE, 7, 1, 0x800F0000, 0x90E40000, 0x0000FFFF, 5] = .ok s ∧
      Tiles [0xFFFE0101, 0x0001FFFE, 7, 1, 0x800F0000, 0x90E40000, 0x0000FFFF] 0 1
        s.instructions := by
  refine ⟨_, rfl, ?_⟩
  obtain ⟨htiles, hsuffix, -⟩ := @ofTokens_tiles
    [0xFFFE0101, 0x0001FFFE, 7, 1, 0x800F0000, 0x90E40000, 0x0000FFFF] _ rfl
  exact ⟨hsuffix [5] (by decide), htiles⟩

end Shader

end ShaderPipeline
