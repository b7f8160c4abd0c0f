import ShaderPipeline.Bytes.Word

/-!
# Bytes at an offset

What is read at an offset of a byte string depends on the bytes that stand there only. A layout is
written down as a concatenation, and each part of it is found at the sum of the lengths before it.
-/

namespace ShaderPipeline

open List

/-! ### Words and their bytes -/

theorem toNat_byte (n : Nat) : (UInt8.ofNat n).toNat = n % 256 := UInt8.toNat_ofNat'

theorem wordOfBytes_field (w : Word) :
    wordOfBytes (UInt8.ofNat (field w 0 8)) (UInt8.ofNat (field w 8 8))
      (UInt8.ofNat (field w 16 8)) (UInt8.ofNat (field w 24 8)) = w := by
  have hw : w.toNat < 4294967296 := w.toNat_lt
  apply UInt32.toNat_inj.mp
  simp only [wordOfBytes, field, toNat_byte, UInt32.toNat_ofNat']
  omega

theorem bytesOfWord_wordOfBytes (a b c d : UInt8) :
    bytesOfWord (wordOfBytes a b c d) = [a, b, c, d] := by
  have ha : a.toNat < 256 := a.toNat_lt
  have hb : b.toNat < 256 := b.toNat_lt
  have hc : c.toNat < 256 := c.toNat_lt
  have hd : d.toNat < 256 := d.toNat_lt
  simp only [bytesOfWord, wordOfBytes, field, UInt32.toNat_ofNat', cons.injEq, and_true,
    ← UInt8.toNat_inj, toNat_byte]
  omega

@[simp] theorem length_bytesOfWord (w : Word) : (bytesOfWord w).length = 4 := rfl

@[simp] theorem length_bytesOfHalf (n : Nat) : (bytesOfHalf n).length = 2 := rfl

@[simp] theorem length_bytesOfWords (ws : List Word) :
    (bytesOfWords ws).length = 4 * ws.length := by
  induction ws with
  | nil => rfl
  | cons w ws ih =>
    rw [bytesOfWords] at ih ⊢
    rw [flatMap_cons, length_append, ih, length_bytesOfWord, length_cons]
    omega

theorem wordsOfBytes_bytesOfWords (ws : List Word) : wordsOfBytes (bytesOfWords ws) = ws := by
  induction ws with
  | nil => rfl
  | cons w ws ih =>
    rw [bytesOfWords] at ih ⊢
    rw [flatMap_cons]
    simp [bytesOfWord, wordsOfBytes, wordOfBytes_field, ih]

theorem bytesOfWords_wordsOfBytes {bs : List UInt8} (h : bs.length % 4 = 0) :
    bytesOfWords (wordsOfBytes bs) = bs := by
  fun_induction wordsOfBytes bs with
  | case1 a b c d rest ih =>
    have hrest : rest.length % 4 = 0 := by
      simp only [length_cons] at h
      omega
    have := ih hrest
    rw [bytesOfWords] at this ⊢
    rw [flatMap_cons, this, bytesOfWord_wordOfBytes]
    rfl
  | case2 bs hshort =>
    -- Without four bytes in front there are fewer than four, and so none.
    match bs, h with
    | [], _ => rfl
    | a :: b :: c :: d :: rest, _ => exact absurd rfl (hshort a b c d rest)

/-! ### Places -/

def PlacedAt (b : Bytes) (offset : Nat) (bytes : List UInt8) : Prop :=
  bytes <+: b.toList.drop offset

variable {b : Bytes} {offset : Nat} {xs ys : List UInt8}

theorem placedAt_append :
    PlacedAt b offset (xs ++ ys) ↔ PlacedAt b offset xs ∧ PlacedAt b (offset + xs.length) ys := by
  unfold PlacedAt
  rw [← drop_drop]
  constructor
  · rintro ⟨rest, hrest⟩
    rw [← hrest, append_assoc]
    exact ⟨prefix_append _ _, by simp⟩
  · rintro ⟨⟨rest, hrest⟩, hys⟩
    rw [← hrest, drop_left] at hys
    obtain ⟨rest', rfl⟩ := hys
    exact ⟨rest', by rw [← hrest, append_assoc]⟩

theorem PlacedAt.getElem? (h : PlacedAt b offset xs) {i : Nat} {x : UInt8} (hx : xs[i]? = some x) :
    b[offset + i]? = some x := by
  obtain ⟨rest, hrest⟩ := h
  have hi : i < xs.length := (List.getElem?_eq_some_iff.mp hx).1
  rw [← Array.getElem?_toList, ← getElem?_drop, ← hrest, getElem?_append_left hi, hx]

theorem PlacedAt.le_size (h : PlacedAt b offset xs) (hxs : 0 < xs.length) :
    offset + xs.length ≤ b.size := by
  have hlength : xs.length ≤ (b.toList.drop offset).length := List.IsPrefix.length_le h
  have hsize : b.toList.length = b.size := Array.length_toList
  rw [length_drop] at hlength
  omega

theorem PlacedAt.add_length_le (h : PlacedAt b offset xs) (hoffset : offset ≤ b.size) :
    offset + xs.length ≤ b.size := by
  by_cases hxs : 0 < xs.length
  · exact h.le_size hxs
  · omega

theorem PlacedAt.wordAt? {w : Word} (h : PlacedAt b offset (bytesOfWord w)) :
    wordAt? b offset = some w := by
  have h₀ : b[offset]? = some (UInt8.ofNat (field w 0 8)) := h.getElem? (i := 0) rfl
  have h₁ : b[offset + 1]? = some (UInt8.ofNat (field w 8 8)) := h.getElem? rfl
  have h₂ : b[offset + 2]? = some (UInt8.ofNat (field w 16 8)) := h.getElem? rfl
  have h₃ : b[offset + 3]? = some (UInt8.ofNat (field w 24 8)) := h.getElem? rfl
  simp only [ShaderPipeline.wordAt?, h₀, h₁, h₂, h₃, bind, Option.bind, wordOfBytes_field]
  rfl

theorem PlacedAt.halfAt? {n : Nat} (hn : n < 65536) (h : PlacedAt b offset (bytesOfHalf n)) :
    halfAt? b offset = some n := by
  have h₀ : b[offset]? = some (UInt8.ofNat (n % 256)) := h.getElem? (i := 0) rfl
  have h₁ : b[offset + 1]? = some (UInt8.ofNat (n / 256 % 256)) := h.getElem? rfl
  have hsum : n % 256 % 256 + n / 256 % 256 % 256 * 2 ^ 8 = n := by omega
  simp only [ShaderPipeline.halfAt?, h₀, h₁, bind, Option.bind, toNat_byte]
  exact congrArg some hsum

theorem PlacedAt.zeroTerminated? {fuel : Nat} (hxs : 0 ∉ xs) (h : PlacedAt b offset (xs ++ [0]))
    (hfuel : xs.length < fuel) : zeroTerminated? b fuel offset = some xs := by
  induction xs generalizing offset fuel with
  | nil =>
    obtain ⟨fuel, rfl⟩ := Nat.exists_eq_succ_of_ne_zero (Nat.ne_zero_of_lt hfuel)
    have hzero : b[offset]? = some 0 := h.getElem? (i := 0) rfl
    simp only [ShaderPipeline.zeroTerminated?, hzero]
    rfl
  | cons x xs ih =>
    obtain ⟨fuel, rfl⟩ := Nat.exists_eq_succ_of_ne_zero (Nat.ne_zero_of_lt hfuel)
    have hx : b[offset]? = some x := h.getElem? (i := 0) rfl
    have hne : x ≠ 0 := fun hzero => hxs (hzero ▸ mem_cons_self)
    have hrest : PlacedAt b (offset + 1) (xs ++ [0]) :=
      (@placedAt_append b offset [x] (xs ++ [0])).mp h |>.2
    have htail := ih (fun hmem => hxs (mem_cons_of_mem _ hmem)) hrest
      (Nat.lt_of_succ_lt_succ hfuel)
    simp only [ShaderPipeline.zeroTerminated?, hx, htail, bind, Option.bind, if_neg hne]
    rfl

theorem PlacedAt.slice? (h : PlacedAt b offset xs) (hsize : offset + xs.length ≤ b.size) :
    slice? b offset xs.length = some xs.toArray := by
  rw [ShaderPipeline.slice?, if_pos hsize]
  obtain ⟨rest, hrest⟩ := h
  congr 1
  apply Array.toList_inj.mp
  rw [Array.toList_extract, extract_eq_take_drop, ← hrest, Nat.add_sub_cancel_left, take_left]

end ShaderPipeline
