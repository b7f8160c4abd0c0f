import Mathlib.Algebra.BigOperators.Ring.Finset
import Mathlib.Algebra.Order.BigOperators.Group.Finset
import ShaderPipeline.Proofs.Outcomes
import ShaderPipeline.Proofs.Symbol.TableRoundTrip

/-!
# How large a constant table gets

The types of a table are found through offsets, and nothing keeps two members from naming the same
descriptor. Reading unfolds what the offsets describe: a type has one node for every time that one
of the descriptors below it is reached. So a table has no more nodes than bytes as long as every
descriptor is reached once, and only the depth and the members of each type bound it otherwise.
-/

namespace ShaderPipeline.ConstantTable

open Finset List

variable {b : Bytes} {levels offset count : Nat}

/-- The number in the word at an offset, zero outside of the bytes. -/
def wordOrZero (b : Bytes) (offset : Nat) : Nat := ((wordAt? b offset).map UInt32.toNat).getD 0

/-- The numbers in `count` words, the first at an offset and each `stride` bytes after the last. -/
def wordsEvery (b : Bytes) (stride : Nat) : (offset count : Nat) → List Nat
  | _, 0 => []
  | offset, count + 1 => wordOrZero b offset :: wordsEvery b stride (offset + stride) count

def descriptors (b : Bytes) : (levels offset : Nat) → List Nat
  | 0, _ => []
  | levels + 1, offset =>
    offset :: (wordsEvery b memberSize (wordOrZero b (offset + 12) + 4)
      ((halfAt? b (offset + 10)).getD 0)).flatMap (descriptors b levels)

def allDescriptors (b : Bytes) : List Nat :=
  (wordsEvery b constantSize (wordOrZero b 16 + 12) (wordOrZero b 12)).flatMap
    (descriptors b (maxDepth + 1))

def nodes (t : ConstantTable) : List TypeInfo := t.symbols.flatMap (·.info.nodes)

/-! ### Types -/

theorem word_eq_ok {what : String} {n : Nat} (h : word b offset what = .ok n) :
    wordOrZero b offset = n := by
  unfold word at h
  unfold wordOrZero
  cases hw : wordAt? b offset <;> rw [hw] at h <;> cases h
  rfl

theorem half_eq_ok {what : String} {n : Nat} (h : half b offset what = .ok n) :
    (halfAt? b offset).getD 0 = n := by
  unfold half at h
  cases hn : halfAt? b offset <;> rw [hn] at h <;> cases h
  rfl

theorem check_eq_ok {p : Prop} [Decidable p] {e : TableError} {α : Type}
    {f : PUnit → Except TableError α} {x : Except TableError α} {a : α}
    (h : (if p then throw e >>= f else x) = .ok a) : ¬p ∧ x = .ok a := by
  split_ifs at h with hp
  · cases h
  · exact ⟨hp, h⟩

theorem readType_eq_ok {info : TypeInfo} (h : readType b (levels + 1) offset = .ok info) :
    offset + typeSize ≤ b.size ∧ ∃ count first, (halfAt? b (offset + 10)).getD 0 = count ∧
      wordOrZero b (offset + 12) = first ∧ count * memberSize ≤ b.size ∧
      readMembers b (readType b levels) first count = .ok info.members := by
  obtain ⟨hsize, h⟩ := check_eq_ok h
  obtain ⟨code, -, h⟩ := bind_eq_ok.mp h
  dsimp only at h
  split at h
  · obtain ⟨cls, -, h⟩ := bind_eq_ok.mp h
    obtain ⟨elem, -, h⟩ := bind_eq_ok.mp h
    obtain ⟨rows, -, h⟩ := bind_eq_ok.mp h
    obtain ⟨columns, -, h⟩ := bind_eq_ok.mp h
    obtain ⟨elements, -, h⟩ := bind_eq_ok.mp h
    obtain ⟨count, hcount, h⟩ := bind_eq_ok.mp h
    obtain ⟨first, hfirst, h⟩ := bind_eq_ok.mp h
    obtain ⟨hroom, h⟩ := check_eq_ok h
    obtain ⟨members, hmembers, h⟩ := bind_eq_ok.mp h
    obtain rfl := Except.ok.inj h
    exact ⟨by omega, count, first, half_eq_ok hcount, word_eq_ok hfirst, by omega, hmembers⟩
  · cases h

/-- Types that were read from some descriptors have a node for each time one was read, and at most a
number of nodes. -/
structure Unfolds (b : Bytes) (bound : Nat) (visited : List Nat) (types : List TypeInfo) :
    Prop where
  length : types.length = visited.length
  inside : ∀ o ∈ visited, o + typeSize ≤ b.size
  bounded : types.length ≤ bound

theorem Unfolds.nil : Unfolds b 0 [] [] := ⟨rfl, nofun, Nat.le_refl 0⟩

theorem Unfolds.append {m n : Nat} {visited visited' : List Nat} {types types' : List TypeInfo}
    (h : Unfolds b m visited types) (h' : Unfolds b n visited' types') :
    Unfolds b (n + m) (visited ++ visited') (types ++ types') where
  length := by rw [length_append, length_append, h.length, h'.length]
  inside := forall_mem_append.mpr ⟨h.inside, h'.inside⟩
  bounded := by
    rw [length_append, Nat.add_comm n]
    exact Nat.add_le_add h.bounded h'.bounded

theorem unfolds_readMembers {read : Nat → Except TableError TypeInfo} {below : Nat → List Nat}
    {bound : Nat}
    (hread : ∀ offset info, read offset = .ok info → Unfolds b bound (below offset) info.nodes)
    {members : List Member} (h : readMembers b read offset count = .ok members) :
    Unfolds b (count * bound) ((wordsEvery b memberSize (offset + 4) count).flatMap below)
      (Member.nodes members) := by
  induction count generalizing offset members with
  | zero =>
    cases h
    rw [Nat.zero_mul]
    exact .nil
  | succ count ih =>
    obtain ⟨pointer, -, h⟩ := bind_eq_ok.mp h
    obtain ⟨name, -, h⟩ := bind_eq_ok.mp h
    obtain ⟨place, hplace, h⟩ := bind_eq_ok.mp h
    obtain ⟨info, hinfo, h⟩ := bind_eq_ok.mp h
    obtain ⟨rest, hrest, h⟩ := bind_eq_ok.mp h
    obtain rfl := Except.ok.inj h
    rw [wordsEvery, word_eq_ok hplace, flatMap_cons, Nat.add_right_comm, Nat.succ_mul]
    exact (hread place info hinfo).append (ih hrest)

/-- A type has a node for each descriptor that is read, and on each of its levels at most as many
members as entries fit the bytes. -/
theorem unfolds_readType {info : TypeInfo} (h : readType b levels offset = .ok info) :
    Unfolds b (∑ level ∈ range levels, (b.size / memberSize) ^ level)
      (descriptors b levels offset) info.nodes := by
  induction levels generalizing offset info with
  | zero => cases h
  | succ levels ih =>
    obtain ⟨hsize, count, first, hcount, hfirst, hroom, hmembers⟩ := readType_eq_ok h
    have hrest := unfolds_readMembers (fun _ _ => ih) hmembers
    have hfits : count ≤ b.size / memberSize := (Nat.le_div_iff_mul_le (by decide)).mpr hroom
    have hnodes : info.nodes = info :: Member.nodes info.members := by
      cases info
      rfl
    rw [descriptors, hcount, hfirst, hnodes]
    refine ⟨congrArg (· + 1) hrest.length, forall_mem_cons.mpr ⟨hsize, hrest.inside⟩, ?_⟩
    rw [Finset.sum_range_succ', pow_zero]
    refine Nat.succ_le_succ (hrest.bounded.trans ?_)
    simp only [pow_succ', ← mul_sum]
    exact Nat.mul_le_mul_right _ hfits

/-! ### Tables -/

theorem readType_of_readSymbol {s : Symbol} (h : readSymbol b offset = .ok s) :
    readType b (maxDepth + 1) (wordOrZero b (offset + 12)) = .ok s.info := by
  obtain ⟨pointer, -, h⟩ := bind_eq_ok.mp h
  obtain ⟨name, -, h⟩ := bind_eq_ok.mp h
  obtain ⟨code, -, h⟩ := bind_eq_ok.mp h
  dsimp only at h
  split at h
  · obtain ⟨registerSet, -, h⟩ := bind_eq_ok.mp h
    obtain ⟨index, -, h⟩ := bind_eq_ok.mp h
    obtain ⟨count, -, h⟩ := bind_eq_ok.mp h
    obtain ⟨place, hplace, h⟩ := bind_eq_ok.mp h
    obtain ⟨info, hinfo, h⟩ := bind_eq_ok.mp h
    obtain rfl := Except.ok.inj h
    rwa [word_eq_ok hplace]
  · cases h

theorem unfolds_readSymbols {symbols : List Symbol}
    (h : readSymbols b offset count = .ok symbols) :
    symbols.length = count ∧
    Unfolds b (count * ∑ level ∈ range (maxDepth + 1), (b.size / memberSize) ^ level)
      ((wordsEvery b constantSize (offset + 12) count).flatMap (descriptors b (maxDepth + 1)))
      (symbols.flatMap (·.info.nodes)) := by
  induction count generalizing offset symbols with
  | zero =>
    cases h
    rw [Nat.zero_mul]
    exact ⟨rfl, .nil⟩
  | succ count ih =>
    obtain ⟨s, hs, h⟩ := bind_eq_ok.mp h
    obtain ⟨rest, hrest, h⟩ := bind_eq_ok.mp h
    obtain rfl := Except.ok.inj h
    obtain ⟨hlength, hunfolds⟩ := ih hrest
    rw [wordsEvery, flatMap_cons, flatMap_cons, Nat.add_right_comm, Nat.succ_mul]
    exact ⟨congrArg (· + 1) hlength, (unfolds_readType (readType_of_readSymbol hs)).append hunfolds⟩

theorem unfolds_ofBytes {t : ConstantTable} (h : ofBytes b = .ok t) :
    t.symbols.length ≤ maxConstants ∧
    Unfolds b (t.symbols.length *
        ∑ level ∈ range (maxDepth + 1), (b.size / memberSize) ^ level)
      (allDescriptors b) t.nodes := by
  obtain ⟨size, -, h⟩ := bind_eq_ok.mp h
  obtain ⟨-, h⟩ := check_eq_ok h
  obtain ⟨pointer, -, h⟩ := bind_eq_ok.mp h
  obtain ⟨creator, -, h⟩ := bind_eq_ok.mp h
  obtain ⟨count, hcount, h⟩ := bind_eq_ok.mp h
  obtain ⟨first, hfirst, h⟩ := bind_eq_ok.mp h
  obtain ⟨pointer', -, h⟩ := bind_eq_ok.mp h
  obtain ⟨target, -, h⟩ := bind_eq_ok.mp h
  obtain ⟨hroom, h⟩ := check_eq_ok h
  obtain ⟨symbols, hsymbols, h⟩ := bind_eq_ok.mp h
  obtain rfl := Except.ok.inj h
  obtain ⟨hlength, hunfolds⟩ := unfolds_readSymbols hsymbols
  rw [allDescriptors, word_eq_ok hcount, word_eq_ok hfirst, hlength]
  exact ⟨by omega, hunfolds⟩

/-- Offsets below a size of which each occurs at most `k` times. -/
theorem length_le_of_count_le {visited : List Nat} {k size : Nat} (hsize : ∀ o ∈ visited, o < size)
    (hcount : ∀ o, visited.count o ≤ k) : visited.length ≤ k * size := by
  have hsubset : visited.toFinset ⊆ range size := fun o ho =>
    Finset.mem_range.mpr (hsize o (mem_toFinset.mp ho))
  calc visited.length = ∑ o ∈ visited.toFinset, visited.count o :=
        (sum_toFinset_count_eq_length visited).symm
    _ ≤ visited.toFinset.card * k := sum_le_card_nsmul _ _ _ fun o _ => hcount o
    _ ≤ size * k := Nat.mul_le_mul_right k
        ((card_le_card hsubset).trans_eq (card_range size))
    _ = k * size := Nat.mul_comm size k

/-- How large the types of a table get:

* they have one node for every time that a descriptor is read;
* if no descriptor is read more than `k` times, they have at most `k` nodes for each byte, so that
  more than sixteen for each byte need a descriptor that is read more than sixteen times;
* whatever is shared, each constant has at most as many nodes as a tree of the greatest depth whose
  nodes have as many members as there are entries in the bytes. -/
theorem nodes_ofWords {ws : List Word} {t : ConstantTable} (h : ofWords ws = .ok t) :
    let b := (bytesOfWords ws.tail).toArray
    t.nodes.length = (allDescriptors b).length ∧
    (∀ o ∈ allDescriptors b, o + typeSize ≤ b.size) ∧
    (∀ k, (∀ o, (allDescriptors b).count o ≤ k) → t.nodes.length ≤ k * (4 * ws.length)) ∧
    (16 * (4 * ws.length) < t.nodes.length → ∃ o, 16 < (allDescriptors b).count o) ∧
    t.symbols.length ≤ maxConstants ∧
    t.nodes.length ≤ t.symbols.length *
      ∑ level ∈ Finset.range (maxDepth + 1), (b.size / memberSize) ^ level := by
  cases ws with
  | nil => cases h
  | cons w ws =>
    intro b
    have hbytes : ofBytes b = .ok t := by
      dsimp only [ofWords] at h
      split_ifs at h
      exact h
    obtain ⟨hmax, hunfolds⟩ := unfolds_ofBytes hbytes
    have hsize : b.size = 4 * ws.length := by
      rw [List.size_toArray, List.tail_cons, length_bytesOfWords]
    have hshared : ∀ k, (∀ o, (allDescriptors b).count o ≤ k) →
        t.nodes.length ≤ k * (4 * (w :: ws).length) := by
      intro k hk
      refine hunfolds.length ▸ length_le_of_count_le (fun o ho => ?_) hk
      have hinside := hunfolds.inside o ho
      rw [List.length_cons]
      unfold typeSize at hinside
      omega
    refine ⟨hunfolds.length, hunfolds.inside, hshared, fun hmany => ?_, hmax, hunfolds.bounded⟩
    by_contra hfew
    exact absurd (hshared 16 fun o => not_lt.mp fun ho => hfew ⟨o, ho⟩) (not_le.mpr hmany)

def sharedWords : List Word :=
  [tag, 28, 8, 0, 1, 28, 0, 8, 8, 2, 1, 48, 0, 5, 0x00010001, 0x00020000, 64, 8, 80, 8, 80,
    0x00030000, 0x00010001, 0, 0]

/-- Its shared descriptor is read twice. -/
theorem nodes_ofWords_shared : ∃ t, ofWords sharedWords = .ok t ∧ t.nodes.length = 3 ∧
    allDescriptors (bytesOfWords sharedWords.tail).toArray = [48, 80, 80] := by
  have hread : (ofWords sharedWords).isOk = true := by decide +kernel
  have hdescriptors : allDescriptors (bytesOfWords sharedWords.tail).toArray = [48, 80, 80] := by
    decide +kernel
  cases h : ofWords sharedWords with
  | error e =>
    rw [h] at hread
    cases hread
  | ok t =>
    have hlength := (nodes_ofWords h).1
    rw [hdescriptors] at hlength
    exact ⟨t, rfl, hlength, hdescriptors⟩

end ShaderPipeline.ConstantTable
