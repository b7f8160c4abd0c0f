import ShaderPipeline.Proofs.Outcomes
import ShaderPipeline.Proofs.Preshader.RoundTrip

/-!
# Operands inside their pools

Whatever stream is accepted, its instructions have the shape of their opcodes and its literals are
there. The checks of inputs and outputs and the count of the temporaries add on words, so an operand
whose last cell has a number of more than 32 bits passes them and lies outside of its pool. Such
operands are the only ones: all others name cells that their pools have.
-/

namespace ShaderPipeline

open List

/-! ### Symbols of a table -/

def Symbol.Narrow (s : Symbol) : Prop := s.index < 2 ^ 16 ∧ s.count < 2 ^ 16

namespace ConstantTable

variable {b : Bytes} {offset count n : Nat} {what : String}

theorem half_lt (h : half b offset what = .ok n) : n < 2 ^ 16 := by
  unfold half halfAt? at h
  cases hlow : b[offset]? with
  | none => simp [hlow] at h
  | some low =>
    cases hhigh : b[offset + 1]? with
    | none => simp [hlow, hhigh] at h
    | some high =>
      simp only [hlow, hhigh, bind, Option.bind, pure] at h
      obtain rfl := Except.ok.inj h
      have := low.toNat_lt
      have := high.toNat_lt
      omega

theorem narrow_of_readSymbol {s : Symbol} (h : readSymbol b offset = .ok s) : s.Narrow := by
  simp only [readSymbol, bind_eq_ok] at h
  obtain ⟨_, -, name, -, code, -, h⟩ := h
  split at h
  · simp only [bind_eq_ok] at h
    obtain ⟨_, -, index, hindex, count, hcount, _, -, _, -, hs⟩ := h
    obtain rfl := Except.ok.inj hs
    exact ⟨half_lt hindex, half_lt hcount⟩
  · cases h

theorem narrow_of_readSymbols {ss : List Symbol} (h : readSymbols b offset count = .ok ss) :
    ∀ s ∈ ss, s.Narrow := by
  induction count generalizing offset ss with
  | zero =>
    obtain rfl := Except.ok.inj h
    exact forall_mem_nil _
  | succ count ih =>
    simp only [readSymbols, bind_eq_ok] at h
    obtain ⟨s, hs, rest, hrest, heq⟩ := h
    obtain rfl := Except.ok.inj heq
    exact forall_mem_cons.mpr ⟨narrow_of_readSymbol hs, ih hrest⟩

theorem narrow_of_ofWords {ws : List Word} {t : ConstantTable} (h : ofWords ws = .ok t) :
    ∀ s ∈ t.symbols, s.Narrow := by
  unfold ofWords at h
  split at h
  · exact nomatch h
  split_ifs at h
  simp only [ofBytes, bind_eq_ok] at h
  obtain ⟨size, -, h⟩ := h
  split_ifs at h
  · exact nomatch h
  simp only [bind_eq_ok] at h
  obtain ⟨_, -, creator, -, count, -, first, -, _, -, target, -, h⟩ := h
  split_ifs at h
  · exact nomatch h
  simp only [bind_eq_ok] at h
  obtain ⟨ss, hss, heq⟩ := h
  obtain rfl := Except.ok.inj heq
  exact narrow_of_readSymbols hss

end ConstantTable

namespace Preshader

/-! ### Parts of an accepted preshader -/

/-- The output map among sections, if there is one. -/
def Sections.outputRanges (s : Sections) : Except PreshaderError (Option (List (Nat × Nat))) :=
  match s.outputs with
  | some block => some <$> readOutputMap block
  | none => return none

/-- The output map of a stream, if there is one. -/
def outputRanges (words : List Word) : Except PreshaderError (Option (List (Nat × Nat))) := do
  (← Sections.collect 0 .empty words.tail).outputRanges

/-- What is known of the parts of a preshader whose output map is `ranges`. -/
structure Checked (p : Preshader) (ranges : Option (List (Nat × Nat))) : Prop where
  parts : p = ofParts p.literals p.symbols p.instructions
  narrow : ∀ s ∈ p.symbols, s.Narrow
  instructions : ∀ i ∈ p.instructions, i.Checked ⟨p.literals.size, p.symbols, ranges⟩

theorem checked_of_readInstructions {pools : Pools} {block : List Word} {is : List Instruction}
    (h : readInstructions pools block = .ok is) : ∀ i ∈ is, i.Checked pools := by
  unfold readInstructions at h
  split at h
  · split_ifs at h
    · exact nomatch h
    rw [StateT.run'_eq] at h
    obtain ⟨⟨is', rest⟩, hrun, rfl⟩ := exists_of_map_eq_ok h
    exact WordReader.ensures_instructions _ hrun
  · exact nomatch h

/-- The preshader of a table and an instruction section, its other sections read before. -/
def ofTable (literals : Array Binary64) (ranges : Option (List (Nat × Nat)))
    (table instructionBlock : List Word) : Except PreshaderError Preshader :=
  match ConstantTable.ofWords table with
  | .error e => .error (.ctab e)
  | .ok t =>
    match t.symbols.find? (·.registerSet ≠ .float4) with
    | some y => malformed (.inputSet y.name)
    | none =>
      ofParts literals t.symbols <$>
        readInstructions ⟨literals.size, t.symbols, ranges⟩ instructionBlock

theorem ofSections_eq (s : Sections) :
    ofSections s = (do
      let table ← needSection s.table "CTAB"
      let literalBlock ← needSection s.literals "CLIT"
      let instructionBlock ← needSection s.instructions "FXLC"
      let literals ← readLiterals literalBlock
      let ranges ← s.outputRanges
      ofTable literals ranges table instructionBlock) := by
  unfold ofSections Sections.outputRanges
  refine bind_congr fun table => bind_congr fun literalBlock => bind_congr fun block =>
    bind_congr fun literals => ?_
  -- With an output map and without one, the same steps follow.
  cases s.outputs <;> refine bind_congr fun ranges => ?_
  all_goals
    simp only [ofTable]
    cases ConstantTable.ofWords table with
    | error e => rfl
    | ok t =>
      simp only [pure_bind]
      cases t.symbols.find? (·.registerSet ≠ .float4) <;> rfl

theorem checked_of_ofTable {literals : Array Binary64} {ranges : Option (List (Nat × Nat))}
    {table block : List Word} {p : Preshader} (h : ofTable literals ranges table block = .ok p) :
    p.Checked ranges := by
  unfold ofTable at h
  split at h
  · exact nomatch h
  next t htable =>
  split at h
  · exact nomatch h
  obtain ⟨is, hread, rfl⟩ := exists_of_map_eq_ok h
  exact ⟨rfl, ConstantTable.narrow_of_ofWords htable, checked_of_readInstructions hread⟩

theorem exists_checked_of_ofWords {words : List Word} {p : Preshader} (h : ofWords words = .ok p) :
    ∃ ranges, outputRanges words = .ok ranges ∧ p.Checked ranges := by
  unfold ofWords at h
  split at h
  · exact nomatch h
  next version rest =>
  split_ifs at h
  obtain ⟨s, hs, hp⟩ := bind_eq_ok.mp h
  simp only [ofSections_eq, bind_eq_ok] at hp
  obtain ⟨table, -, literalBlock, -, block, -, literals, -, ranges, hranges, hp⟩ := hp
  exact ⟨ranges, bind_eq_ok.mpr ⟨s, hs, hranges⟩, checked_of_ofTable hp⟩

/-! ### Checks on numbers -/

/-- An operand that names `lanes` cells names cells of `count` registers from `first` on. -/
def Operand.Within (o : Operand) (lanes first count : Nat) : Prop :=
  first * 4 ≤ o.index ∧ o.index + lanes ≤ (first + count) * 4

section Operands

variable {o : Operand} {pools : Pools} {lanes : Nat} (h : o.Checked pools lanes)

include h

theorem Operand.Checked.le_literalCount (hpool : o.pool = .literal) :
    o.index + lanes ≤ pools.literalCount := by
  have hdefect := h.defect
  rw [hpool] at hdefect
  by_contra hbeyond
  exact nomatch (if_pos (Nat.not_le.mp hbeyond)).symm.trans hdefect

theorem Operand.Checked.exists_symbol (hpool : o.pool = .input) (hstatic : o.arrayRegisters = [])
    (hlast : o.index + lanes < 2 ^ 32) : ∃ s ∈ pools.symbols, o.Within lanes s.index s.count := by
  have hdefect := h.defect
  rw [hpool, hstatic] at hdefect
  have hcovers : pools.coversInput o.index lanes = true := by
    by_contra huncovered
    have hfailed : length ([] : List Nat) = 0 ∧ (!pools.coversInput o.index lanes) = true :=
      ⟨rfl, by simpa using huncovered⟩
    exact nomatch (if_pos hfailed).symm.trans hdefect
  obtain ⟨s, hs, hin⟩ := any_eq_true.mp hcovers
  have hwrap : wrap32 (o.index + lanes) = o.index + lanes := Nat.mod_eq_of_lt hlast
  simp only [hwrap, Bool.and_eq_true, decide_eq_true_eq] at hin
  refine ⟨s, hs, hin.1, ?_⟩
  rw [Nat.add_mul]
  exact hin.2

/-- The end of a range may be lost, but then the range is taken for a smaller one. -/
theorem Operand.Checked.exists_range (hpool : o.pool = .output) {map : List (Nat × Nat)}
    (hmap : pools.outputMap = some map) (hstart : ∀ r ∈ map, r.1 < 2 ^ 30)
    (hlast : o.index + lanes < 2 ^ 32) : ∃ r ∈ map, o.Within lanes r.1 r.2 := by
  have hcovers := h.coversOutput hpool
  simp only [Pools.coversOutput, hmap] at hcovers
  obtain ⟨r, hr, hin⟩ := any_eq_true.mp hcovers
  have hwrap : wrap32 (o.index + lanes) = o.index + lanes := Nat.mod_eq_of_lt hlast
  have hfirst : wrap32 (r.1 * 4) = r.1 * 4 := Nat.mod_eq_of_lt (by have := hstart r hr; omega)
  simp only [hwrap, hfirst, Bool.and_eq_true, decide_eq_true_eq] at hin
  exact ⟨r, hr, hin.1, hin.2.trans (Nat.mod_le _ _)⟩

end Operands

/-! ### Cells of an accepted preshader -/

namespace Checked

variable {p : Preshader} {ranges : Option (List (Nat × Nat))} (h : p.Checked ranges)

include h

theorem tempCount_le_iff {n : Nat} : p.tempCount ≤ n ↔ ∀ i ∈ p.instructions, ∀ x ∈ i.spans,
    x.1.pool = .temp → wrap32 (x.1.index + x.2) ≤ n := by
  have hcount : p.tempCount = (p.instructions.map Instruction.tempExtent).foldl max 0 :=
    congrArg Preshader.tempCount h.parts
  rw [hcount, foldl_max_le_iff, and_iff_right (Nat.zero_le n), forall_mem_map]
  exact forall₂_congr fun i _ => Instruction.tempExtent_le_iff_wrap32

theorem size_registers_le_iff {n : Nat} :
    p.registers.size ≤ n * 4 ↔ ∀ s ∈ p.symbols, s.index + s.count ≤ n := by
  have hsize : p.registers.size =
      (p.symbols.map fun s => s.index + s.count).foldl max 0 * 4 := by
    have hregisters := congrArg Preshader.registers h.parts
    rw [hregisters, ofParts, Array.size_replicate]
  rw [hsize, Nat.mul_le_mul_right_iff (by decide), foldl_max_le_iff,
    and_iff_right (Nat.zero_le n), forall_mem_map]

theorem size_registers_mod : p.registers.size % 4 = 0 := by
  have hregisters := congrArg Preshader.registers h.parts
  rw [hregisters, ofParts, Array.size_replicate, Nat.mul_mod_left]

theorem size_registers_lt : p.registers.size < 2 ^ 32 := by
  have hle : p.registers.size ≤ 2 ^ 17 * 4 := h.size_registers_le_iff.mpr fun s hs => by
    have := h.narrow s hs
    rw [Symbol.Narrow] at this
    omega
  omega

theorem symbol_le {s : Symbol} (hs : s ∈ p.symbols) :
    (s.index + s.count) * 4 ≤ p.registers.size := by
  have hmod := h.size_registers_mod
  have := h.size_registers_le_iff.mp (Nat.le_of_eq (by omega : _ = p.registers.size / 4 * 4)) s hs
  omega

theorem tempCount_lt : p.tempCount < 2 ^ 32 := by
  have hle : p.tempCount ≤ 2 ^ 32 - 1 := h.tempCount_le_iff.mpr fun _ _ x _ _ => by
    have : wrap32 (x.1.index + x.2) < 2 ^ 32 := Nat.mod_lt _ (by decide)
    omega
  omega

section

variable {i : Instruction} (hi : i ∈ p.instructions) {x : Operand × Nat} (hx : x ∈ i.spans)

include hi hx

theorem input_iff (hpool : x.1.pool = .input) (hstatic : x.1.arrayRegisters = []) :
    (∃ s ∈ p.symbols, x.1.Within x.2 s.index s.count) ∧ x.1.index + x.2 ≤ p.registers.size ↔
      x.1.index + x.2 < 2 ^ 32 := by
  constructor
  · rintro ⟨-, hle⟩
    exact Nat.lt_of_le_of_lt hle h.size_registers_lt
  · intro hlast
    obtain ⟨s, hs, hin⟩ := ((h.instructions i hi).operands x hx).exists_symbol hpool hstatic hlast
    exact ⟨⟨s, hs, hin⟩, hin.2.trans (h.symbol_le hs)⟩

theorem temp_iff (hpool : x.1.pool = .temp) :
    x.1.index + x.2 ≤ p.tempCount ↔ x.1.index + x.2 < 2 ^ 32 := by
  constructor
  · exact fun hle => Nat.lt_of_le_of_lt hle h.tempCount_lt
  · intro hlast
    have hle := h.tempCount_le_iff.mp (Nat.le_refl _) i hi x hx hpool
    rwa [wrap32, Nat.mod_eq_of_lt hlast] at hle

theorem output_iff (hpool : x.1.pool = .output) {map : List (Nat × Nat)}
    (hmap : ranges = some map) (hends : ∀ r ∈ map, (r.1 + r.2) * 4 < 2 ^ 32) :
    (∃ r ∈ map, x.1.Within x.2 r.1 r.2) ↔ x.1.index + x.2 < 2 ^ 32 := by
  constructor
  · rintro ⟨r, hr, -, hle⟩
    exact Nat.lt_of_le_of_lt hle (hends r hr)
  · refine ((h.instructions i hi).operands x hx).exists_range hpool hmap fun r hr => ?_
    have := hends r hr
    omega

end

end Checked

def lastCellMove : Instruction :=
  ⟨.mov, 1, [⟨.input, 2 ^ 32 - 1, []⟩, ⟨.temp, 2 ^ 32 - 1, []⟩]⟩

end Preshader

end ShaderPipeline
