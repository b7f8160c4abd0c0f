import ShaderPipeline.Proofs.Preshader.Carried

/-!
# What a run of a preshader computes

An instruction is safe if its operation is one of those that are computed, and its operands name
cells that their pools have. Safe instructions never fail. Each of them assigns all its lanes at
once: they are computed from the cells as they were before it, also where it writes cells that it
reads, and every other cell keeps its value.
-/

namespace ShaderPipeline.Preshader

open List Cells

/-! ### Cells of the pools -/

variable (p : Preshader) {op : Opcode}

def poolSize (outputCount : Nat) : Pool → Nat
  | .literal => p.literals.size
  | .input => p.registers.size
  | .output => outputCount
  | .temp => p.tempCount

def Cells.temp (c : Cells) (k : Nat) : Binary64 := (c.temps.lookup k).getD .zero

/-- The number in a cell; zero where a pool has no cell. -/
def Cells.number (c : Cells) (p : Preshader) : Pool → Nat → Binary64
  | .literal, k => p.literals[k]?.getD .zero
  | .input, k => (p.registers[k]?.map Binary32.widen).getD .zero
  | .output, k => (c.outputs[k]?.map Binary32.widen).getD .zero
  | .temp, k => c.temp k

section Reading

variable {p : Preshader} {c : Cells}

theorem readCell_eq {pool : Pool} {k : Nat} (hk : k < p.poolSize c.outputs.size pool) :
    readCell p c pool k = .ok (c.number p pool k) := by
  cases pool with
  | literal | input | output =>
    simp only [poolSize] at hk
    simp [readCell, number, hk]
  | temp =>
    simp only [poolSize] at hk
    simp [readCell, number, temp, hk]

theorem readCells_eq {pool : Pool} {index count : Nat}
    (h : index + count ≤ p.poolSize c.outputs.size pool) :
    readCells p c pool index count =
      .ok ((range count).map fun k => c.number p pool (index + k)) := by
  induction count generalizing index with
  | zero => rfl
  | succ count ih =>
    rw [readCells, readCell_eq (by omega), ih (by omega), range_succ_eq_map, map_cons, map_map]
    refine congrArg (fun xs => Except.ok (_ :: xs)) (map_congr_left fun k _ => ?_)
    rw [Function.comp_apply, Nat.succ_eq_add_one, Nat.add_right_comm, Nat.add_assoc]

end Reading

/-! ### Safe instructions -/

def Opcode.isComputed (op : Opcode) : Bool :=
  !([.nop, .movc, .noise, .dotScalar, .noiseScalar] : List Opcode).contains op

/-- An instruction that is computed and whose operands are inside pools of the given sizes. A
scalar operation names one cell with its first source. -/
@[mk_iff]
structure Instruction.Safe (i : Instruction) (size : Pool → Nat) : Prop where
  computed : i.opcode.isComputed = true
  elements : 1 ≤ i.elements ∧ i.elements ≤ 4
  sources_le : i.sources.length ≤ 3
  static : ∀ o ∈ i.sources, o.arrayRegisters = []
  sources : ∀ x ∈ i.sources.zipIdx, x.1.index + i.lanes x.2 ≤ size x.1.pool
  destination : ∃ d ∈ i.destination?, (d.pool = .temp ∨ d.pool = .output) ∧
    d.index + i.elements ≤ size d.pool

instance (i : Instruction) (size : Pool → Nat) : Decidable (i.Safe size) :=
  decidable_of_iff _ (Instruction.safe_iff i size).symm

/-- The number in lane `k` of a source, for numbers in the cells. The one lane of a scalar serves
for all lanes, and a source that is missing is zero. -/
def Instruction.source (i : Instruction) (number : Pool → Nat → Binary64) (slot k : Nat) :
    Binary64 :=
  (i.sources[slot]?.map fun o =>
    number o.pool (o.index + if i.opcode.isScalar ∧ slot = 0 then 0 else k)).getD .zero

/-- What an operation computes for lane `k` from the lanes of its sources. -/
def Opcode.compute (op : Opcode) (elems : Nat) (source : Nat → Nat → Binary64) (k : Nat) : Float :=
  let lane (slot k : Nat) : Float := (source slot k).toFloat
  match unary? op, binary? op with
  | some f, _ => f (lane 0 k)
  | none, some f => f (lane 0 k) (lane 1 k)
  | none, none =>
    if op = .dot then ((List.range elems).map fun j => lane 0 j * lane 1 j).foldl (· + ·) (-0.0)
    else if lane 0 k ≥ 0.0 then lane 1 k else lane 2 k

/-- The number that an instruction computes for lane `k`, for numbers in the cells. -/
def Instruction.result (i : Instruction) (number : Pool → Nat → Binary64) (k : Nat) : Binary64 :=
  .ofFloat (i.opcode.compute i.elements (i.source number) k)

/-! ### Operations -/

/-- Only operations on two sources are scalar. -/
theorem not_isScalar_of_unary? {f : Float → Float} (h : unary? op = some f) :
    op.isScalar = false := by
  cases op <;> first | rfl | exact nomatch h

theorem eq_cmp_or_dot (hop : op.isComputed = true) (hunary : unary? op = none)
    (hbinary : binary? op = none) : op = .cmp ∨ op = .dot := by
  cases op <;> simp_all [Opcode.isComputed, unary?, binary?]

theorem evaluate_eq {elems : Nat} (lists : List (List Binary64)) (source : Nat → Nat → Binary64)
    (hop : op.isComputed = true)
    (hlists : ∀ slot < 3, ∀ k < elems, (lists.getD slot []).getD (if op.isScalar ∧ slot = 0 then 0 else k) .zero = source slot k) :
    evaluate op elems lists =
      .ok ((range elems).map fun k => .ofFloat (op.compute elems source k)) := by
  have hlane : ∀ slot < 3, (op.isScalar = true → slot ≠ 0) → ∀ k ∈ range elems,
      (lists.getD slot []).getD k .zero = source slot k := by
    intro slot hslot hscalar k hk
    have hvector : ¬(op.isScalar = true ∧ slot = 0) := fun h => hscalar h.1 h.2
    rw [← hlists slot hslot k (mem_range.mp hk), if_neg hvector]
  unfold evaluate Opcode.compute
  dsimp only
  cases hunary : unary? op with
  | some f =>
    have hscalar : op.isScalar ≠ true := by simp [not_isScalar_of_unary? hunary]
    refine congrArg Except.ok (map_congr_left fun k hk => ?_)
    rw [hlane 0 (by decide) (absurd · hscalar) k hk]
  | none =>
    cases hbinary : binary? op with
    | some f =>
      refine congrArg Except.ok (map_congr_left fun k hk => ?_)
      have hfirst : (if op.isScalar then ((lists.getD 0 []).getD 0 .zero).toFloat
          else ((lists.getD 0 []).getD k .zero).toFloat) = (source 0 k).toFloat := by
        rw [← hlists 0 (by decide) k (mem_range.mp hk)]
        split_ifs <;> simp_all
      have hsecond := hlane 1 (by decide) (fun _ => Nat.one_ne_zero) k hk
      exact congrArg Binary64.ofFloat (congrArg₂ f hfirst (congrArg Binary64.toFloat hsecond))
    | none =>
      have hscalar : op.isScalar ≠ true := by
        obtain rfl | rfl := eq_cmp_or_dot hop hunary hbinary <;> decide
      have hvector := fun slot hslot => hlane slot hslot (absurd · hscalar)
      obtain rfl | rfl := eq_cmp_or_dot hop hunary hbinary
      · refine congrArg Except.ok (map_congr_left fun k hk => ?_)
        simp only [hvector 0 (by decide) k hk, hvector 1 (by decide) k hk,
          hvector 2 (by decide) k hk, reduceCtorEq, if_false]
      · have hproducts : ((range elems).map fun k =>
            ((lists.getD 0 []).getD k .zero).toFloat * ((lists.getD 1 []).getD k .zero).toFloat) =
            (range elems).map fun k => (source 0 k).toFloat * (source 1 k).toFloat :=
          map_congr_left fun k hk => by
            rw [hvector 0 (by decide) k hk, hvector 1 (by decide) k hk]
        simp only [hproducts, if_true]

/-! ### One instruction -/

/-- An instruction computes its lanes from the cells `c`, stores them in the cells of `d` and leaves
all other cells as they are. Outputs are stored in single precision. -/
structure Instruction.Assigns (i : Instruction) (p : Preshader) (d : Operand) (c c' : Cells) :
    Prop where
  size : c'.outputs.size = c.outputs.size
  outputs : ∀ k, c'.outputs[k]? =
    if d.covers i.elements .output k then some (i.result (c.number p) (k - d.index)).narrow
    else c.outputs[k]?
  temps : ∀ k, c'.temp k =
    if d.covers i.elements .temp k then i.result (c.number p) (k - d.index) else c.temp k

section Step

variable {p : Preshader} {c : Cells} {i : Instruction}

theorem exists_of_readSource {slot : Nat} {o : Operand} (helements : 1 ≤ i.elements)
    (hstatic : o.arrayRegisters = [])
    (hin : o.index + i.lanes slot ≤ p.poolSize c.outputs.size o.pool) :
    ∃ xs, readSource p c i i.elements slot o = .ok xs ∧
      ∀ k < i.lanes slot, xs.getD k .zero = c.number p o.pool (o.index + k) := by
  have hmap : ∀ {count k : Nat}, k < count →
      ((range count).map fun k => c.number p o.pool (o.index + k)).getD k .zero =
        c.number p o.pool (o.index + k) := by
    intro count k hk
    rw [getD_eq_getElem?_getD, getElem?_map, getElem?_range hk]
    rfl
  unfold readSource Instruction.lanes at *
  by_cases hscalar : i.opcode.isScalar = true ∧ slot = 0
  · have hone : (i.opcode.isScalar && slot == 0) = true := by simpa using hscalar
    rw [if_pos hscalar] at hin
    simp only [hone, if_pos hscalar, if_true]
    by_cases hpool : o.pool = .literal
    · -- A literal is spread over all lanes; the first of them is what counts.
      have hread : readCell p c .literal o.index = .ok (c.number p .literal o.index) :=
        readCell_eq (by rw [hpool] at hin; omega)
      rw [if_pos ⟨hpool, trivial⟩]
      refine ⟨_, bind_eq_ok.mpr ⟨_, hread, rfl⟩, fun k hk => ?_⟩
      obtain rfl : k = 0 := by omega
      rw [hpool, getD_eq_getElem?_getD, getElem?_replicate, if_pos (by omega)]
      rfl
    · rw [if_neg (fun h => hpool h.1), if_neg (fun h => h.2 hstatic)]
      exact ⟨_, readCells_eq hin, fun k hk => hmap hk⟩
  · have hmany : (i.opcode.isScalar && slot == 0) = false := by simpa using hscalar
    rw [if_neg hscalar] at hin
    simp only [hmany, if_neg hscalar]
    rw [if_neg (by simp), if_neg (fun h => h.2 hstatic)]
    exact ⟨_, readCells_eq hin, fun k hk => hmap hk⟩

theorem exists_of_readSources (slot : Nat) {os : List Operand} (helements : 1 ≤ i.elements)
    (hstatic : ∀ o ∈ os, o.arrayRegisters = [])
    (hin : ∀ x ∈ os.zipIdx slot, x.1.index + i.lanes x.2 ≤ p.poolSize c.outputs.size x.1.pool) :
    ∃ lists, readSources p c i i.elements slot os = .ok lists ∧
      ∀ j, ∀ k < i.lanes (slot + j), (lists.getD j []).getD k .zero =
        (os[j]?.map fun o => c.number p o.pool (o.index + k)).getD .zero := by
  induction os generalizing slot with
  | nil => exact ⟨[], rfl, fun j k _ => by simp⟩
  | cons o rest ih =>
    rw [zipIdx_cons, forall_mem_cons] at hin
    rw [forall_mem_cons] at hstatic
    obtain ⟨xs, hxs, hlanes⟩ := exists_of_readSource helements hstatic.1 hin.1
    obtain ⟨lists, hlists, hrest⟩ := ih (slot + 1) hstatic.2 hin.2
    refine ⟨xs :: lists, bind_eq_ok.mpr ⟨xs, hxs, bind_eq_ok.mpr ⟨lists, hlists, rfl⟩⟩, ?_⟩
    intro j k hk
    cases j with
    | zero => simpa using hlanes k hk
    | succ j =>
      have hslot : slot + (j + 1) = slot + 1 + j := by omega
      simpa using hrest j k (hslot ▸ hk)

/-- The lanes of an operand that is there are written to its cells and to no others. -/
theorem writeDestination_eq {d : Operand} (n : Nat) (result : Nat → Binary64)
    (hpool : d.pool = .temp ∨ d.pool = .output)
    (hin : d.index + n ≤ p.poolSize c.outputs.size d.pool) :
    ∃ c', writeDestination p c d ((range n).map result) = .ok c' ∧
      c'.outputs.size = c.outputs.size ∧
      (∀ k, c'.outputs[k]? =
        if d.covers n .output k then some (result (k - d.index)).narrow else c.outputs[k]?) ∧
      ∀ k, c'.temp k = if d.covers n .temp k then result (k - d.index) else c.temp k := by
  have hlane : ∀ {k : Nat}, k < n → ((range n).map result)[k]? = some (result k) := by
    intro k hk
    rw [getElem?_map, getElem?_range hk, Option.map_some]
  unfold writeDestination
  rw [length_map, length_range]
  obtain hpool | hpool := hpool <;> simp only [hpool, poolSize, Operand.covers] at hin ⊢
  · rw [if_pos hin]
    refine ⟨_, rfl, rfl, fun k => by simp, fun k => ?_⟩
    rw [temp, lookup_writeTemps, length_map, length_range]
    by_cases hk : d.index ≤ k ∧ k < d.index + n
    · rw [if_pos hk, hlane (by omega)]
      simp [hk]
    · rw [if_neg hk]
      simp [hk, temp]
  · rw [if_pos hin]
    refine ⟨_, rfl, by simp [writeOutputs_eq], fun k => ?_, fun k => by simp [temp]⟩
    rw [writeOutputs_eq, getElem?_overwrite, length_map, length_map, length_range]
    by_cases hk : d.index ≤ k ∧ k < d.index + n
    · rw [if_pos ⟨hk.1, hk.2, by omega⟩, getElem?_map, hlane (by omega)]
      simp [hk]
    · rw [if_neg fun h => hk ⟨h.1, h.2.1⟩]
      simp [hk]

/-- A safe instruction does not fail, and assigns its lanes at once. -/
theorem Instruction.Safe.step (h : i.Safe (p.poolSize c.outputs.size)) :
    ∃ d c', i.destination? = some d ∧ step p c i = .ok c' ∧ i.Assigns p d c c' := by
  obtain ⟨lists, hlists, hlanes⟩ :=
    exists_of_readSources 0 h.elements.1 h.static h.sources
  have hevaluate : evaluate i.opcode i.elements lists =
      .ok ((range i.elements).map (i.result (c.number p))) := by
    refine evaluate_eq lists (i.source (c.number p)) h.computed fun slot _ k hk => ?_
    have hk' : (if i.opcode.isScalar = true ∧ slot = 0 then 0 else k) < i.lanes (0 + slot) := by
      rw [Nat.zero_add, Instruction.lanes]
      split_ifs <;> omega
    exact hlanes slot _ hk'
  obtain ⟨d, hd, hpool, hin⟩ := h.destination
  obtain ⟨c', hwrite, hsize, houtputs, htemps⟩ :=
    writeDestination_eq i.elements (i.result (c.number p)) hpool hin
  refine ⟨d, c', hd, ?_, hsize, houtputs, htemps⟩
  have hwidth : min i.elements maxLanes = i.elements := Nat.min_eq_left h.elements.2
  rw [Preshader.step, hwidth, maxSources, take_of_length_le h.sources_le]
  refine bind_eq_ok.mpr ⟨lists, hlists, bind_eq_ok.mpr ⟨_, hevaluate, ?_⟩⟩
  rw [hd]
  exact hwrite

end Step

/-! ### Runs -/

/-- The cells after the first instructions of a run. -/
def cellsAfter (outputs : Array Binary32) (n : Nat) : Cells :=
  (runFrom p ⟨[], outputs⟩ (p.instructions.take n)).2

theorem runFrom_append (c : Cells) (is js : List Instruction) :
    runFrom p c (is ++ js) =
      match runFrom p c is with
      | (none, c') => runFrom p c' js
      | (some e, c') => (some e, c') := by
  induction is generalizing c with
  | nil => rfl
  | cons i rest ih =>
    rw [cons_append, runFrom, runFrom]
    cases Preshader.step p c i with
    | ok c' => exact ih c'
    | error e => rfl

theorem runFrom_safe {p : Preshader} {c : Cells} {is : List Instruction}
    (h : ∀ i ∈ is, i.Safe (p.poolSize c.outputs.size)) :
    (runFrom p c is).1 = none := by
  induction is generalizing c with
  | nil => rfl
  | cons i rest ih =>
    obtain ⟨d, c', -, hstep, hassigns⟩ := (h i mem_cons_self).step
    rw [runFrom, hstep]
    exact ih fun j hj => hassigns.size ▸ h j (mem_cons_of_mem _ hj)

theorem cellsAfter_succ {p : Preshader} {outputs : Array Binary32}
    (h : ∀ i ∈ p.instructions, i.Safe (p.poolSize outputs.size)) {n : Nat} {i : Instruction}
    (hi : p.instructions[n]? = some i) : ∃ d, i.destination? = some d ∧
      step p (p.cellsAfter outputs n) i = .ok (p.cellsAfter outputs (n + 1)) ∧
      i.Assigns p d (p.cellsAfter outputs n) (p.cellsAfter outputs (n + 1)) := by
  have hsize : (p.cellsAfter outputs n).outputs.size = outputs.size :=
    (runFrom_outside p ⟨[], outputs⟩ (p.instructions.take n)).1
  have hbefore : runFrom p ⟨[], outputs⟩ (p.instructions.take n) =
      (none, p.cellsAfter outputs n) :=
    Prod.ext (runFrom_safe fun j hj => h j (mem_of_mem_take hj)) rfl
  have hsafe : i.Safe (p.poolSize (p.cellsAfter outputs n).outputs.size) :=
    hsize.symm ▸ h i (mem_of_getElem? hi)
  obtain ⟨d, c', hd, hstep, hassigns⟩ := hsafe.step
  have hafter : p.cellsAfter outputs (n + 1) = c' := by
    rw [cellsAfter, take_add_one, hi, runFrom_append, hbefore]
    simp [runFrom, hstep]
  rw [hafter]
  exact ⟨d, hd, hstep, hassigns⟩

/-- The first three outputs move up by one place, two inputs times a literal go to temporaries, and
the sums of these and of outputs go to outputs again. -/
def shiftAndScale : Preshader where
  literals := #[.one]
  tempCount := 2
  symbols := []
  registers := #[⟨10⟩, ⟨20⟩, ⟨30⟩, ⟨40⟩]
  instructions := [
    ⟨.mov, 3, [⟨.output, 0, []⟩, ⟨.output, 1, []⟩]⟩,
    ⟨.mulScalar, 2, [⟨.literal, 0, []⟩, ⟨.input, 2, []⟩, ⟨.temp, 0, []⟩]⟩,
    ⟨.add, 2, [⟨.temp, 0, []⟩, ⟨.output, 1, []⟩, ⟨.output, 2, []⟩]⟩]

end ShaderPipeline.Preshader
