import ShaderPipeline.Preshader.Run
import ShaderPipeline.Proofs.Device.Cells
import ShaderPipeline.Proofs.Layout.Ordered
import ShaderPipeline.Proofs.Outcomes

/-!
# What a run of a preshader carries over

A preshader may read its outputs, and so its result may depend on what they held before. Of two runs
on different outputs, `Marks` follows the cells that may differ: an instruction marks the cells that
it writes if it reads a marked cell, and unmarks them otherwise. Whether a run fails depends on no
value of an output or temporary.
-/

namespace ShaderPipeline.Preshader

open Preshader List Except Preshader.Operand

variable {sources : List (List Binary64)} {xs : List Binary64} {i : Instruction} {d : Cells}
  {p : Preshader}

/-! ### Reading and writing -/

theorem writeOutputs_eq (outputs : Array Binary32) (index : Nat) (lanes : List Binary64) :
    writeOutputs outputs index lanes = overwrite outputs index (lanes.map Binary64.narrow) := by
  induction lanes generalizing outputs index with
  | nil => rfl
  | cons x rest ih => exact ih _ _

theorem lookup_writeTemps (temps : List (Nat × Binary64)) (index : Nat) (lanes : List Binary64)
    (k : Nat) : (writeTemps temps index lanes).lookup k =
      if index ≤ k ∧ k < index + lanes.length then lanes[k - index]? else temps.lookup k := by
  induction lanes generalizing temps index with
  | nil => rw [if_neg (by simp), writeTemps]
  | cons x rest ih =>
    rw [writeTemps, ih, lookup_putAt]
    by_cases hk : k = index
    · subst hk
      simp
    · by_cases hin : index + 1 ≤ k ∧ k < index + 1 + rest.length
      · have hsucc : k - index = (k - (index + 1)) + 1 := by omega
        rw [if_pos hin, if_pos (by simp only [length_cons]; omega), hsucc, getElem?_cons_succ]
      · rw [if_neg hin, if_neg hk, if_neg (by simp only [length_cons]; omega)]

/-- Whether an operation is computed does not depend on what it is computed from. -/
theorem evaluate_ok {op : Opcode} {elems : Nat} {lanes : List Binary64}
    (h : evaluate op elems sources = .ok lanes) :
    lanes.length = elems ∧ ∀ sources', ∃ lanes', evaluate op elems sources' = .ok lanes' := by
  have hlength : ∀ {f : Nat → Float} {xs : List Binary64},
      (.ok ((range elems).map fun k => .ofFloat (f k)) : Except PreshaderError _) = .ok xs →
        xs.length = elems := by
    intro f xs hxs
    rw [← ok.inj hxs, length_map, length_range]
  unfold evaluate at h ⊢
  dsimp only at h ⊢
  generalize unary? op = f at h ⊢
  generalize binary? op = g at h ⊢
  cases f with
  | some f => exact ⟨hlength h, fun _ => ⟨_, rfl⟩⟩
  | none =>
    cases g with
    | some g => exact ⟨hlength h, fun _ => ⟨_, rfl⟩⟩
    | none =>
      cases op
      case cmp => exact ⟨hlength h, fun _ => ⟨_, rfl⟩⟩
      case dot => exact ⟨hlength h, fun _ => ⟨_, rfl⟩⟩
      all_goals simp at h

/-! ### Marks -/

/-- The cells that may differ between two runs. -/
structure Marks where
  outputs : Nat → Bool
  temps : Nat → Bool

def Instruction.width (i : Instruction) : Nat := min i.elements maxLanes

def Instruction.readWidth (i : Instruction) (slot : Nat) : Nat :=
  if i.opcode.isScalar && slot == 0 then 1 else i.width

def Operand.covers (o : Operand) (width : Nat) (pool : Pool) (k : Nat) : Bool :=
  o.pool == pool && decide (o.index ≤ k ∧ k < o.index + width)

def Instruction.writesOutput (i : Instruction) (k : Nat) : Bool :=
  i.destination?.any (·.covers i.width .output k)

namespace Marks

/-- Whether a cell is marked. Inputs and literals never differ. -/
def cell (m : Marks) : Pool → Nat → Bool
  | .output => m.outputs
  | .temp => m.temps
  | .input | .literal => fun _ => false

/-- Whether one of the sources from position `slot` on has a marked cell. -/
def inSources (m : Marks) (i : Instruction) : (slot : Nat) → List Operand → Bool
  | _, [] => false
  | slot, o :: rest =>
    (List.range (i.readWidth slot)).any (fun k => m.cell o.pool (o.index + k)) ||
      inSources m i (slot + 1) rest

def read (m : Marks) (i : Instruction) : Bool := m.inSources i 0 (i.sources.take maxSources)

def write (m : Marks) (o : Operand) (width : Nat) (marked : Bool) : Marks where
  outputs k := if o.covers width .output k then marked else m.outputs k
  temps k := if o.covers width .temp k then marked else m.temps k

/-- The marks after an instruction: what it writes is marked if it reads a marked cell. -/
def after (m : Marks) (i : Instruction) : Marks :=
  i.destination?.elim m fun d => m.write d i.width (m.read i)

end Marks

/-- Cells that differ only where they are marked. -/
structure Cells.Agree (m : Marks) (c c' : Cells) : Prop where
  size : c'.outputs.size = c.outputs.size
  outputs : ∀ k, m.outputs k = false → c'.outputs[k]? = c.outputs[k]?
  temps : ∀ k, m.temps k = false →
    (c'.temps.lookup k).getD .zero = (c.temps.lookup k).getD .zero

namespace Cells.Agree

variable {p : Preshader} {m : Marks} {c c' : Cells} (h : Agree m c c')
include h

/-- A cell that can be read in the one can be read in the other, and is the same unless marked. -/
theorem readCell {pool : Pool} {k : Nat} {x : Binary64} (hx : readCell p c pool k = .ok x) :
    ∃ x', readCell p c' pool k = .ok x' ∧ (m.cell pool k = false → x' = x) := by
  cases pool with
  | literal | input => exact ⟨x, hx, fun _ => rfl⟩
  | output =>
    unfold Preshader.readCell at hx ⊢
    rcases hy : c.outputs[k]? with _ | y <;> simp only [hy, Option.map_none, Option.map_some] at hx
    · cases hx
    obtain rfl := ok.inj hx
    obtain ⟨hk, -⟩ := Array.getElem?_eq_some_iff.mp hy
    rw [← h.size] at hk
    refine ⟨c'.outputs[k].widen, by simp [hk], fun hmark => ?_⟩
    have hsame := h.outputs k hmark
    rw [hy, Array.getElem?_eq_getElem hk] at hsame
    rw [Option.some.inj hsame]
  | temp =>
    unfold Preshader.readCell at hx ⊢
    dsimp only at hx ⊢
    split_ifs at hx ⊢
    exact ⟨_, rfl, fun hmark => (h.temps k hmark).trans (ok.inj hx)⟩

theorem readCells {pool : Pool} {index count : Nat}
    (hxs : readCells p c pool index count = .ok xs) :
    ∃ xs', readCells p c' pool index count = .ok xs' ∧
      ((∀ k < count, m.cell pool (index + k) = false) → xs' = xs) := by
  induction count generalizing index xs with
  | zero => exact ⟨xs, hxs, fun _ => rfl⟩
  | succ count ih =>
    obtain ⟨x, hx, hxs⟩ := bind_eq_ok.mp hxs
    obtain ⟨rest, hrest, hxs⟩ := bind_eq_ok.mp hxs
    obtain rfl : x :: rest = xs := ok.inj hxs
    obtain ⟨x', hx', hsame⟩ := h.readCell hx
    obtain ⟨rest', hrest', hsames⟩ := ih hrest
    refine ⟨x' :: rest', bind_eq_ok.mpr ⟨x', hx', bind_eq_ok.mpr ⟨rest', hrest', rfl⟩⟩,
      fun hmarks => ?_⟩
    rw [hsame (hmarks 0 (by omega)), hsames fun k hk => ?_]
    have hplace : index + 1 + k = index + (k + 1) := by omega
    rw [hplace]
    exact hmarks (k + 1) (by omega)

theorem readSource {slot : Nat} {o : Operand} (hxs : readSource p c i i.width slot o = .ok xs) :
    ∃ xs', readSource p c' i i.width slot o = .ok xs' ∧
      ((range (i.readWidth slot)).any (fun k => m.cell o.pool (o.index + k)) = false →
        xs' = xs) := by
  unfold Preshader.readSource at hxs ⊢
  dsimp only at hxs ⊢
  split_ifs at hxs ⊢ with hliteral hindexed hscalar
  · obtain ⟨x, hx, hxs⟩ := bind_eq_ok.mp hxs
    obtain ⟨x', hx', hsame⟩ := h.readCell hx
    obtain rfl := hsame rfl
    exact ⟨xs, bind_eq_ok.mpr ⟨x', hx', hxs⟩, fun _ => rfl⟩
  · exact ⟨xs, hxs, fun _ => rfl⟩
  all_goals
    obtain ⟨xs', hxs', hsame⟩ := h.readCells hxs
    refine ⟨xs', hxs', fun hmarks => hsame fun k hk => ?_⟩
    simp only [any_eq_false, mem_range, Bool.not_eq_true, Instruction.readWidth, hscalar,
      if_true, if_false, Bool.false_eq_true] at hmarks
    exact hmarks k hk

theorem readSources {slot : Nat} {os : List Operand}
    (hsources : readSources p c i i.width slot os = .ok sources) :
    ∃ sources', readSources p c' i i.width slot os = .ok sources' ∧
      (m.inSources i slot os = false → sources' = sources) := by
  induction os generalizing slot sources with
  | nil => exact ⟨sources, hsources, fun _ => rfl⟩
  | cons o rest ih =>
    obtain ⟨xs, hxs, hsources⟩ := bind_eq_ok.mp hsources
    obtain ⟨xss, hxss, hsources⟩ := bind_eq_ok.mp hsources
    obtain rfl : xs :: xss = sources := ok.inj hsources
    obtain ⟨xs', hxs', hsame⟩ := h.readSource hxs
    obtain ⟨xss', hxss', hsames⟩ := ih hxss
    refine ⟨xs' :: xss', bind_eq_ok.mpr ⟨xs', hxs', bind_eq_ok.mpr ⟨xss', hxss', rfl⟩⟩,
      fun hmarks => ?_⟩
    rw [Marks.inSources, Bool.or_eq_false_iff] at hmarks
    rw [hsame hmarks.1, hsames hmarks.2]

/-- Lanes are written to the same cells, which are the same unless marked. -/
theorem writeDestination {o : Operand} {width : Nat} {marked : Bool}
    {lanes lanes' : List Binary64} (hlanes : lanes.length = width)
    (hlanes' : lanes'.length = width) (hsame : marked = false → lanes' = lanes)
    (hd : writeDestination p c o lanes = .ok d) :
    ∃ d', writeDestination p c' o lanes' = .ok d' ∧
      Agree (m.write o width marked) d d' := by
  unfold Preshader.writeDestination at hd ⊢
  cases hpool : o.pool with
  | input | literal => simp [hpool] at hd
  | temp =>
    simp only [hpool, hlanes, hlanes'] at hd ⊢
    split_ifs at hd with hfits
    obtain rfl := ok.inj hd
    rw [if_pos hfits]
    refine ⟨_, rfl, h.size, fun k hk => h.outputs k ?_, fun k hk => ?_⟩
    · simpa [Marks.write, covers, hpool] using hk
    · simp only [lookup_writeTemps, hlanes, hlanes']
      by_cases hin : o.index ≤ k ∧ k < o.index + width
      · rw [if_pos hin, if_pos hin, hsame (by simpa [Marks.write, covers, hpool, hin] using hk)]
      · rw [if_neg hin, if_neg hin]
        exact h.temps k (by simpa [Marks.write, covers, hpool, hin] using hk)
  | output =>
    simp only [hpool, hlanes, hlanes', h.size] at hd ⊢
    split_ifs at hd with hfits
    obtain rfl := ok.inj hd
    rw [if_pos hfits]
    refine ⟨_, rfl, ?_, fun k hk => ?_, fun k hk => h.temps k ?_⟩
    · simp [writeOutputs_eq, h.size]
    · simp only [writeOutputs_eq, getElem?_overwrite, length_map, hlanes, hlanes', h.size]
      by_cases hin : o.index ≤ k ∧ k < o.index + width
      · have hlt : k < c.outputs.size := by omega
        rw [if_pos ⟨hin.1, hin.2, hlt⟩, if_pos ⟨hin.1, hin.2, hlt⟩,
          hsame (by simpa [Marks.write, covers, hpool, hin] using hk)]
      · rw [if_neg fun h => hin ⟨h.1, h.2.1⟩, if_neg fun h => hin ⟨h.1, h.2.1⟩]
        exact h.outputs k (by simpa [Marks.write, covers, hpool, hin] using hk)
    · simpa [Marks.write, covers, hpool] using hk

/-- One instruction on cells that differ only where they are marked. -/
theorem step (hd : step p c i = .ok d) :
    ∃ d', step p c' i = .ok d' ∧ Agree (m.after i) d d' := by
  obtain ⟨sources, hsources, hd⟩ := bind_eq_ok.mp hd
  obtain ⟨lanes, hlanes, hd⟩ := bind_eq_ok.mp hd
  obtain ⟨sources', hsources', hread⟩ := h.readSources hsources
  obtain ⟨hlength, hok⟩ := evaluate_ok hlanes
  obtain ⟨lanes', hlanes'⟩ := hok sources'
  unfold Marks.after
  cases hdestination : i.destination? with
  | none =>
    rw [hdestination] at hd
    obtain rfl := ok.inj hd
    refine ⟨c', bind_eq_ok.mpr ⟨sources', hsources', bind_eq_ok.mpr ⟨lanes', hlanes', ?_⟩⟩, h⟩
    rw [hdestination]
    rfl
  | some o =>
    rw [hdestination] at hd
    have hsame : m.read i = false → lanes' = lanes := fun hmark => by
      rw [hread hmark] at hlanes'
      exact ok.inj (hlanes'.symm.trans hlanes)
    obtain ⟨d', hd', hagree⟩ := h.writeDestination hlength (evaluate_ok hlanes').1 hsame hd
    refine ⟨d', bind_eq_ok.mpr ⟨sources', hsources', bind_eq_ok.mpr ⟨lanes', hlanes', ?_⟩⟩, hagree⟩
    rw [hdestination]
    exact hd'

/-- Instructions in turn on cells that differ only where they are marked. -/
theorem runFrom {is : List Instruction} (hd : runFrom p c is = (none, d)) :
    ∃ d', runFrom p c' is = (none, d') ∧ Agree (is.foldl Marks.after m) d d' := by
  induction is generalizing m c c' with
  | nil =>
    obtain rfl := (Prod.mk.inj hd).2
    exact ⟨c', rfl, h⟩
  | cons i rest ih =>
    rw [runFrom] at hd
    cases hstep : Preshader.step p c i with
    | error e => simp [hstep] at hd
    | ok next =>
      rw [hstep] at hd
      obtain ⟨next', hstep', hagree⟩ := h.step hstep
      obtain ⟨d', hd', hagree'⟩ := ih hagree hd
      refine ⟨d', ?_, hagree'⟩
      rw [runFrom, hstep']
      exact hd'

end Cells.Agree

/-- Two runs on outputs that differ only where they are marked. If the one does not fail, neither
does the other. -/
theorem run_agree {m : Marks} {outputs outputs' out : Array Binary32}
    (hsize : outputs'.size = outputs.size)
    (houtputs : ∀ k, m.outputs k = false → outputs'[k]? = outputs[k]?)
    (hrun : p.run outputs = (none, out)) :
    ∃ out', p.run outputs' = (none, out') ∧ out'.size = out.size ∧
      ∀ k, (p.instructions.foldl Marks.after m).outputs k = false → out'[k]? = out[k]? := by
  have hagree : Cells.Agree m ⟨[], outputs⟩ ⟨[], outputs'⟩ := ⟨hsize, houtputs, fun _ _ => rfl⟩
  obtain ⟨hfault, rfl⟩ := Prod.mk.inj hrun
  obtain ⟨d', hd', hagree'⟩ := hagree.runFrom (Prod.ext hfault rfl)
  refine ⟨d'.outputs, ?_, hagree'.size, hagree'.outputs⟩
  rw [run, hd']

/-! ### Outputs that are not written -/

/-- An instruction leaves alone the outputs that it does not write. -/
theorem step_outside {c : Cells} (hd : step p c i = .ok d) :
    d.outputs.size = c.outputs.size ∧
      ∀ k, i.writesOutput k = false → d.outputs[k]? = c.outputs[k]? := by
  obtain ⟨sources, -, hd⟩ := bind_eq_ok.mp hd
  obtain ⟨lanes, hlanes, hd⟩ := bind_eq_ok.mp hd
  have hlength : lanes.length = i.width := (evaluate_ok hlanes).1
  cases hdestination : i.destination? with
  | none =>
    rw [hdestination] at hd
    obtain rfl := ok.inj hd
    exact ⟨rfl, fun _ _ => rfl⟩
  | some o =>
    rw [hdestination] at hd
    unfold writeDestination at hd
    cases hpool : o.pool with
    | input | literal => simp [hpool] at hd
    | temp =>
      simp only [hpool] at hd
      split_ifs at hd
      obtain rfl := ok.inj hd
      exact ⟨rfl, fun _ _ => rfl⟩
    | output =>
      simp only [hpool] at hd
      split_ifs at hd
      obtain rfl := ok.inj hd
      refine ⟨by simp [writeOutputs_eq], fun k hk => ?_⟩
      have hout : ¬(o.index ≤ k ∧ k < o.index + lanes.length) := by
        rw [hlength]
        simpa [Instruction.writesOutput, hdestination, covers, hpool] using hk
      rw [writeOutputs_eq, getElem?_overwrite, length_map, if_neg fun h => hout ⟨h.1, h.2.1⟩]

theorem runFrom_outside (p : Preshader) (c : Cells) (is : List Instruction) :
    (runFrom p c is).2.outputs.size = c.outputs.size ∧
      ∀ k, (∀ i ∈ is, i.writesOutput k = false) →
        (runFrom p c is).2.outputs[k]? = c.outputs[k]? := by
  induction is generalizing c with
  | nil => exact ⟨rfl, fun _ _ => rfl⟩
  | cons i rest ih =>
    rw [runFrom]
    cases hstep : step p c i with
    | error e => exact ⟨rfl, fun _ _ => rfl⟩
    | ok d =>
      obtain ⟨hsize, houtputs⟩ := step_outside hstep
      refine ⟨(ih d).1.trans hsize, fun k hk => ?_⟩
      exact ((ih d).2 k fun j hj => hk j (mem_cons_of_mem _ hj)).trans
        (houtputs k (hk i mem_cons_self))

/-- A run leaves alone the outputs that no instruction writes. -/
theorem run_outside (p : Preshader) (outputs : Array Binary32) :
    (p.run outputs).2.size = outputs.size ∧
      ∀ k, (∀ i ∈ p.instructions, i.writesOutput k = false) →
        (p.run outputs).2[k]? = outputs[k]? :=
  runFrom_outside p ⟨[], outputs⟩ p.instructions

/-! ### Runs on what was left -/

/-- Whether an output may differ after a second run, on what the first one left. Between the two,
some outputs are written anew. -/
def carried (p : Preshader) (renewed : Nat → Bool) (k : Nat) : Bool :=
  (p.instructions.foldl Marks.after
    ⟨fun k => p.instructions.any (·.writesOutput k) && !renewed k, fun _ => false⟩).outputs k

/-- A second run on what the first one left, where some outputs are written anew, succeeds as the
first one did. It leaves the same outputs except for those that are carried over. -/
theorem run_again {outputs out outputs' : Array Binary32} {renewed : Nat → Bool}
    (hrun : p.run outputs = (none, out)) (hsize : outputs'.size = out.size)
    (hrenewed : ∀ k, renewed k = true → outputs'[k]? = outputs[k]?)
    (hkept : ∀ k, renewed k = false → outputs'[k]? = out[k]?) :
    ∃ out', p.run outputs' = (none, out') ∧ out'.size = out.size ∧
      ∀ k, p.carried renewed k = false → out'[k]? = out[k]? := by
  have houtside := p.run_outside outputs
  rw [hrun] at houtside
  refine run_agree (hsize.trans houtside.1) (fun k hk => ?_) hrun
  cases hk' : renewed k with
  | true => exact hrenewed k hk'
  | false =>
    refine (hkept k hk').trans (houtside.2 k fun i hi => ?_)
    simp only [hk', Bool.not_false, Bool.and_true, any_eq_false, Bool.not_eq_true] at hk
    exact hk i hi

end ShaderPipeline.Preshader
