import Mathlib.Data.List.Basic
import ShaderPipeline.Preshader.Writer
import ShaderPipeline.Proofs.Bytecode.Fields

/-!
# Reading the instructions of a preshader

Instructions are read back from their words if their operands pass the checks of their pools. The
check of outputs computes modulo the size of a word, so it is kept apart from the others: what
passes it is read. Whatever is read has passed the checks of its pools.
-/

namespace ShaderPipeline.Preshader

open List

variable {o : Operand} {i : Instruction} {lanes : Nat}

/-! ### Words made of numbers -/

theorem toNat_wordOf {n : Nat} (h : n < 2 ^ 32) : (wordOf n).toNat = n := by
  rw [wordOf, UInt32.toNat_ofNat']
  exact Nat.mod_eq_of_lt h

theorem wellPlaced_halves {low high : Nat} (hlow : low < 2 ^ 16) (hhigh : high < 2 ^ 16) :
    BitField.WellPlaced [⟨0, 16, low⟩, ⟨16, 16, high⟩] :=
  .cons hlow (by decide) (by simp [BitField.Apart])
    (.cons hhigh (by decide) (forall_mem_nil _) .nil)

theorem wordOf_or_shiftLeft {low high : Nat} (hlow : low < 2 ^ 16) (hhigh : high < 2 ^ 16) :
    wordOf low ||| (wordOf high <<< 16) = Word.ofFields [⟨0, 16, low⟩, ⟨16, 16, high⟩] := by
  have hpack := BitField.pack_lt (wellPlaced_halves hlow hhigh).fits
  have hshift : high <<< 16 < 2 ^ 32 := by
    rw [Nat.shiftLeft_eq]
    omega
  have hsixteen : (16 : UInt32).toNat % 32 = 16 := rfl
  apply UInt32.toNat_inj.mp
  rw [UInt32.toNat_or, UInt32.toNat_shiftLeft, toNat_wordOf (by omega), toNat_wordOf (by omega),
    hsixteen, Nat.mod_eq_of_lt hshift, Word.ofFields, UInt32.toNat_ofNat', Nat.mod_eq_of_lt hpack]
  simp [BitField.pack]

theorem Opcode.ofCode?_code {o : Opcode} (h : o ≠ .nop) : ofCode? o.code = some o := by
  cases o with
  | nop => exact absurd rfl h
  | _ => rfl

theorem Opcode.code_lt (o : Opcode) : o.code < 2 ^ 16 := by
  cases o <;> decide

theorem Opcode.arity_le (o : Opcode) : o.arity ≤ 3 := by
  cases o <;> decide

theorem Pool.ofCode?_code (p : Pool) : ofCode? p.code = some p := by
  cases p <;> rfl

theorem Pool.code_lt (p : Pool) : p.code < 2 ^ 32 := by
  cases p <;> decide

theorem length_pairWords {ι : Type} (f g : ι → Word) (l : List ι) :
    (l.flatMap fun x => [f x, g x]).length = l.length * 2 := by
  induction l with
  | nil => rfl
  | cons x l ih =>
    simp only [flatMap_cons, length_append, ih, length_cons, length_nil]
    omega

theorem length_pairs {n : Nat} {ws : List Word} (h : ws.length = n * 2) :
    (pairs n ws).length = n := by
  induction n generalizing ws with
  | zero => simp [pairs]
  | succ n ih =>
    rcases ws with _ | ⟨a, _ | ⟨b, rest⟩⟩ <;> simp only [length_cons, length_nil] at h
    · omega
    · omega
    · rw [pairs, length_cons, ih (by omega)]

theorem pairs_pairWords {ι : Type} (f g : ι → Word) (l : List ι) :
    pairs l.length (l.flatMap fun x => [f x, g x]) = l.map fun x => (f x, g x) := by
  induction l with
  | nil => rfl
  | cons x l ih =>
    simp [pairs, ih]

/-! ### Well-formed instructions -/

def Instruction.spans (i : Instruction) : List (Operand × Nat) :=
  i.operands.zipIdx.map fun (o, slot) => (o, i.lanes slot)

/-- An operand that names `lanes` cells of its pool. Outputs are left open here. -/
@[mk_iff]
structure Operand.WellFormed (o : Operand) (literalCount : Nat) (symbols : List Symbol)
    (lanes : Nat) : Prop where
  index : o.index + 4 < 2 ^ 32
  registers : ∀ r ∈ o.arrayRegisters, r < 2 ^ 32
  indexed : o.arrayRegisters ≠ [] → o.pool = .input
  literal : o.pool = .literal → o.index + lanes ≤ literalCount
  input : o.pool = .input → o.arrayRegisters = [] →
    ∃ s ∈ symbols, s.index * 4 ≤ o.index ∧ o.index + lanes ≤ (s.index + s.count) * 4

instance (o : Operand) (literalCount : Nat) (symbols : List Symbol) (lanes : Nat) :
    Decidable (o.WellFormed literalCount symbols lanes) :=
  decidable_of_iff _ (Operand.wellFormed_iff o literalCount symbols lanes).symm

/-- An instruction that a stream can hold. -/
@[mk_iff]
structure Instruction.WellFormed (i : Instruction) (literalCount : Nat) (symbols : List Symbol) :
    Prop where
  opcode : i.opcode ≠ .nop
  elements : 1 ≤ i.elements ∧ i.elements ≤ 4
  arity : i.operands.length = i.opcode.arity + 1
  operands : ∀ x ∈ i.spans, x.1.WellFormed literalCount symbols x.2
  destination : ∀ o ∈ i.operands.getLast?, o.pool = .temp ∨ o.pool = .output

instance (i : Instruction) (literalCount : Nat) (symbols : List Symbol) :
    Decidable (i.WellFormed literalCount symbols) :=
  decidable_of_iff _ (Instruction.wellFormed_iff i literalCount symbols).symm

theorem Instruction.lanes_le (h : i.elements ≤ 4) (slot : Nat) : i.lanes slot ≤ 4 := by
  rw [lanes]
  split
  · decide
  · exact h

theorem Instruction.WellFormed.index_add_lt {literalCount : Nat} {symbols : List Symbol}
    (h : i.WellFormed literalCount symbols) {x : Operand × Nat} (hx : x ∈ i.spans) :
    x.1.index + x.2 < 2 ^ 32 := by
  have hindex := (h.operands x hx).index
  obtain ⟨⟨o, slot⟩, -, rfl⟩ := mem_map.mp hx
  exact Nat.lt_of_le_of_lt (Nat.add_le_add_left (lanes_le h.elements.2 slot) _) hindex

/-- An operand of which everything but an output is checked passes its check. -/
theorem Operand.WellFormed.defect? {p : Pools} (h : o.WellFormed p.literalCount p.symbols lanes)
    (hlanes : lanes ≤ 4) (hcovered : o.pool = .output → p.coversOutput o.index lanes = true) :
    p.defect? o.pool o.index lanes o.arrayRegisters.length = none := by
  have hindex := h.index
  cases hpool : o.pool with
  | literal => exact if_neg (Nat.not_lt.mpr (h.literal hpool))
  | output => exact if_pos (hcovered hpool)
  | temp => rfl
  | input =>
    refine if_neg ?_
    rintro ⟨hstatic, huncovered⟩
    obtain ⟨s, hs, hlow, hhigh⟩ := h.input hpool (length_eq_zero_iff.mp hstatic)
    have hcovers : p.coversInput o.index lanes = true := by
      refine any_eq_true.mpr ⟨s, hs, ?_⟩
      have hwrap : wrap32 (o.index + lanes) = o.index + lanes := Nat.mod_eq_of_lt (by omega)
      simp only [hwrap, Bool.and_eq_true, decide_eq_true_eq]
      omega
    rw [hcovers] at huncovered
    exact absurd huncovered (by decide)

/-- What the reader checks of an operand that names `lanes` cells. -/
structure Operand.Checked (o : Operand) (p : Pools) (lanes : Nat) : Prop where
  index : o.index < 2 ^ 32
  indexed : o.arrayRegisters ≠ [] → o.pool = .input
  defect : p.defect? o.pool o.index lanes o.arrayRegisters.length = none

theorem Operand.Checked.coversOutput {p : Pools} (h : o.Checked p lanes)
    (hpool : o.pool = .output) : p.coversOutput o.index lanes = true := by
  have hdefect := h.defect
  rw [hpool] at hdefect
  by_contra huncovered
  exact nomatch (if_neg huncovered).symm.trans hdefect

/-- What the reader checks of an instruction. -/
structure Instruction.Checked (i : Instruction) (p : Pools) : Prop where
  elements : 1 ≤ i.elements ∧ i.elements ≤ 4
  arity : i.operands.length = i.opcode.arity + 1
  operands : ∀ x ∈ i.spans, x.1.Checked p x.2
  destination : ∀ o ∈ i.operands.getLast?, o.pool = .temp ∨ o.pool = .output

namespace WordReader

variable {α β : Type} {p : Pools} {ws vs : List Word} {a : α} {b : β} (m : WordReader α)

/-! ### Readers -/

/-- The reader takes exactly the words `ws`, whatever follows them, and gives `a`. -/
def Reads (ws : List Word) (a : α) : Prop :=
  ∀ rest, m.run (ws ++ rest) = .ok (a, rest)

theorem reads_pure (a : α) : Reads (pure a) [] a := fun _ => rfl

theorem Reads.bind {m : WordReader α} {f : α → WordReader β} (hm : Reads m ws a)
    (hf : Reads (f a) vs b) : Reads (m >>= f) (ws ++ vs) b := by
  intro rest
  rw [StateT.run_bind, append_assoc, hm]
  exact hf rest

theorem Reads.last {m : WordReader α} {f : α → WordReader β} (hm : Reads m ws a)
    (hf : Reads (f a) [] b) : Reads (m >>= f) ws b :=
  append_nil ws ▸ hm.bind hf

theorem reads_take {n : Nat} (h : ws.length = n) : Reads (take n) ws ws := by
  subst h
  intro rest
  have hlength : ¬ws.length < ws.length := Nat.lt_irrefl _
  simp only [take, StateT.run_bind, StateT.run_get, pure_bind, take_left, if_neg hlength, drop_left]
  rfl

/-! ### Operands -/

def registerWords (rs : List Nat) : List Word :=
  rs.flatMap fun r => [wordOf Pool.input.code, wordOf r]

theorem reads_registers {rs : List Nat} (h : ∀ r ∈ rs, r < 2 ^ 32) :
    Reads (take (rs.length * 2)) (registerWords rs) (registerWords rs) ∧
      (pairs rs.length (registerWords rs)).map (·.2.toNat) = rs := by
  refine ⟨reads_take (length_pairWords _ _ rs), ?_⟩
  rw [registerWords, pairs_pairWords, map_map]
  exact (map_congr_left fun r hr => toNat_wordOf (h r hr)).trans (map_id' rs)

theorem reads_head (hindex : o.index < 2 ^ 32) (hcount : o.arrayRegisters.length < 2 ^ 32) :
    Reads ((·.map UInt32.toNat) <$> take 3)
      [wordOf o.arrayRegisters.length, wordOf o.pool.code, wordOf o.index]
      [o.arrayRegisters.length, o.pool.code, o.index] := by
  intro rest
  have htake : Reads (take 3) [wordOf o.arrayRegisters.length, wordOf o.pool.code, wordOf o.index]
    [wordOf o.arrayRegisters.length, wordOf o.pool.code, wordOf o.index] := reads_take rfl
  rw [StateT.run_map, htake]
  simp only [Except.map, Functor.map, map_cons, map_nil, toNat_wordOf hcount,
    toNat_wordOf o.pool.code_lt, toNat_wordOf hindex]

theorem reads_operand {isDestination : Bool} (hindex : o.index < 2 ^ 32)
    (hcount : o.arrayRegisters.length < 2 ^ 32) (hregisters : ∀ r ∈ o.arrayRegisters, r < 2 ^ 32)
    (hindexed : o.arrayRegisters ≠ [] → o.pool = .input)
    (hdefect : p.defect? o.pool o.index lanes o.arrayRegisters.length = none)
    (hdestination : isDestination = true → o.pool = .temp ∨ o.pool = .output) :
    Reads (operand p lanes isDestination) (operandWords o) o := by
  obtain ⟨pool, index, registers⟩ := o
  have hplace : ¬(isDestination = true ∧ pool ≠ .temp ∧ pool ≠ .output) := by
    rintro ⟨hdest, htemp, houtput⟩
    exact (hdestination hdest).elim htemp houtput
  refine (reads_head hindex hcount).bind ?_
  simp only [getD_cons_zero, getD_cons_succ, Pool.ofCode?_code, hdefect, if_neg hplace]
  cases registers with
  | nil => exact reads_pure _
  | cons r rs =>
    have hinput : pool = .input := hindexed (cons_ne_nil r rs)
    have hne : ¬(r :: rs).length = 0 := Nat.succ_ne_zero _
    obtain ⟨htake, hpairs⟩ := reads_registers hregisters
    simp only [if_neg hne, hinput, ne_eq, not_true, if_false]
    refine Reads.last htake ?_
    rw [hpairs]
    exact reads_pure _

/-- The operands of an instruction from position `slot` on, the last one as destination. -/
theorem reads_operands {opcode : Opcode} {elements slot : Nat} {os : List Operand}
    (hos : ∀ x ∈ os.zipIdx slot, ∀ isDestination,
      (isDestination = true → x.1.pool = .temp ∨ x.1.pool = .output) →
        Reads (operand p (if opcode.isScalar ∧ x.2 = 0 then 1 else elements) isDestination)
          (operandWords x.1) x.1)
    (hdestination : ∀ o ∈ os.getLast?, o.pool = .temp ∨ o.pool = .output) :
    Reads (operands p opcode elements slot os.length) (os.flatMap operandWords) os := by
  induction os generalizing slot with
  | nil => exact reads_pure _
  | cons o os ih =>
    rw [zipIdx_cons, forall_mem_cons] at hos
    have hlast : (decide (os.length = 0)) = true → o.pool = .temp ∨ o.pool = .output := by
      intro hlength
      obtain rfl := length_eq_zero_iff.mp (of_decide_eq_true hlength)
      exact hdestination o rfl
    have hrest : ∀ q ∈ os.getLast?, q.pool = .temp ∨ q.pool = .output := by
      cases os with
      | nil => nofun
      | cons q qs => exact hdestination
    rw [flatMap_cons]
    exact (hos.1 _ hlast).bind ((ih hos.2 hrest).last (reads_pure _))

theorem wordOf_succ_sub (n : Nat) : wordOf (n + 1) - 1 = wordOf n := by
  rw [wordOf, UInt32.ofNat_add]
  exact UInt32.add_sub_cancel _ _

theorem reads_instruction (hi : i.WellFormed p.literalCount p.symbols)
    (hcounts : ∀ o ∈ i.operands, o.arrayRegisters.length < 2 ^ 32)
    (hcovered : ∀ x ∈ i.spans, x.1.pool = .output → p.coversOutput x.1.index x.2 = true) :
    Reads (instruction p) (instructionWords i) i := by
  have hplaced := wellPlaced_halves
    (Nat.lt_of_le_of_lt hi.elements.2 (by decide) : i.elements < 2 ^ 16) i.opcode.code_lt
  have hcode : field (.ofFields [⟨0, 16, i.elements⟩, ⟨16, 16, i.opcode.code⟩]) 16 16 =
      i.opcode.code := field_ofFields hplaced (by simp)
  have hlow : field (.ofFields [⟨0, 16, i.elements⟩, ⟨16, 16, i.opcode.code⟩]) 0 16 =
      i.elements := field_ofFields hplaced (by simp)
  have helements : field (.ofFields [⟨0, 16, i.elements⟩, ⟨16, 16, i.opcode.code⟩]) 0 8 =
      i.elements := by
    have := hi.elements
    rw [field] at hlow ⊢
    omega
  have harity : (wordOf i.opcode.arity).toNat = i.opcode.arity :=
    toNat_wordOf (Nat.lt_of_le_of_lt i.opcode.arity_le (by decide))
  have hoperands : Reads (operands p i.opcode i.elements 0 (i.opcode.arity + 1))
      (i.operands.flatMap operandWords) i.operands := by
    rw [← hi.arity]
    refine reads_operands (fun x hx isDestination hdestination => ?_) hi.destination
    have hspan : (x.1, i.lanes x.2) ∈ i.spans := mem_map_of_mem hx
    have hx' := hi.operands _ hspan
    have hindex : x.1.index < 2 ^ 32 := Nat.lt_of_le_of_lt (Nat.le_add_right _ 4) hx'.index
    exact reads_operand hindex (hcounts _ (fst_mem_of_mem_zipIdx hx)) hx'.registers
      hx'.indexed (hx'.defect? (Instruction.lanes_le hi.elements.2 _) (hcovered _ hspan))
      hdestination
  have hrange : ¬(i.elements < 1 ∨ 4 < i.elements) := by
    have := hi.elements
    omega
  rw [instructionWords, UInt32.or_comm, hi.arity, wordOf_succ_sub,
    wordOf_or_shiftLeft (Nat.lt_of_le_of_lt hi.elements.2 (by decide)) i.opcode.code_lt]
  have htake : Reads (take 2)
      [.ofFields [⟨0, 16, i.elements⟩, ⟨16, 16, i.opcode.code⟩], wordOf i.opcode.arity] _ :=
    reads_take rfl
  refine htake.bind ?_
  simp only [getD_cons_zero, getD_cons_succ, hcode, Opcode.ofCode?_code hi.opcode,
    helements, if_neg hrange, harity, ne_eq, not_true, if_false]
  exact hoperands.last (reads_pure _)

theorem reads_instructions {is : List Instruction}
    (his : ∀ i ∈ is, Reads (instruction p) (instructionWords i) i) :
    Reads (instructions p is.length) (is.flatMap instructionWords) is := by
  induction is with
  | nil => exact reads_pure _
  | cons i is ih =>
    rw [forall_mem_cons] at his
    rw [flatMap_cons]
    exact his.1.bind ((ih his.2).last (reads_pure _))

/-! ### What is read is checked -/

/-- Whatever the reader gives satisfies `Q`. -/
def Ensures (Q : α → Prop) : Prop :=
  ∀ ⦃ws a rest⦄, m.run ws = .ok (a, rest) → Q a

theorem ensures_true : Ensures m fun _ => True := fun _ _ _ _ => trivial

theorem ensures_pure {Q : α → Prop} (h : Q a) : Ensures (pure a) Q := by
  intro ws b rest hrun
  obtain ⟨rfl, -⟩ := Prod.mk.inj (Except.ok.inj hrun)
  exact h

theorem ensures_throw {Q : α → Prop} (e : PreshaderError) : Ensures (throw e) Q :=
  nofun

theorem Ensures.bind {m : WordReader α} {f : α → WordReader β} {P : α → Prop} {Q : β → Prop}
    (hm : Ensures m P) (hf : ∀ a, P a → Ensures (f a) Q) : Ensures (m >>= f) Q := by
  intro ws b rest hrun
  rw [StateT.run_bind] at hrun
  cases hfirst : m.run ws with
  | error e =>
    rw [hfirst] at hrun
    exact nomatch hrun
  | ok first =>
    rw [hfirst] at hrun
    exact hf first.1 (hm hfirst) hrun

theorem ensures_throw_bind {f : α → WordReader β} {Q : β → Prop} (e : PreshaderError) :
    Ensures (throw e >>= f) Q :=
  Ensures.bind (P := fun _ => False) (ensures_throw _) fun _ h => h.elim

theorem ensures_take (n : Nat) : Ensures (take n) fun ws => ws.length = n := by
  refine (ensures_true _).bind fun words _ => ?_
  dsimp only
  split
  · exact ensures_throw_bind _
  next henough =>
  refine (ensures_true _).bind fun _ _ => ensures_pure ?_
  have := length_take_le n words
  omega

theorem ensures_head (n : Nat) :
    Ensures ((·.map UInt32.toNat) <$> take n) fun head => ∀ k, head.getD k 0 < 2 ^ 32 := by
  rw [map_eq_pure_bind]
  refine (ensures_true _).bind fun ws _ => ensures_pure fun k => ?_
  have hword : (ws.map UInt32.toNat).getD k 0 = (ws.getD k 0).toNat := by
    rw [getD_eq_getElem?_getD, getElem?_map, getD_eq_getElem?_getD]
    cases ws[k]? <;> rfl
  rw [hword]
  exact UInt32.toNat_lt _

theorem ensures_operand (lanes : Nat) (isDestination : Bool) :
    Ensures (operand p lanes isDestination) fun o =>
      o.Checked p lanes ∧ (isDestination = true → o.pool = .temp ∨ o.pool = .output) := by
  refine (ensures_head 3).bind fun head hwords => ?_
  split
  · exact ensures_throw _
  next pool _ =>
  dsimp only
  split
  · exact ensures_throw_bind _
  next hdefect =>
  have hnone : p.defect? pool (head.getD 2 0) lanes (head.getD 0 0) = none :=
    Option.eq_none_iff_forall_ne_some.mpr hdefect
  split
  · exact ensures_throw_bind _
  next hplace =>
  have hdestination : isDestination = true → pool = .temp ∨ pool = .output := by
    intro hdest
    by_contra hneither
    exact hplace ⟨hdest, not_or.mp hneither⟩
  split
  · next hstatic =>
    rw [hstatic] at hnone
    exact ensures_pure ⟨⟨hwords 2, fun h => absurd rfl h, hnone⟩, hdestination⟩
  split
  · exact ensures_throw_bind _
  next hinput =>
  refine (ensures_take _).bind fun ws hws => ensures_pure ?_
  refine ⟨⟨hwords 2, fun _ => not_not.mp hinput, ?_⟩, hdestination⟩
  rw [length_map, length_pairs hws]
  exact hnone

theorem ensures_operands (opcode : Opcode) (elements slot count : Nat) :
    Ensures (operands p opcode elements slot count) fun os => os.length = count ∧
      (∀ x ∈ os.zipIdx slot, x.1.Checked p (if opcode.isScalar ∧ x.2 = 0 then 1 else elements)) ∧
      ∀ o ∈ os.getLast?, o.pool = .temp ∨ o.pool = .output := by
  induction count generalizing slot with
  | zero => exact ensures_pure ⟨rfl, nofun, nofun⟩
  | succ count ih =>
    refine (ensures_operand _ _).bind fun o ho => (ih (slot + 1)).bind fun os hos => ?_
    obtain ⟨hlength, hchecked, hlast⟩ := hos
    refine ensures_pure ⟨congrArg Nat.succ hlength, ?_, ?_⟩
    · rw [zipIdx_cons, forall_mem_cons]
      exact ⟨ho.1, hchecked⟩
    · cases os with
      | nil =>
        rintro q ⟨⟩
        exact ho.2 (decide_eq_true hlength.symm)
      | cons q qs => exact hlast

theorem ensures_instruction : Ensures (instruction p) fun i => i.Checked p := by
  refine (ensures_true _).bind fun head _ => ?_
  dsimp only
  split
  · exact ensures_throw _
  split
  · exact ensures_throw_bind _
  next helements =>
  split
  · exact ensures_throw_bind _
  next harity =>
  refine (ensures_operands _ _ _ _).bind fun os hos => ensures_pure ?_
  obtain ⟨hlength, hchecked, hlast⟩ := hos
  refine ⟨?_, ?_, ?_, hlast⟩
  · have := not_or.mp helements
    exact ⟨Nat.not_lt.mp this.1, Nat.not_lt.mp this.2⟩
  · rw [hlength, not_not.mp harity]
  · intro x hx
    obtain ⟨y, hy, rfl⟩ := mem_map.mp hx
    exact hchecked y hy

theorem ensures_instructions (count : Nat) :
    Ensures (instructions p count) fun is => ∀ i ∈ is, i.Checked p := by
  induction count with
  | zero => exact ensures_pure nofun
  | succ count ih =>
    refine ensures_instruction.bind fun i hi => ih.bind fun is his => ensures_pure ?_
    exact forall_mem_cons.mpr ⟨hi, his⟩

end WordReader
end ShaderPipeline.Preshader
