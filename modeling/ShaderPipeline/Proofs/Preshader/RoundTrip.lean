import Mathlib.Order.Nat
import ShaderPipeline.Proofs.Preshader.Reads
import ShaderPipeline.Proofs.Symbol.TableRoundTrip

/-!
# Preshaders are read back

A written preshader gives back its literals, symbols and instructions exactly if the outputs of its
instructions pass the check against the output map. The check computes on words: a range of
registers whose last cell has a number of more than 32 bits is taken for one that ends early.
-/

namespace ShaderPipeline.Preshader

open List ConstantTable Sections

variable {payload : List Word} {n : Nat} {i : Instruction}

/-! ### Sections -/

theorem Sections.collect_skip (s : Sections) (xs rest : List Word) :
    collect xs.length s (xs ++ rest) = collect 0 s rest := by
  induction xs with
  | nil => rfl
  | cons x xs ih => exact ih

theorem field_commentBlock (h : payload.length ≤ 0x7FFF) :
    ∃ w, commentBlock payload = w :: payload ∧ field w 0 16 = commentCode ∧
      field w 16 15 = payload.length := by
  have hplaced := wellPlaced_halves (by decide : commentCode < 2 ^ 16)
    (Nat.lt_of_le_of_lt h (by decide) : payload.length < 2 ^ 16)
  refine ⟨_, rfl, ?_, ?_⟩
  · rw [wordOf_or_shiftLeft (by decide) (Nat.lt_of_le_of_lt h (by decide))]
    exact field_ofFields hplaced (by simp)
  · rw [wordOf_or_shiftLeft (by decide) (Nat.lt_of_le_of_lt h (by decide))]
    have hhigh : field (.ofFields [⟨0, 16, commentCode⟩, ⟨16, 16, payload.length⟩]) 16 16 =
        payload.length := field_ofFields hplaced (by simp)
    rw [field] at hhigh ⊢
    omega

theorem Sections.collect_commentBlock {s s' : Sections} (hlength : payload.length ≤ 0x7FFF)
    (hadd : s.add payload = .ok s') (rest : List Word) :
    collect 0 s (commentBlock payload ++ rest) = collect 0 s' rest := by
  obtain ⟨w, hblock, hcode, hfield⟩ := field_commentBlock hlength
  have hend : w ≠ endToken := by
    rintro rfl
    exact absurd hcode (by decide)
  have htake : (payload ++ rest).take payload.length = payload := take_left
  rw [hblock, cons_append, collect, if_neg hend, if_neg (not_not.mpr hcode), hfield]
  dsimp only
  rw [htake, if_neg (Nat.lt_irrefl _), hadd]
  exact collect_skip s' payload rest

theorem ofWords_of_collect {words : List Word} {s : Sections}
    (h : collect 0 .empty words = .ok s) :
    ofWords (maxVersion :: words) = ofSections s := by
  have hversion : minVersion ≤ maxVersion ∧ maxVersion ≤ maxVersion := by decide
  rw [ofWords, if_pos hversion, h]
  rfl

def literalSection (literals : List Binary64) : List Word :=
  [literalTag, wordOf literals.length] ++ literals.flatMap literalWords

def instructionSection (instructions : List Instruction) : List Word :=
  [instructionTag, wordOf instructions.length] ++ instructions.flatMap instructionWords

def writtenSections (symbols : List Symbol) (literals : List Binary64)
    (instructions : List Instruction) (outputs : List (Nat × Nat)) : Sections where
  table := some (ConstantTable.toWords symbols)
  literals := some (literalSection literals)
  instructions := some (instructionSection instructions)
  outputs := if outputs.isEmpty then none else some (outputWords outputs)

/-- Every section fits a comment block. -/
structure Sections.Short (s : Sections) : Prop where
  table : ∀ ws ∈ s.table, ws.length ≤ 0x7FFF
  literals : ∀ ws ∈ s.literals, ws.length ≤ 0x7FFF
  instructions : ∀ ws ∈ s.instructions, ws.length ≤ 0x7FFF
  outputs : ∀ ws ∈ s.outputs, ws.length ≤ 0x7FFF

section

variable {symbols : List Symbol} {literals : List Binary64} {instructions : List Instruction}
  {outputs : List (Nat × Nat)}

def sectionWords (symbols : List Symbol) (literals : List Binary64)
    (instructions : List Instruction) (outputs : List (Nat × Nat)) : List Word :=
  commentBlock (ConstantTable.toWords symbols) ++ (commentBlock (literalSection literals) ++
    (commentBlock (instructionSection instructions) ++
      ((if outputs.isEmpty then [] else commentBlock (outputWords outputs)) ++ [endToken])))

theorem toWords_eq :
    toWords (ConstantTable.toWords symbols) literals instructions outputs =
      maxVersion :: sectionWords symbols literals instructions outputs := by
  simp [toWords, sectionWords, literalSection, instructionSection]

theorem collect_sectionWords
    (h : (writtenSections symbols literals instructions outputs).Short) :
    collect 0 .empty (sectionWords symbols literals instructions outputs) =
      .ok (writtenSections symbols literals instructions outputs) := by
  rw [sectionWords, collect_commentBlock (h.table _ rfl) rfl,
    collect_commentBlock (h.literals _ rfl) rfl, collect_commentBlock (h.instructions _ rfl) rfl]
  cases outputs with
  | nil => rfl
  | cons p ps =>
    rw [isEmpty_cons, if_neg (by decide), collect_commentBlock (h.outputs _ rfl) rfl]
    rfl

theorem ofWords_toWords_eq_ofSections
    (h : (writtenSections symbols literals instructions outputs).Short) :
    ofWords (toWords (ConstantTable.toWords symbols) literals instructions outputs) =
      ofSections (writtenSections symbols literals instructions outputs) := by
  rw [toWords_eq]
  exact ofWords_of_collect (collect_sectionWords h)

/-! ### The tables of the sections -/

theorem ofWords_lowWord_highWord (x : Binary64) : Binary64.ofWords x.lowWord x.highWord = x := by
  obtain ⟨x⟩ := x
  refine congrArg Binary64.mk (UInt64.toNat_inj.mp ?_)
  have hthirtyTwo : (32 : UInt64).toNat % 64 = 32 := rfl
  have hx := x.toNat_lt
  have hhigh : x.toNat / 2 ^ 32 < 2 ^ 32 := by omega
  simp only [Binary64.lowWord, Binary64.highWord, UInt64.toNat_or, UInt64.toNat_shiftLeft,
    UInt32.toNat_toUInt64, UInt64.toNat_toUInt32, UInt64.toNat_shiftRight, hthirtyTwo]
  rw [Nat.shiftRight_eq_div_pow, Nat.mod_eq_of_lt hhigh, Nat.mod_eq_of_lt (a := _ <<< 32),
    Nat.or_comm, ← Nat.shiftLeft_add_eq_or_of_lt (Nat.mod_lt _ (by decide)), Nat.shiftLeft_eq]
  · omega
  · rw [Nat.shiftLeft_eq]
    omega

theorem readLiterals_literalSection (h : literals.length < 2 ^ 32) :
    readLiterals (literalSection literals) = .ok literals.toArray := by
  have hlength : (literals.flatMap literalWords).length = literals.length * 2 :=
    length_pairWords _ _ literals
  have hpairs : pairs literals.length (literals.flatMap literalWords) =
      literals.map fun x => (x.lowWord, x.highWord) := pairs_pairWords _ _ literals
  have hroom : ¬literals.length * 2 / 2 < literals.length := by omega
  rw [literalSection, cons_append, singleton_append, readLiterals, toNat_wordOf h,
    hlength, if_neg hroom, hpairs, map_map]
  refine congrArg (fun l => Except.ok (toArray l)) ?_
  exact (map_congr_left fun x _ => ofWords_lowWord_highWord x).trans (map_id' literals)

theorem readOutputMap_outputWords (h : outputs.length < 2 ^ 32)
    (hfits : ∀ p ∈ outputs, p.1 < 2 ^ 32 ∧ p.2 < 2 ^ 32) :
    readOutputMap (outputWords outputs) = .ok outputs := by
  have hlength : (outputs.flatMap fun p => [wordOf p.1, wordOf p.2]).length =
      outputs.length * 2 := length_pairWords _ _ outputs
  have hpairs : pairs outputs.length (outputs.flatMap fun p => [wordOf p.1, wordOf p.2]) =
      outputs.map fun p => (wordOf p.1, wordOf p.2) := pairs_pairWords _ _ outputs
  have hroom : ¬outputs.length * 2 / 2 < outputs.length := by omega
  have hdrop : (outputWords outputs).drop 7 =
      wordOf outputs.length :: outputs.flatMap fun p => [wordOf p.1, wordOf p.2] := rfl
  rw [readOutputMap, hdrop]
  dsimp only
  rw [toNat_wordOf h, hlength, if_neg hroom, hpairs, map_map]
  refine congrArg Except.ok ?_
  refine (map_congr_left fun p hp => ?_).trans (map_id' outputs)
  exact Prod.ext (toNat_wordOf (hfits p hp).1) (toNat_wordOf (hfits p hp).2)

theorem readInstructions_instructionSection (p : Pools)
    (h : (instructionSection instructions).length ≤ 0x7FFF) :
    readInstructions p (instructionSection instructions) =
      (WordReader.instructions p instructions.length).run'
        (instructions.flatMap instructionWords) := by
  have hlength : instructions.length * 2 ≤ (instructions.flatMap instructionWords).length := by
    clear h
    induction instructions with
    | nil => exact Nat.zero_le _
    | cons i is ih =>
      simp only [flatMap_cons, length_append, length_cons, instructionWords]
      omega
  rw [instructionSection, length_append, length_cons, length_singleton] at h
  have hroom : ¬(maxInstructions < instructions.length ∨
      (instructions.flatMap instructionWords).length / 2 < instructions.length) := by
    rw [maxInstructions]
    omega
  rw [instructionSection, cons_append, singleton_append, readInstructions,
    toNat_wordOf (by omega), if_neg hroom]

/-! ### Cells of temporaries -/

theorem foldl_max_le_iff {l : List Nat} {m : Nat} : l.foldl max m ≤ n ↔ m ≤ n ∧ ∀ x ∈ l, x ≤ n := by
  induction l generalizing m with
  | nil => simp
  | cons x l ih =>
    rw [foldl_cons, ih, Nat.max_le, forall_mem_cons, and_assoc]

theorem foldl_max_zero (l : List Nat) : l.foldl max 0 = l.max?.getD 0 := by
  cases l with
  | nil => rfl
  | cons x l => rw [max?_cons', Option.getD_some, foldl_cons, Nat.zero_max]

def tempCells (instructions : List Instruction) : List Nat :=
  instructions.flatMap fun i =>
    (i.spans.filter (·.1.pool = .temp)).map fun (o, lanes) => o.index + lanes

theorem Instruction.tempExtent_le_iff_wrap32 :
    i.tempExtent ≤ n ↔ ∀ x ∈ i.spans, x.1.pool = .temp → wrap32 (x.1.index + x.2) ≤ n := by
  have hspans : (i.operands.mapIdx fun slot o =>
      if o.pool = .temp then wrap32 (o.index + i.lanes slot) else 0) =
        i.spans.map fun x => if x.1.pool = .temp then wrap32 (x.1.index + x.2) else 0 := by
    rw [mapIdx_eq_zipIdx_map, spans, map_map]
    rfl
  rw [tempExtent, hspans, foldl_max_le_iff, forall_mem_map, and_iff_right (Nat.zero_le n)]
  refine forall₂_congr fun x _ => ?_
  split_ifs with htemp
  · exact ⟨fun h _ => h, fun h => h htemp⟩
  · exact iff_of_true (Nat.zero_le n) fun h => absurd h htemp

theorem Instruction.tempExtent_le_iff (h : ∀ x ∈ i.spans, x.1.index + x.2 < 2 ^ 32) :
    i.tempExtent ≤ n ↔ ∀ x ∈ i.spans, x.1.pool = .temp → x.1.index + x.2 ≤ n := by
  rw [tempExtent_le_iff_wrap32]
  refine forall₂_congr fun x hx => ?_
  rw [wrap32, Nat.mod_eq_of_lt (h x hx)]

theorem foldl_tempExtent
    (h : ∀ i ∈ instructions, ∀ x ∈ i.spans, x.1.index + x.2 < 2 ^ 32) :
    (instructions.map Instruction.tempExtent).foldl max 0 =
      (tempCells instructions).max?.getD 0 := by
  rw [← foldl_max_zero]
  refine eq_of_forall_ge_iff fun n => ?_
  simp only [foldl_max_le_iff, Nat.zero_le, true_and, forall_mem_map, tempCells,
    forall_mem_flatMap, mem_filter, decide_eq_true_eq, and_imp]
  exact forall₂_congr fun i hi => Instruction.tempExtent_le_iff (h i hi)

/-! ### Preshaders -/

def written (symbols : List Symbol) (literals : List Binary64) (instructions : List Instruction) :
    Preshader where
  literals := literals.toArray
  tempCount := (tempCells instructions).max?.getD 0
  symbols := symbols
  registers := .replicate (4 * (symbols.map fun s => s.index + s.count).max?.getD 0) .zero
  instructions := instructions

/-- What a stream can hold, the ranges of its outputs apart. -/
structure Writable (symbols : List Symbol) (literals : List Binary64)
    (instructions : List Instruction) (outputs : List (Nat × Nat)) : Prop where
  count : symbols.length ≤ ConstantTable.maxConstants
  storable : ∀ s ∈ symbols, s.Storable
  float4 : ∀ s ∈ symbols, s.registerSet = .float4
  wellFormed : ∀ i ∈ instructions, i.WellFormed literals.length symbols
  fits : ∀ p ∈ outputs, p.1 < 2 ^ 32 ∧ p.2 < 2 ^ 32
  short : (writtenSections symbols literals instructions outputs).Short

def outputMap (outputs : List (Nat × Nat)) : Option (List (Nat × Nat)) :=
  if outputs.isEmpty then none else some outputs

/-- Every output lies inside one range of the output map, if there is one. The numbers of the first
and the last cell of a range are computed by way of `wrap`. -/
def OutputsInside (wrap : Nat → Nat) (instructions : List Instruction)
    (outputs : List (Nat × Nat)) : Prop :=
  outputs ≠ [] → ∀ i ∈ instructions, ∀ x ∈ i.spans, x.1.pool = .output →
    ∃ p ∈ outputs, wrap (p.1 * 4) ≤ x.1.index ∧ x.1.index + x.2 ≤ wrap ((p.1 + p.2) * 4)

instance (wrap : Nat → Nat) (instructions : List Instruction) (outputs : List (Nat × Nat)) :
    Decidable (OutputsInside wrap instructions outputs) :=
  inferInstanceAs (Decidable (_ → _))

theorem coversOutput_iff {literalCount index lanes : Nat} (h : index + lanes < 2 ^ 32) :
    (Pools.mk literalCount symbols (outputMap outputs)).coversOutput index lanes = true ↔
      (outputs ≠ [] → ∃ p ∈ outputs,
        wrap32 (p.1 * 4) ≤ index ∧ index + lanes ≤ wrap32 ((p.1 + p.2) * 4)) := by
  have hwrap : wrap32 (index + lanes) = index + lanes := Nat.mod_eq_of_lt h
  cases outputs with
  | nil => simp [outputMap, Pools.coversOutput]
  | cons p ps =>
    simp [outputMap, Pools.coversOutput, hwrap]

def ofParts (literals : Array Binary64) (symbols : List Symbol) (instructions : List Instruction) :
    Preshader where
  literals := literals
  tempCount := (instructions.map Instruction.tempExtent).foldl max 0
  symbols := symbols
  registers := .replicate ((symbols.map fun y => y.index + y.count).foldl max 0 * 4) .zero
  instructions := instructions

theorem ofSections_of_parts {table literalBlock instructionBlock : List Word}
    {outputBlock : Option (List Word)} {literals : Array Binary64} {t : ConstantTable}
    (hliterals : readLiterals literalBlock = .ok literals)
    (houtputs : ∀ block ∈ outputBlock, readOutputMap block = .ok outputs)
    (htable : ConstantTable.ofWords table = .ok t)
    (hsets : t.symbols.find? (·.registerSet ≠ .float4) = none) :
    ofSections ⟨some table, some literalBlock, some instructionBlock, outputBlock⟩ =
      ofParts literals t.symbols <$>
        readInstructions ⟨literals.size, t.symbols, outputBlock.map fun _ => outputs⟩
          instructionBlock := by
  unfold ofSections
  cases outputBlock with
  | none =>
    simp only [needSection, hliterals, htable, hsets, bind, Except.bind, pure, Except.pure]
    rfl
  | some block =>
    simp only [needSection, hliterals, houtputs block rfl, htable, hsets, bind, Except.bind, pure,
      Except.pure, Functor.map, Except.map]
    rfl

def writtenPools (symbols : List Symbol) (literals : List Binary64) (outputs : List (Nat × Nat)) :
    Pools :=
  ⟨literals.length, symbols, outputMap outputs⟩

theorem ofWords_toWords_eq (h : Writable symbols literals instructions outputs) :
    ofWords (toWords (ConstantTable.toWords symbols) literals instructions outputs) =
      ofParts literals.toArray symbols <$>
        (WordReader.instructions (writtenPools symbols literals outputs) instructions.length).run'
          (instructions.flatMap instructionWords) := by
  have hliterals : readLiterals (literalSection literals) = .ok literals.toArray := by
    have hshort : _ ≤ 0x7FFF := h.short.literals _ rfl
    have hlength : (literals.flatMap literalWords).length = literals.length * 2 :=
      length_pairWords _ _ literals
    rw [literalSection, length_append] at hshort
    exact readLiterals_literalSection (by omega)
  have houtputs : ∀ block ∈ (writtenSections symbols literals instructions outputs).outputs,
      readOutputMap block = .ok outputs := by
    intro block hblock
    have hshort := h.short.outputs block hblock
    obtain rfl := Option.some.inj (Option.ite_none_left_eq_some.mp hblock).2
    rw [outputWords, length_append, length_pairWords] at hshort
    exact readOutputMap_outputWords (by omega) h.fits
  have htable : ConstantTable.ofWords (ConstantTable.toWords symbols) =
      .ok ⟨creatorName, targetName, symbols⟩ := by
    have hshort := h.short.table _ rfl
    have hlength := length_toWords symbols
    rw [ofWords_toWords_eq_ofBytes]
    exact ofBytes_toBytes symbols h.count h.storable (by omega)
  have hsets : symbols.find? (·.registerSet ≠ .float4) = none := by
    rw [find?_eq_none]
    intro s hs
    simp [h.float4 s hs]
  have hmap : (writtenSections symbols literals instructions outputs).outputs.map
      (fun _ => outputs) = outputMap outputs := by
    cases outputs <;> rfl
  rw [ofWords_toWords_eq_ofSections h.short,
    ← readInstructions_instructionSection _ (h.short.instructions _ rfl)]
  refine (ofSections_of_parts hliterals houtputs htable hsets).trans ?_
  rw [hmap]
  rfl

theorem ofParts_eq_written (h : Writable symbols literals instructions outputs) :
    ofParts literals.toArray symbols instructions = written symbols literals instructions := by
  have hspans : ∀ i ∈ instructions, ∀ x ∈ i.spans, x.1.index + x.2 < 2 ^ 32 :=
    fun i hi _ hx => (h.wellFormed i hi).index_add_lt hx
  rw [ofParts, written, foldl_tempExtent hspans, foldl_max_zero, Nat.mul_comm]

theorem exists_of_map_eq_ok {ε α β : Type} {f : α → β} {x : Except ε α} {b : β}
    (h : f <$> x = .ok b) : ∃ a, x = .ok a ∧ f a = b := by
  cases x with
  | error e => exact nomatch h
  | ok a => exact ⟨a, rfl, Except.ok.inj h⟩

/-- The outputs pass the check exactly if they lie inside the ranges computed on words. -/
theorem outputsInside_iff_coversOutput (h : Writable symbols literals instructions outputs) :
    OutputsInside wrap32 instructions outputs ↔
      ∀ i ∈ instructions, ∀ x ∈ i.spans, x.1.pool = .output →
        (writtenPools symbols literals outputs).coversOutput x.1.index x.2 = true := by
  have hcovers : ∀ i ∈ instructions, ∀ x ∈ i.spans,
      ((writtenPools symbols literals outputs).coversOutput x.1.index x.2 = true ↔
        (outputs ≠ [] → ∃ p ∈ outputs, wrap32 (p.1 * 4) ≤ x.1.index ∧
          x.1.index + x.2 ≤ wrap32 ((p.1 + p.2) * 4))) :=
    fun i hi _ hx => coversOutput_iff ((h.wellFormed i hi).index_add_lt hx)
  constructor
  · intro hinside i hi x hx hpool
    exact (hcovers i hi x hx).mpr fun hne => hinside hne i hi x hx hpool
  · intro hcovered hne i hi x hx hpool
    exact (hcovers i hi x hx).mp (hcovered i hi x hx hpool) hne

theorem length_arrayRegisters_lt (h : (instructionSection instructions).length ≤ 0x7FFF)
    (hi : i ∈ instructions) {o : Operand} (ho : o ∈ i.operands) :
    o.arrayRegisters.length < 2 ^ 32 := by
  have hwords : (instructionWords i).length ≤ (instructions.flatMap instructionWords).length :=
    (sublist_flatten_of_mem (mem_map_of_mem hi)).length_le
  have hoperands : (operandWords o).length ≤ (i.operands.flatMap operandWords).length :=
    (sublist_flatten_of_mem (mem_map_of_mem ho)).length_le
  rw [operandWords, length_append, length_pairWords] at hoperands
  rw [instructionWords, length_append] at hwords
  rw [instructionSection, length_append] at h
  omega

/-- The reading of the instructions succeeds exactly if their outputs pass the check. -/
theorem run'_instructions_iff (h : Writable symbols literals instructions outputs) :
    (WordReader.instructions (writtenPools symbols literals outputs) instructions.length).run'
        (instructions.flatMap instructionWords) = .ok instructions ↔
      OutputsInside wrap32 instructions outputs := by
  rw [outputsInside_iff_coversOutput h, StateT.run'_eq]
  constructor
  · intro hrun
    obtain ⟨⟨is, rest⟩, hfirst, rfl⟩ := exists_of_map_eq_ok hrun
    have hchecked := WordReader.ensures_instructions _ hfirst
    exact fun i hi x hx => ((hchecked i hi).operands x hx).coversOutput
  · intro hcovered
    have hreads := WordReader.reads_instructions fun i hi =>
      WordReader.reads_instruction (p := writtenPools symbols literals outputs) (h.wellFormed i hi)
        (fun o ho => length_arrayRegisters_lt (h.short.instructions _ rfl) hi ho) (hcovered i hi)
    have hrun := hreads []
    rw [append_nil] at hrun
    rw [hrun]
    rfl

end

def scaleSymbols : List Symbol := [⟨"Scale", .float4, 0, 1, ⟨.vector, .float, 1, 4, 1, []⟩⟩]

/-- The number one and a pattern that is not a number. -/
def scaleLiterals : List Binary64 := [⟨0x3FF0000000000000⟩, ⟨0x7FF0000000000001⟩]

/-- The literals are scaled by the last cell of the input and go to two outputs. -/
def scaleInstructions : List Instruction :=
  [⟨.mulScalar, 2, [⟨.input, 3, []⟩, ⟨.literal, 0, []⟩, ⟨.temp, 4, []⟩]⟩,
    ⟨.mov, 2, [⟨.temp, 4, []⟩, ⟨.output, 1, []⟩]⟩]

theorem writable_scale (h : n < 2 ^ 32) :
    Writable scaleSymbols scaleLiterals scaleInstructions [(0, n)] where
  count := by decide
  storable := by decide +kernel
  float4 := by decide
  wellFormed := by decide
  fits := by simpa using h
  short := by
    refine ⟨?_, ?_, ?_, ?_⟩ <;> rintro ws ⟨⟩
    · decide +kernel
    · decide
    · decide
    · exact Nat.le_trans (Nat.le_of_eq rfl) (by decide : 10 ≤ 0x7FFF)

end ShaderPipeline.Preshader
