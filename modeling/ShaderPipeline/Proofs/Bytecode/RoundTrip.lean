import ShaderPipeline.Proofs.Bytecode.Decoded
import ShaderPipeline.Proofs.Bytecode.Reads

/-!
# Reading what was written

Every shader that a known version can express is read back from its words: the version, and every
instruction with its number, its position and its length.
-/

namespace ShaderPipeline

open List OperandReader Instruction Shader Opcode Declaration

/-! ### Shapes -/

theorem length_le_of_mem_operandShapes : ∀ kinds ∈ operandShapes, kinds.length ≤ 5 := by
  decide

/-- Only declarations have a word in front of their register. -/
theorem eq_of_decl_mem : ∀ kinds ∈ operandShapes, .decl ∈ kinds → kinds = [.decl, .dst] := by
  decide

theorem mem_all_of_operandShape {op : Opcode} {v : Version} {kinds : List OperandKind}
    (h : operandShape op v = some kinds) : op ∈ Opcode.all := by
  cases op with
  | unknown n => exact nomatch h
  | _ => decide

namespace Encoding

open Piece

open BitField

variable {v : Version} {mark : Bool}

/-! ### The number of operand words -/

theorem length_relativeWords_le (a : Option RelativeAddress) :
    (relativeWords v mark a).length ≤ 1 := by
  cases a with
  | none => exact Nat.zero_le 1
  | some a =>
    rw [relativeWords]
    split <;> simp

/-- In the first shader model every register has one word. -/
theorem relativeWords_of_first (hmajor : v.major < 2) (a : Option RelativeAddress) :
    relativeWords v mark a = [] := by
  cases a with
  | none => rfl
  | some a => exact if_neg (Nat.not_le.mpr hmajor)

namespace Piece

theorem eq_decl {piece : Piece} (h : piece.kind = .decl) : ∃ d, piece = .decl d := by
  cases piece with
  | decl d => exact ⟨d, rfl⟩
  | _ => exact nomatch h

theorem eq_dst {piece : Piece} (h : piece.kind = .dst) : ∃ d m, piece = .dst d m := by
  cases piece with
  | dst d m => exact ⟨d, m, rfl⟩
  | _ => exact nomatch h

theorem length_words_le (piece : Piece) : (piece.words v mark).length ≤ 2 := by
  cases piece with
  | dst d m => exact Nat.succ_le_succ (length_relativeWords_le _)
  | src s => exact Nat.succ_le_succ (length_relativeWords_le _)
  | imm w => exact Nat.le_succ 1
  | decl d => exact Nat.le_succ 1

theorem length_words_of_first (hmajor : v.major < 2) (piece : Piece) :
    (piece.words v mark).length = 1 := by
  cases piece with
  | dst d m => simp [words, destinationWords, registerWords, relativeWords_of_first hmajor]
  | src s => simp [words, sourceWords, registerWords, relativeWords_of_first hmajor]
  | imm w => rfl
  | decl d => rfl

theorem length_flatMap_words_le (pieces : List Piece) :
    (pieces.flatMap (words v mark)).length ≤ 2 * pieces.length := by
  induction pieces with
  | nil => exact Nat.le_refl 0
  | cons piece pieces ih =>
    have hlength : (piece.words v mark).length ≤ 2 := piece.length_words_le
    rw [flatMap_cons, length_append, length_cons]
    omega

theorem length_flatMap_words_of_first (hmajor : v.major < 2) (pieces : List Piece) :
    (pieces.flatMap (words v mark)).length = pieces.length := by
  induction pieces with
  | nil => rfl
  | cons piece pieces ih =>
    rw [flatMap_cons, length_append, length_cons, ih,
      length_words_of_first hmajor piece, Nat.add_comm]

end Piece

namespace Operation

variable {o : Operation}

theorem length_operandWords (o : Operation) : (o.operandWords v mark).length =
    (o.predicateWords v mark).length + (o.pieces.flatMap (words v mark)).length := by
  obtain ⟨opcode, control, coissue, predicate, pieces⟩ := o
  cases pieces with
  | nil => exact length_append
  | cons piece pieces =>
    cases piece with
    | dst d m =>
      rw [operandWords, flatMap_cons]
      simp only [length_append, words]
      omega
    | _ => exact length_append

theorem length_predicateWords_le (o : Operation) : (o.predicateWords v mark).length ≤ 2 := by
  rw [predicateWords]
  cases o.predicate with
  | none => exact Nat.zero_le 2
  | some s =>
    rw [Option.toList_some, flatMap_singleton]
    exact Nat.succ_le_succ (length_relativeWords_le _)

theorem length_operandWords_lt (ho : o.WellFormed v) :
    (o.operandWords v mark).length < 2 ^ 4 := by
  have hshape := length_le_of_mem_operandShapes _ (operandShape_mem ho.shape).1
  have hpieces : (o.pieces.flatMap (words v mark)).length ≤ 2 * o.pieces.length :=
    length_flatMap_words_le o.pieces
  have hpredicate : (o.predicateWords v mark).length ≤ 2 := o.length_predicateWords_le
  rw [length_map] at hshape
  rw [length_operandWords]
  omega

/-- In the first shader model an operand has one word, and there are no predicates. -/
theorem length_operandWords_of_first (ho : o.WellFormed v) (hmajor : v.major < 2) :
    (o.operandWords v mark).length = (o.pieces.map kind).length := by
  have hnone : o.predicate = none := by
    refine Option.eq_none_iff_forall_not_mem.mpr fun s hs => ?_
    have := (ho.predicate s hs).1
    omega
  rw [operandWords_of_none hnone, length_flatMap_words_of_first hmajor, length_map]

theorem wellPlaced_headWord (ho : o.WellFormed v) (mark : Bool) :
    WellPlaced [⟨0, 16, o.opcode.code⟩, ⟨16, 8, o.control⟩,
      ⟨24, 4, if 2 ≤ v.major then (o.operandWords v mark).length else 0⟩,
      ⟨28, 1, o.predicate.isSome.toNat⟩, ⟨30, 1, o.coissue.toNat⟩] := by
  have hcode := code_lt (mem_all_of_operandShape ho.shape)
  have hcount : (if 2 ≤ v.major then (o.operandWords v mark).length else 0) < 2 ^ 4 := by
    split
    · exact length_operandWords_lt ho
    · decide
  exact .cons hcode (by decide) (by simp [Apart])
    (.cons ho.control (by decide) (by simp [Apart])
      (.cons hcount (by decide) (by simp [Apart])
        (.cons o.predicate.isSome.toNat_lt (by decide) (by simp [Apart])
          (.cons o.coissue.toNat_lt (by decide) (forall_mem_nil _) .nil))))

end Operation

/-! ### One instruction -/

theorem Declared.ofWord_word {d : Declared} {x : Destination} (hd : (decl d).WellFormed v)
    (hx : d.Suits x) :
    ofWord (d.word mark) [.dst x] = .ok d.meaning := by
  cases d with
  | usage s =>
    have hfile : (x.reg.file == RegisterFile.sampler) = false := beq_eq_false_iff_ne.mpr hx
    have hplaced : WellPlaced
        [⟨0, 5, s.usage.code⟩, ⟨16, 4, s.index⟩, ⟨31, 1, mark.toNat⟩] :=
      .cons s.usage.code_lt (by decide) (by simp [Apart])
        (.cons hd (by decide) (by simp [Apart])
          (.cons mark.toNat_lt (by decide) (forall_mem_nil _) .nil))
    have husage : field (word mark (.usage s)) 0 5 = s.usage.code :=
      field_ofFields hplaced (by simp)
    have hindex : field (word mark (.usage s)) 16 4 = s.index := field_ofFields hplaced (by simp)
    simp [ofWord, hfile, husage, hindex, Usage.ofCode?_code, meaning]
  | texture t =>
    have hfile : (x.reg.file == RegisterFile.sampler) = true := beq_iff_eq.mpr hx
    have hplaced : WellPlaced [⟨27, 4, t.code⟩, ⟨31, 1, mark.toNat⟩] :=
      .cons t.code_lt (by decide) (by simp [Apart])
        (.cons mark.toNat_lt (by decide) (forall_mem_nil _) .nil)
    have hcode : field (word mark (.texture t)) 27 4 = t.code := field_ofFields hplaced (by simp)
    cases t <;>
      simp [ofWord, hfile, hcode, TextureShape.code, meaning, TextureShape.kind]

namespace Operation

variable {o : Operation}

theorem operandWords_headWord (ho : o.WellFormed v) (position : Nat) (rest : List Word) :
    Instruction.operandWords v position (o.headWord v mark) (o.operandWords v mark ++ rest)
      (o.pieces.map kind) = .ok (o.operandWords v mark) := by
  rw [Instruction.operandWords]
  by_cases hmajor : 2 ≤ v.major
  · have hcount : field (o.headWord v mark) 24 4 = (o.operandWords v mark).length :=
      field_ofFields (wellPlaced_headWord ho mark) (by simp [hmajor])
    rw [if_pos hmajor, hcount, take_left]
    exact if_neg (Nat.lt_irrefl _)
  · rw [if_neg hmajor, ← length_operandWords_of_first ho (Nat.not_le.mp hmajor), take_left]
    exact if_neg (Nat.lt_irrefl _)

theorem declared_cases (ho : o.WellFormed v) :
    o.pieces.filterMap declared? = [] ∨ ∃ d x m, o.pieces = [.decl d, .dst x m] := by
  have hshape := (operandShape_mem ho.shape).1
  by_cases hdecl : OperandKind.decl ∈ o.pieces.map kind
  · right
    have hkinds := eq_of_decl_mem _ hshape hdecl
    obtain ⟨p, ps, hpieces, hp, hkinds⟩ := map_eq_cons_iff.mp hkinds
    obtain ⟨q, qs, rfl, hq, hnil⟩ := map_eq_cons_iff.mp hkinds
    obtain rfl := map_eq_nil_iff.mp hnil
    obtain ⟨d, rfl⟩ := eq_decl hp
    obtain ⟨x, m, rfl⟩ := eq_dst hq
    exact ⟨d, x, m, hpieces⟩
  · left
    refine filterMap_eq_nil_iff.mpr fun piece hpiece => ?_
    cases piece with
    | decl d => exact absurd (mem_map_of_mem hpiece) hdecl
    | _ => rfl

theorem declaration_partsOf (ho : o.WellFormed v) (mark : Bool) (index position : Nat) :
    ((partsOf mark o).declaration = none ∧
      (o.instruction v mark index position).declaration = none) ∨
    ∃ w d, (partsOf mark o).declaration = some w ∧
      ofWord w (partsOf mark o).operands = .ok d ∧
      (o.instruction v mark index position).declaration = some d := by
  rcases declared_cases ho with hnone | ⟨d, x, m, hpieces⟩
  · left
    simp only [partsOf, instruction, hnone]
    exact ⟨rfl, rfl⟩
  · right
    refine ⟨d.word mark, d.meaning, ?_⟩
    simp only [partsOf, instruction, hpieces]
    have hd : (decl d).WellFormed v := ho.pieces _ (by simp [hpieces])
    have hx : d.Suits x := ho.declared d (by simp [hpieces, declared?]) x
      (by simp [hpieces, destination?])
    exact ⟨rfl, Declared.ofWord_word hd hx, rfl⟩

theorem ofOperands_words (ho : o.WellFormed v) (index position : Nat) (rest : List Word) :
    ofOperands v index position o.opcode (o.headWord v mark)
      (o.operandWords v mark ++ rest) = .ok (o.instruction v mark index position) := by
  have hplaced := wellPlaced_headWord ho mark
  have hcontrol : field (o.headWord v mark) 16 8 = o.control := field_ofFields hplaced (by simp)
  have hpredicated : flag (o.headWord v mark) 28 = o.predicate.isSome :=
    flag_ofFields hplaced (by simp)
  have hcoissue : flag (o.headWord v mark) 30 = o.coissue := flag_ofFields hplaced (by simp)
  have hread : (shape v o.predicate.isSome (o.pieces.map kind)).run
      ⟨o.operandWords v mark, position + 1⟩ = .ok (partsOf mark o, ⟨[], _⟩) :=
    append_nil (o.operandWords v mark) ▸ reads_shape ho [] (position + 1)
  have hpredicate : (partsOf mark o).predicate = o.predicate := rfl
  have hdeclaration : (o.pieces.filterMap declared?).getLast?.map Declared.meaning =
      (o.instruction v mark index position).declaration := rfl
  rw [ofOperands, ho.shape]
  simp only [operandWords_headWord ho, hpredicated, hread, bind, Except.bind, hcontrol, hcoissue,
    hpredicate]
  rw [instruction, hdeclaration]
  -- What is left are the checks of the predicate's file and of the declaration.
  rcases declaration_partsOf ho mark index position with ⟨hword, hd⟩ | ⟨w, d, hword, hof, hd⟩
  · simp only [hword, hd]
    cases hp : o.predicate with
    | none => rfl
    | some s =>
      simp only [(ho.predicate s hp).2.1, ne_eq, not_true, if_false]
      rfl
  · simp only [hword, hof, hd]
    cases hp : o.predicate with
    | none => rfl
    | some s =>
      simp only [(ho.predicate s hp).2.1, ne_eq, not_true, if_false]
      rfl

end Operation

theorem ofTokens_of_operandShape {op : Opcode} {kinds : List OperandKind}
    (hshape : operandShape op v = some kinds) {head : Word}
    (hop : ofCode (field head 0 16) = op) (index position : Nat) (tail : List Word) :
    ofTokens v index position head tail =
      ofOperands v index position op head tail := by
  rw [Instruction.ofTokens, hop]
  cases op with
  | comment | stop | phase => exact nomatch hshape
  | _ => rfl

theorem ofComment_commentWord {words : List Word} (h : words.length ≤ 0x7FFF)
    (index position : Nat) (rest : List Word) :
    ofTokens v index position (commentWord words) (words ++ rest) =
      .ok (Statement.instruction v mark index position (.comment words)) := by
  have hplaced : WellPlaced [⟨0, 16, comment.code⟩, ⟨16, 15, words.length⟩] :=
    .cons (by decide) (by decide) (by simp [Apart])
      (.cons (Nat.lt_succ_of_le h) (by decide) (forall_mem_nil _) .nil)
  have hcode : field (commentWord words) 0 16 = comment.code :=
    field_ofFields hplaced (by simp)
  have hlength : field (commentWord words) 16 15 = words.length :=
    field_ofFields hplaced (by simp)
  rw [Instruction.ofTokens, hcode, ofCode_code (by decide)]
  change ofComment index position (commentWord words) (words ++ rest) = _
  rw [ofComment, hlength, take_left]
  exact if_neg (Nat.lt_irrefl _)

namespace Statement

variable {s : Statement}

theorem ofTokens_words (hs : s.WellFormed v) (mark : Bool) (index position : Nat)
    (rest : List Word) :
    ∃ head tail, s.words v mark = head :: tail ∧
      ofTokens v index position head (tail ++ rest) =
        .ok (s.instruction v mark index position) := by
  cases s with
  | operation o =>
    have hall := mem_all_of_operandShape hs.shape
    have hcode : field (o.headWord v mark) 0 16 = o.opcode.code :=
      field_ofFields (o.wellPlaced_headWord hs mark) (by simp)
    refine ⟨_, _, rfl, ?_⟩
    rw [ofTokens_of_operandShape hs.shape (hcode ▸ ofCode_code hall)]
    exact o.ofOperands_words hs index position rest
  | comment words => exact ⟨_, _, rfl, ofComment_commentWord hs index position rest⟩
  | phase =>
    have hcode : field (.ofFields [⟨0, 16, Opcode.phase.code⟩]) 0 16 = Opcode.phase.code :=
      field_ofFields (.cons (by decide) (by decide) (forall_mem_nil _) .nil) (by simp)
    refine ⟨_, _, rfl, ?_⟩
    rw [Instruction.ofTokens, hcode, ofCode_code (by decide)]
    rfl

/-- The end marker is none of the statements. -/
theorem opcode_instruction_ne (hs : s.WellFormed v) (index position : Nat) :
    (s.instruction v mark index position).opcode ≠ .stop := by
  cases s with
  | operation o =>
    intro hstop
    have hshape := hs.shape
    rw [show o.opcode = .stop from hstop] at hshape
    exact nomatch hshape
  | comment words => exact nofun
  | phase => exact nofun

theorem length_instruction (s : Statement) (v : Version) (mark : Bool) (index position : Nat) :
    (s.instruction v mark index position).length = (s.words v mark).length := by
  cases s with
  | operation o => exact Nat.add_comm ..
  | comment words => exact Nat.add_comm ..
  | phase => rfl

end Statement

/-! ### Streams -/

theorem readInstructions_skip (v : Version) (position index : Nat) (done : List Instruction)
    (words rest : List Word) :
    readInstructions v words.length position index done (words ++ rest) =
      readInstructions v 0 (position + words.length) index done rest := by
  induction words generalizing position with
  | nil => rfl
  | cons w words ih =>
    rw [cons_append, length_cons, readInstructions, ih, Nat.add_assoc, Nat.add_comm 1]

theorem readInstructions_statement {s : Statement} (hs : s.WellFormed v) (position index : Nat)
    (done : List Instruction) (rest : List Word) :
    readInstructions v 0 position index done (s.words v mark ++ rest) =
      readInstructions v 0 (position + (s.words v mark).length) (index + 1)
        (s.instruction v mark index position :: done) rest := by
  obtain ⟨head, tail, hwords, hread⟩ := s.ofTokens_words hs mark index position rest
  have hlength := s.length_instruction v mark index position
  rw [hwords] at hlength ⊢
  rw [cons_append, readInstructions, hread]
  -- The reader goes on behind the first word and passes over the others one by one.
  change (if (s.instruction v mark index position).opcode = .stop then _ else _) = _
  rw [if_neg (s.opcode_instruction_ne hs index position), hlength, length_cons,
    Nat.add_sub_cancel, readInstructions_skip, Nat.add_assoc, Nat.add_comm 1]

theorem readInstructions_words {ss : List Statement} (h : ∀ s ∈ ss, s.WellFormed v)
    (position index : Nat) (done : List Instruction) :
    readInstructions v 0 position index done
        (ss.flatMap (Statement.words v mark) ++ [0x0000FFFF]) =
      .ok (done.reverse ++ shaderInstructions v mark index position ss) := by
  induction ss generalizing position index done with
  | nil =>
    have hstop : ofCode (field 0x0000FFFF 0 16) = .stop := by decide
    rw [flatMap_nil, nil_append, readInstructions, Instruction.ofTokens, hstop]
    exact congrArg Except.ok reverse_cons
  | cons s ss ih =>
    rw [forall_mem_cons] at h
    rw [flatMap_cons, append_assoc, readInstructions_statement h.1, ih h.2,
      reverse_cons, append_assoc]
    rfl

end Encoding

namespace Version

theorem lt_of_isKnown {v : Version} (h : v.isKnown = true) : v.major < 2 ^ 8 ∧ v.minor < 2 ^ 8 := by
  obtain ⟨stage, major, minor⟩ := v
  change major < 2 ^ 8 ∧ minor < 2 ^ 8
  simp only [isKnown] at h
  split at h
  · have hminor : minor ≤ 4 := by
      cases stage with
      | vertex => exact Nat.le_trans (of_decide_eq_true h) (by decide)
      | pixel => exact of_decide_eq_true h
    omega
  · simp only [Bool.or_eq_true, decide_eq_true_eq, beq_iff_eq] at h
    omega
  · simp only [beq_iff_eq] at h
    omega
  · exact nomatch h

theorem ofToken?_word {v : Version} (h : v.isKnown = true) : ofToken? v.word = some v := by
  obtain ⟨hmajor, hminor⟩ := lt_of_isKnown h
  have hplaced : BitField.WellPlaced
      [⟨0, 8, v.minor⟩, ⟨8, 8, v.major⟩, ⟨16, 16, v.stage.code⟩] :=
    .cons hminor (by decide) (by simp [BitField.Apart])
      (.cons hmajor (by decide) (by simp [BitField.Apart])
        (.cons v.stage.code_lt (by decide) (forall_mem_nil _) .nil))
  have hminor : field v.word 0 8 = v.minor := field_ofFields hplaced (by simp)
  have hmajor : field v.word 8 8 = v.major := field_ofFields hplaced (by simp)
  have hstage : field v.word 16 16 = v.stage.code := field_ofFields hplaced (by simp)
  rw [ofToken?, hstage, hmajor, hminor]
  obtain ⟨stage, major, minor⟩ := v
  cases stage <;> rfl

end Version

/-- Every shader of a known version whose statements the version can express is read back from its
words, if there are not too many of them. -/
theorem Shader.ofTokens_shaderWords (v : Version) (mark : Bool) (ss : List Encoding.Statement)
    (hknown : v.isKnown = true) (hss : ∀ s ∈ ss, s.WellFormed v)
    (hlength : (Encoding.shaderWords v mark ss).length ≤ DecodeFault.maxTokens) :
    Shader.ofTokens (Encoding.shaderWords v mark ss) =
      .ok ⟨v, Encoding.shaderInstructions v mark 0 1 ss⟩ := by
  rw [Shader.ofTokens.eq_def, if_neg (Nat.not_lt.mpr hlength)]
  simp only [Encoding.shaderWords, Version.ofToken?_word hknown, hknown, if_true,
    Encoding.readInstructions_words hss]
  rfl

def predicatedStatements : List Encoding.Statement :=
  [.operation ⟨.dcl, 0, false, none,
      [.decl (.usage ⟨.texCoord, 1⟩), .dst ⟨⟨.input, 2, none⟩, .full⟩ .plain]⟩,
    .comment [7],
    .operation ⟨.add, 0, false, some ⟨⟨.predicate, 0, none⟩, .identity, .not⟩,
      [.dst ⟨⟨.temp, 3, none⟩, ⟨7⟩⟩ { ResultModifier.plain with saturate := true },
        .src ⟨⟨.const, 10, some ⟨.addr, 0, .y⟩⟩, .identity, .negate⟩,
        .src ⟨⟨.input, 2, none⟩, .identity, .plain⟩]⟩]

/-- The statements as words, and back. -/
theorem Shader.ofTokens_shaderWords_predicated :
    Encoding.shaderWords ⟨.vertex, 2, 1⟩ true predicatedStatements =
      [0xFFFE0201, 0x0200001F, 0x80010005, 0x900F0002, 0x0001FFFE, 7, 0x15000002, 0x80170003,
        0xBDE41000, 0xA1E4200A, 0xB0550000, 0x90E40002, 0x0000FFFF] ∧
    Shader.ofTokens (Encoding.shaderWords ⟨.vertex, 2, 1⟩ true predicatedStatements) =
      .ok ⟨⟨.vertex, 2, 1⟩,
        Encoding.shaderInstructions ⟨.vertex, 2, 1⟩ true 0 1 predicatedStatements⟩ :=
  ⟨rfl, ofTokens_shaderWords _ _ _ rfl (by decide) (by decide)⟩

end ShaderPipeline
