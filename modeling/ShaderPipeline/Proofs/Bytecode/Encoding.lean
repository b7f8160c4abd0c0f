import Mathlib.Tactic.MkIffOfInductiveProp
import ShaderPipeline.Bytecode.Reader
import ShaderPipeline.Proofs.Bytecode.Fields

/-!
# The encoding of shaders as words

A shader is written as a version word, the words of its statements and an end marker. The first word
of an operation holds the opcode, its control bits, the number of operand words from the second
shader model on, and whether the operation is predicated or issued together with the one before. The
operands follow in the order of the opcode's shape. The predicate stands behind a leading
destination, and in front of everything else if there is none.

The words of registers and of declarations may have their top bit set; readers do not look at it.
-/

namespace ShaderPipeline

/-- The number of a register file. The address registers share theirs with the textures, and the
texture coordinate outputs share theirs with the outputs of the third vertex shader model. -/
def RegisterFile.code : RegisterFile → Nat
  | temp => 0
  | input => 1
  | const => 2
  | addr | texture => 3
  | rastOut => 4
  | attrOut => 5
  | texCoordOut | output => 6
  | constInt => 7
  | colorOut => 8
  | depthOut => 9
  | sampler => 10
  | constBool => 14
  | loop => 15
  | miscType => 17
  | label => 18
  | predicate => 19

variable (v : Version)

def RegisterFile.Expressible (role : Role) : RegisterFile → Prop
  | addr => role = .index ∨ v.stage = .vertex
  | texture => role = .operand ∧ v.stage = .pixel
  | output => v.stage = .vertex ∧ 3 ≤ v.major
  | texCoordOut => ¬(v.stage = .vertex ∧ 3 ≤ v.major)
  | _ => True

instance (role : RegisterFile.Role) (file : RegisterFile) : Decidable (file.Expressible v role) :=
  match file with
  | .addr => inferInstanceAs (Decidable (_ ∨ _))
  | .texture | .output => inferInstanceAs (Decidable (_ ∧ _))
  | .texCoordOut => inferInstanceAs (Decidable (¬(_ ∧ _)))
  | .temp | .input | .const | .rastOut | .attrOut | .constInt | .colorOut | .depthOut | .sampler
  | .constBool | .loop | .label | .predicate | .miscType => inferInstanceAs (Decidable True)

/-- A relative address goes through the address register or the loop counter. The first shader model
has `a0.x` only. -/
@[mk_iff]
structure RelativeAddress.WellFormed (v : Version) (a : RelativeAddress) : Prop where
  file : a.file = .addr ∨ a.file = .loop
  index : a.index ≤ a.file.maxIndex
  first : v.major < 2 → a = ⟨.addr, 0, .x⟩

instance (a : RelativeAddress) : Decidable (a.WellFormed v) :=
  decidable_of_iff _ (RelativeAddress.wellFormed_iff v a).symm

/-- A register that a version can name, with its relative address. -/
@[mk_iff]
structure RegisterRef.WellFormed (v : Version) (r : RegisterRef) : Prop where
  file : r.file.Expressible v .operand
  index : r.index ≤ r.file.maxIndex
  relative : ∀ a ∈ r.relative, a.WellFormed v

instance (r : RegisterRef) : Decidable (r.WellFormed v) :=
  decidable_of_iff _ (RegisterRef.wellFormed_iff v r).symm

def ResultShift.code : ResultShift → Nat
  | one => 0
  | mul2 => 1
  | mul4 => 2
  | mul8 => 3
  | div2 => 15
  | div4 => 14
  | div8 => 13

def Stage.code : Stage → Nat
  | vertex => 0xFFFE
  | pixel => 0xFFFF

/-- The first word of a stream. -/
def Version.word (v : Version) : Word :=
  .ofFields [⟨0, 8, v.minor⟩, ⟨8, 8, v.major⟩, ⟨16, 16, v.stage.code⟩]

namespace Encoding

/-- The shape of a texture in a declaration, where textures of one dimension are told apart from
those of two. -/
inductive TextureShape where
  | line
  | flat
  | cube
  | volume
  deriving DecidableEq, Repr

namespace TextureShape

def code : TextureShape → Nat
  | line => 1
  | flat => 2
  | cube => 3
  | volume => 4

def kind : TextureShape → SamplerKind
  | line | flat => .flat
  | cube => .cube
  | volume => .volume

end TextureShape

/-- What the word in front of a declared register says. -/
inductive Declared where
  | usage (s : Semantic)
  | texture (t : TextureShape)
  deriving DecidableEq, Repr

namespace Declared

def meaning : Declared → Declaration
  | usage s => .usage s
  | texture t => .texture t.kind

def word (mark : Bool) : Declared → Word
  | usage s => .ofFields [⟨0, 5, s.usage.code⟩, ⟨16, 4, s.index⟩, ⟨31, 1, mark.toNat⟩]
  | texture t => .ofFields [⟨27, 4, t.code⟩, ⟨31, 1, mark.toNat⟩]

end Declared

/-- A part of an operation. What is done to a result is written with the destination. -/
inductive Piece where
  | dst (d : Destination) (m : ResultModifier)
  | src (s : Source)
  | imm (w : Word)
  | decl (d : Declared)
  deriving DecidableEq, Repr

/-- An operation, the parts in stream order. -/
structure Operation where
  opcode : Opcode
  control : Nat
  coissue : Bool
  predicate : Option Source
  pieces : List Piece
  deriving DecidableEq, Repr

/-- What an instruction says, apart from its place in a stream. -/
inductive Statement where
  | operation (o : Operation)
  | comment (words : List Word)
  | phase
  deriving DecidableEq, Repr

namespace Piece

def kind : Piece → OperandKind
  | dst .. => .dst
  | src _ => .src
  | imm _ => .imm
  | decl _ => .decl

def operand? : Piece → Option Operand
  | dst d _ => some (.dst d)
  | src s => some (.src s)
  | imm w => some (.imm w)
  | decl _ => none

def destination? : Piece → Option Destination
  | dst d _ => some d
  | _ => none

def result? : Piece → Option ResultModifier
  | dst _ m => some m
  | _ => none

def declared? : Piece → Option Declared
  | decl d => some d
  | _ => none

end Piece

/-! ### What a version can express -/

/-- A part that a version can express. A mask must not be empty, for an empty one reads as full. -/
def Piece.WellFormed (v : Version) : Piece → Prop
  | .dst d _ => d.reg.WellFormed v ∧ 0 < d.mask.bits ∧ d.mask.bits < 2 ^ 4
  | .src s => s.reg.WellFormed v
  | .imm _ => True
  | .decl (.usage s) => s.index < 2 ^ 4
  | .decl (.texture _) => True

instance (v : Version) (piece : Piece) : Decidable (piece.WellFormed v) :=
  match piece with
  | .dst .. => inferInstanceAs (Decidable (_ ∧ _))
  | .src s => inferInstanceAs (Decidable (s.reg.WellFormed v))
  | .decl (.usage _) => inferInstanceAs (Decidable (_ < _))
  | .imm _ | .decl (.texture _) => inferInstanceAs (Decidable True)

def Declared.Suits (d : Destination) : Declared → Prop
  | .usage _ => d.reg.file ≠ .sampler
  | .texture _ => d.reg.file = .sampler

instance (d : Destination) (declared : Declared) : Decidable (declared.Suits d) :=
  match declared with
  | .usage _ => inferInstanceAs (Decidable (_ ≠ _))
  | .texture _ => inferInstanceAs (Decidable (_ = _))

/-- An operation that a version can express. There are no predicates in the first shader model. -/
@[mk_iff]
structure Operation.WellFormed (v : Version) (o : Operation) : Prop where
  shape : operandShape o.opcode v = some (o.pieces.map Piece.kind)
  control : o.control < 2 ^ 8
  pieces : ∀ piece ∈ o.pieces, piece.WellFormed v
  predicate : ∀ s ∈ o.predicate, 2 ≤ v.major ∧ s.reg.file = .predicate ∧ s.reg.WellFormed v
  declared : ∀ declared ∈ o.pieces.filterMap Piece.declared?,
    ∀ d ∈ o.pieces.filterMap Piece.destination?, declared.Suits d

instance (v : Version) (o : Operation) : Decidable (o.WellFormed v) :=
  decidable_of_iff _ (Operation.wellFormed_iff v o).symm

def Statement.WellFormed (v : Version) : Statement → Prop
  | .operation o => o.WellFormed v
  | .comment words => words.length ≤ 0x7FFF
  | .phase => True

instance (v : Version) (s : Statement) : Decidable (s.WellFormed v) :=
  match s with
  | .operation o => inferInstanceAs (Decidable (o.WellFormed v))
  | .comment _ => inferInstanceAs (Decidable (_ ≤ _))
  | .phase => inferInstanceAs (Decidable True)

/-! ### Words -/

variable (mark : Bool)

def registerFields (file : RegisterFile) (index : Nat) (relative : Bool) : List BitField :=
  [⟨0, 11, index⟩, ⟨11, 2, file.code / 8⟩, ⟨13, 1, relative.toNat⟩, ⟨28, 3, file.code % 8⟩,
    ⟨31, 1, mark.toNat⟩]

def relativeWord (a : RelativeAddress) : Word :=
  .ofFields ([⟨16, 8, (Swizzle.mk a.component a.component a.component a.component).code⟩] ++
    registerFields mark a.file a.index false)

/-- The first word of a register, with the fields that the operand adds to it. -/
def registerWord (r : RegisterRef) (fields : List BitField) : Word :=
  .ofFields (fields ++ registerFields mark r.file r.index r.relative.isSome)

def relativeWords (v : Version) (mark : Bool) : Option RelativeAddress → List Word
  | none => []
  | some a => if 2 ≤ v.major then [relativeWord mark a] else []

def registerWords (v : Version) (mark : Bool) (r : RegisterRef) (fields : List BitField) :
    List Word :=
  registerWord mark r fields :: relativeWords v mark r.relative

def resultFields (mask : WriteMask) (m : ResultModifier) : List BitField :=
  [⟨16, 4, mask.bits⟩, ⟨20, 1, m.saturate.toNat⟩, ⟨21, 1, m.partialPrecision.toNat⟩,
    ⟨22, 1, m.centroid.toNat⟩, ⟨24, 4, m.shift.code⟩]

def sourceFields (swizzle : Swizzle) (m : SourceModifier) : List BitField :=
  [⟨16, 8, swizzle.code⟩, ⟨24, 4, m.code⟩]

def destinationWords (v : Version) (mark : Bool) (d : Destination) (m : ResultModifier) :
    List Word :=
  registerWords v mark d.reg (resultFields d.mask m)

def sourceWords (v : Version) (mark : Bool) (s : Source) : List Word :=
  registerWords v mark s.reg (sourceFields s.swizzle s.modifier)

def Piece.words (v : Version) (mark : Bool) : Piece → List Word
  | .dst d m => destinationWords v mark d m
  | .src s => sourceWords v mark s
  | .imm w => [w]
  | .decl d => [d.word mark]

namespace Operation

/-- The words of the predicate, if there is one. -/
def predicateWords (v : Version) (mark : Bool) (o : Operation) : List Word :=
  o.predicate.toList.flatMap (sourceWords v mark)

/-- All words of an operation but the first. -/
def operandWords (v : Version) (mark : Bool) (o : Operation) : List Word :=
  match o.pieces with
  | .dst d m :: pieces =>
    destinationWords v mark d m ++ (o.predicateWords v mark ++ pieces.flatMap (Piece.words v mark))
  | pieces => o.predicateWords v mark ++ pieces.flatMap (Piece.words v mark)

/-- The first word of an operation. -/
def headWord (v : Version) (mark : Bool) (o : Operation) : Word :=
  .ofFields
    [⟨0, 16, o.opcode.code⟩, ⟨16, 8, o.control⟩,
      ⟨24, 4, if 2 ≤ v.major then (o.operandWords v mark).length else 0⟩,
      ⟨28, 1, o.predicate.isSome.toNat⟩, ⟨30, 1, o.coissue.toNat⟩]

end Operation

/-- The first word of a comment. -/
def commentWord (words : List Word) : Word :=
  .ofFields [⟨0, 16, Opcode.comment.code⟩, ⟨16, 15, words.length⟩]

def Statement.words (v : Version) (mark : Bool) : Statement → List Word
  | .operation o => o.headWord v mark :: o.operandWords v mark
  | .comment words => commentWord words :: words
  | .phase => [.ofFields [⟨0, 16, Opcode.phase.code⟩]]

def shaderWords (v : Version) (mark : Bool) (ss : List Statement) : List Word :=
  v.word :: (ss.flatMap (Statement.words v mark) ++ [0x0000FFFF])

/-! ### What the words stand for -/

def Operation.instruction (v : Version) (mark : Bool) (index position : Nat) (o : Operation) :
    Instruction where
  index := index
  position := position
  opcode := o.opcode
  control := o.control
  length := 1 + (o.operandWords v mark).length
  coissue := o.coissue
  result := (o.pieces.filterMap Piece.result?).getLastD .plain
  predicate := o.predicate
  operands := o.pieces.filterMap Piece.operand?
  declaration := (o.pieces.filterMap Piece.declared?).getLast?.map Declared.meaning
  comment := none

def Statement.instruction (v : Version) (mark : Bool) (index position : Nat) :
    Statement → Instruction
  | .operation o => o.instruction v mark index position
  | .comment words =>
    { Instruction.marker index position .comment with
      length := 1 + words.length
      comment := some words }
  | .phase => .marker index position .phase

/-- The instructions of a list of statements and the end marker, where the first of them has the
given number and position. -/
def shaderInstructions (v : Version) (mark : Bool) :
    (index position : Nat) → List Statement → List Instruction
  | index, position, [] => [.marker index position .stop]
  | index, position, s :: ss =>
    s.instruction v mark index position ::
      shaderInstructions v mark (index + 1) (position + (s.words v mark).length) ss

end Encoding

/-! ### Numbers and what they stand for -/

namespace RegisterFile

variable (file : RegisterFile)

theorem code_lt : file.code < 2 ^ 5 := by
  cases file <;> decide

theorem maxIndex_lt : file.maxIndex < 2 ^ 11 := by
  cases file <;> decide

theorem ofCode?_code {v : Version} {role : Role} {file : RegisterFile}
    (h : file.Expressible v role) : ofCode? file.code v role = some file := by
  cases file with
  | addr => exact congrArg some (if_pos h)
  | texture =>
    refine congrArg some (if_neg ?_)
    rintro (hrole | hstage)
    · exact absurd (hrole.symm.trans h.1) (by decide)
    · exact absurd (hstage.symm.trans h.2) (by decide)
  | output => exact congrArg some (if_pos h)
  | texCoordOut => exact congrArg some (if_neg h)
  | _ => rfl

end RegisterFile

theorem Component.index_lt (c : Component) : c.index < 4 := by
  cases c <;> decide

theorem Component.ofIndex_index (c : Component) (n : Nat) : ofIndex (c.index + 4 * n) = c := by
  rw [ofIndex, Nat.add_mul_mod_self_left]
  cases c <;> rfl

namespace Swizzle

theorem code_lt (s : Swizzle) : s.code < 2 ^ 8 := by
  have hx := s.x.index_lt
  have hy := s.y.index_lt
  have hz := s.z.index_lt
  have hw := s.w.index_lt
  rw [code]
  omega

theorem ofCode_code (s : Swizzle) : ofCode s.code = s := by
  have hx := s.x.index_lt
  have hy := s.y.index_lt
  have hz := s.z.index_lt
  have hcode : s.code = s.x.index + 4 * (s.y.index + 4 * s.z.index + 16 * s.w.index) := by
    rw [code]
    omega
  have h₁ : s.code / 4 = s.y.index + 4 * (s.z.index + 4 * s.w.index) := by omega
  have h₂ : s.code / 16 = s.z.index + 4 * s.w.index := by omega
  have h₃ : s.code / 64 = s.w.index + 4 * 0 := by omega
  rw [ofCode, h₁, h₂, h₃, hcode]
  simp only [Component.ofIndex_index]

end Swizzle

theorem SourceModifier.code_lt (m : SourceModifier) : m.code < 2 ^ 4 := by
  cases m <;> decide

theorem SourceModifier.ofCode?_code (m : SourceModifier) : ofCode? m.code = some m := by
  cases m <;> rfl

theorem ResultShift.code_lt (s : ResultShift) : s.code < 2 ^ 4 := by
  cases s <;> decide

theorem Stage.code_lt (stage : Stage) : stage.code < 2 ^ 16 := by
  cases stage <;> decide

theorem Encoding.TextureShape.code_lt (t : TextureShape) : t.code < 2 ^ 4 := by
  cases t <;> decide

theorem Usage.code_lt (u : Usage) : u.code < 2 ^ 5 := by
  cases u <;> decide

theorem Usage.ofCode?_code (u : Usage) : ofCode? u.code = some u := by
  cases u <;> rfl

theorem Opcode.code_lt {op : Opcode} (h : op ∈ all) : op.code < 2 ^ 16 := by
  revert op
  decide

theorem Opcode.ofCode_code {op : Opcode} (h : op ∈ all) : ofCode op.code = op := by
  revert op
  decide +kernel

end ShaderPipeline
