import ShaderPipeline.Proofs.Bytecode.Encoding

/-!
# Readers of operand words

A reader that takes the words written for a value gives the value back. Readers in a row take words
in a row, so the words of an operation are read part by part.
-/

namespace ShaderPipeline

open List

namespace OperandReader

open Parts

variable {α β : Type} {p q : List Word} {a : α} {b : β}

/-- The reader takes exactly the words `p`, whatever follows them, and gives `a`. -/
def Reads (r : OperandReader α) (p : List Word) (a : α) : Prop :=
  ∀ rest position, r.run ⟨p ++ rest, position⟩ = .ok (a, ⟨rest, position + p.length⟩)

theorem reads_pure (a : α) : Reads (pure a) [] a := fun _ _ => rfl

theorem reads_next (w : Word) : Reads next [w] w := fun _ _ => rfl

theorem reads_lift {x : Except DecodeError α} (h : x = .ok a) : Reads (liftM x) [] a := by
  subst h
  exact fun _ _ => rfl

theorem Reads.bind {r : OperandReader α} {f : α → OperandReader β} (hr : Reads r p a)
    (hf : Reads (f a) q b) : Reads (r >>= f) (p ++ q) b := by
  intro rest position
  rw [StateT.run_bind, append_assoc, hr, length_append, ← Nat.add_assoc]
  exact hf rest _

theorem Reads.first {r : OperandReader α} {f : α → OperandReader β} (hr : Reads r [] a)
    (hf : Reads (f a) q b) : Reads (r >>= f) q b :=
  hr.bind hf

theorem Reads.last {r : OperandReader α} {f : α → OperandReader β} (hr : Reads r p a)
    (hf : Reads (f a) [] b) : Reads (r >>= f) p b :=
  append_nil p ▸ hr.bind hf

/-- Where the words stand does not matter. -/
theorem reads_get {f : OperandStream → OperandReader β} (hf : ∀ s, Reads (f s) p b) :
    Reads (get >>= f) p b :=
  fun rest position => hf _ rest position

theorem reads_peek {w : Word} {f : Word → OperandReader β} (hf : Reads (f w) (w :: p) b) :
    Reads (peek >>= f) (w :: p) b :=
  fun rest position => hf rest position

/-! ### Registers -/

open Encoding BitField

variable {v : Version} {mark relative : Bool} {role : RegisterFile.Role} {file : RegisterFile}
  {index : Nat} {fields : List BitField}

/-- Fields that an operand may add to the word of its register. -/
structure Free (fields : List BitField) : Prop where
  wellPlaced : WellPlaced fields
  inside : ∀ f ∈ fields, 16 ≤ f.low ∧ f.low + f.width ≤ 28

theorem Free.wellPlaced_register (h : Free fields) (mark relative : Bool)
    (hindex : index ≤ file.maxIndex) :
    WellPlaced (fields ++ registerFields mark file index relative) where
  apart := by
    refine pairwise_append.mpr ⟨h.wellPlaced.apart, ?_, fun f hf g hg => ?_⟩
    · simp [registerFields, Apart]
    · have hinside := h.inside f hf
      simp only [registerFields, mem_cons, not_mem_nil, or_false] at hg
      rcases hg with rfl | rfl | rfl | rfl | rfl
      all_goals
        simp only [Apart]
        omega
  fits := by
    have hmax := file.maxIndex_lt
    have hcode := file.code_lt
    have hrelative := relative.toNat_lt
    have hmark := mark.toNat_lt
    intro f hf
    rcases mem_append.mp hf with hf | hf
    · exact h.wellPlaced.fits f hf
    · simp only [registerFields, mem_cons, not_mem_nil, or_false] at hf
      rcases hf with rfl | rfl | rfl | rfl | rfl
      all_goals
        simp only [Fits]
        omega

theorem registerOf_ofFields (h : Free fields) (hfile : file.Expressible v role)
    (hindex : index ≤ file.maxIndex) (position : Nat) :
    registerOf v (.ofFields (fields ++ registerFields mark file index relative)) position role =
      .ok ⟨file, index, none⟩ := by
  have hplaced := h.wellPlaced_register mark relative hindex
  have hnumber : field (.ofFields (fields ++ registerFields mark file index relative)) 0 11 =
      index := field_ofFields hplaced (by simp [registerFields])
  have hhigh : field (.ofFields (fields ++ registerFields mark file index relative)) 11 2 =
      file.code / 8 := field_ofFields hplaced (by simp [registerFields])
  have hlow : field (.ofFields (fields ++ registerFields mark file index relative)) 28 3 =
      file.code % 8 := field_ofFields hplaced (by simp [registerFields])
  have hcode : fileCode (.ofFields (fields ++ registerFields mark file index relative)) =
      file.code := by
    rw [fileCode, hhigh, hlow]
    omega
  rw [registerOf, hcode, RegisterFile.ofCode?_code hfile, hnumber]
  exact if_neg (Nat.not_lt.mpr hindex)

theorem free_swizzle (s : Swizzle) : Free [⟨16, 8, s.code⟩] where
  wellPlaced := .cons s.code_lt (by decide) (forall_mem_nil _) .nil
  inside := by simp

theorem reads_relativeAddress {a : RelativeAddress} (ha : a.WellFormed v) :
    Reads (relativeAddress v) (relativeWords v mark (some a)) a := by
  obtain ⟨file, index, component⟩ := a
  rw [relativeWords]
  by_cases hmajor : v.major < 2
  · rw [if_neg (Nat.not_le.mpr hmajor), ha.first hmajor, relativeAddress, if_pos hmajor]
    exact reads_pure _
  · rw [if_pos (Nat.not_lt.mp hmajor), relativeAddress, if_neg hmajor]
    have hfree := free_swizzle ⟨component, component, component, component⟩
    have hfile : file.Expressible v .index := by
      rcases ha.file with rfl | rfl
      · exact Or.inl rfl
      · trivial
    have hswizzle : field (relativeWord mark ⟨file, index, component⟩) 16 8 =
        (Swizzle.mk component component component component).code :=
      field_ofFields (hfree.wellPlaced_register mark false ha.index) (by simp)
    refine reads_get fun s => ?_
    refine (reads_next _).last ?_
    refine (reads_lift (registerOf_ofFields hfree hfile ha.index _)).last ?_
    rw [if_pos ha.file, hswizzle, Swizzle.ofCode_code]
    exact reads_pure _

theorem reads_register {r : RegisterRef} (hr : r.WellFormed v) (h : Free fields) :
    Reads (register v) (registerWords v mark r fields) (r, registerWord mark r fields) := by
  obtain ⟨file, index, relative⟩ := r
  have hflag : flag (registerWord mark ⟨file, index, relative⟩ fields) 13 = relative.isSome :=
    flag_ofFields (h.wellPlaced_register mark relative.isSome hr.index) (by simp [registerFields])
  refine reads_get fun s => ?_
  refine (reads_next _).bind (q := relativeWords v mark relative) ?_
  refine (reads_lift (registerOf_ofFields h hr.file hr.index _)).first ?_
  rw [hflag]
  cases relative with
  | none => exact reads_pure _
  | some a =>
    rw [if_pos Option.isSome_some]
    exact (reads_relativeAddress (hr.relative a rfl)).last (reads_pure _)

/-! ### Operands -/

theorem free_source (swizzle : Swizzle) (m : SourceModifier) : Free (sourceFields swizzle m) where
  wellPlaced :=
    .cons swizzle.code_lt (by decide) (by simp [Apart])
      (.cons m.code_lt (by decide) (forall_mem_nil _) .nil)
  inside := by simp [sourceFields]

theorem free_result {mask : WriteMask} (hmask : mask.bits < 2 ^ 4) (m : ResultModifier) :
    Free (resultFields mask m) where
  wellPlaced :=
    .cons hmask (by decide) (by simp [Apart])
      (.cons m.saturate.toNat_lt (by decide) (by simp [Apart])
        (.cons m.partialPrecision.toNat_lt (by decide) (by simp [Apart])
          (.cons m.centroid.toNat_lt (by decide) (by simp [Apart])
            (.cons m.shift.code_lt (by decide) (forall_mem_nil _) .nil))))
  inside := by simp [resultFields]

theorem reads_source {s : Source} (hs : s.reg.WellFormed v) :
    Reads (source v) (sourceWords v mark s) s := by
  have hfree := free_source s.swizzle s.modifier
  have hplaced := hfree.wellPlaced_register mark s.reg.relative.isSome hs.index
  have hswizzle : field (registerWord mark s.reg (sourceFields s.swizzle s.modifier)) 16 8 =
      s.swizzle.code := field_ofFields hplaced (by simp [sourceFields])
  have hmodifier : field (registerWord mark s.reg (sourceFields s.swizzle s.modifier)) 24 4 =
      s.modifier.code := field_ofFields hplaced (by simp [sourceFields])
  refine reads_get fun _ => (reads_register hs hfree).last ?_
  simp only [hmodifier, SourceModifier.ofCode?_code, hswizzle, Swizzle.ofCode_code]
  exact reads_pure _

theorem resultModifier_registerWord {r : RegisterRef} {mask : WriteMask} (m : ResultModifier)
    (hindex : r.index ≤ r.file.maxIndex) (hmask : mask.bits < 2 ^ 4) :
    resultModifier (registerWord mark r (resultFields mask m)) = m := by
  have hplaced :=
    (free_result hmask m).wellPlaced_register mark r.relative.isSome hindex
  have hshift : field (registerWord mark r (resultFields mask m)) 24 4 = m.shift.code :=
    field_ofFields hplaced (by simp [resultFields])
  have hsaturate : flag (registerWord mark r (resultFields mask m)) 20 = m.saturate :=
    flag_ofFields hplaced (by simp [resultFields])
  have hpartial : flag (registerWord mark r (resultFields mask m)) 21 = m.partialPrecision :=
    flag_ofFields hplaced (by simp [resultFields])
  have hcentroid : flag (registerWord mark r (resultFields mask m)) 22 = m.centroid :=
    flag_ofFields hplaced (by simp [resultFields])
  rw [resultModifier, hsaturate, hpartial, hcentroid, hshift]
  obtain ⟨saturate, partialPrecision, centroid, shift⟩ := m
  cases shift <;> rfl

theorem reads_destination {d : Destination} (hd : d.reg.WellFormed v) (hpos : 0 < d.mask.bits)
    (hmask : d.mask.bits < 2 ^ 4) (m : ResultModifier) :
    Reads (destination v) (destinationWords v mark d m) d := by
  have hfree := free_result hmask m
  have hplaced := hfree.wellPlaced_register mark d.reg.relative.isSome hd.index
  have hbits : field (registerWord mark d.reg (resultFields d.mask m)) 16 4 = d.mask.bits :=
    field_ofFields hplaced (by simp [resultFields])
  refine (reads_register hd hfree).last ?_
  simp only [hbits, if_neg (Nat.pos_iff_ne_zero.mp hpos)]
  exact reads_pure _

/-- What has been read after one more part. -/
def Parts.add (mark : Bool) (parts : Parts) : Piece → Parts
  | .dst d m => { parts with operands := parts.operands ++ [.dst d], result := m }
  | .src s => { parts with operands := parts.operands ++ [.src s] }
  | .imm w => { parts with operands := parts.operands ++ [.imm w] }
  | .decl d => { parts with declaration := some (d.word mark) }

theorem reads_operand {piece : Piece} (h : piece.WellFormed v) (parts : Parts) :
    Reads (operand v parts piece.kind) (piece.words v mark) (parts.add mark piece) := by
  cases piece with
  | dst d m =>
    obtain ⟨hreg, hpos, hmask⟩ := h
    refine reads_peek ?_
    refine (reads_destination hreg hpos hmask m).last ?_
    rw [resultModifier_registerWord m hreg.index hmask]
    exact reads_pure _
  | src s => exact (reads_source h).last (reads_pure _)
  | imm w => exact (reads_next w).last (reads_pure _)
  | decl d => exact (reads_next _).last (reads_pure _)

theorem reads_operands {pieces : List Piece} (h : ∀ piece ∈ pieces, piece.WellFormed v)
    (parts : Parts) :
    Reads (operands v parts (pieces.map Piece.kind)) (pieces.flatMap (Piece.words v mark))
      (pieces.foldl (add mark) parts) := by
  induction pieces generalizing parts with
  | nil => exact reads_pure _
  | cons piece pieces ih =>
    rw [forall_mem_cons] at h
    exact (reads_operand h.1 parts).bind (ih h.2 _)

theorem foldl_add (mark : Bool) (pieces : List Piece) (parts : Parts) :
    pieces.foldl (add mark) parts =
      ⟨parts.operands ++ pieces.filterMap Piece.operand?, parts.predicate,
        (pieces.filterMap Piece.result?).getLastD parts.result,
        ((pieces.filterMap Piece.declared?).getLast?.map (Declared.word mark)).or
          parts.declaration⟩ := by
  induction pieces generalizing parts with
  | nil => simp
  | cons piece pieces ih =>
    rw [foldl_cons, ih]
    cases piece with
    | dst d m =>
      simp only [add, filterMap_cons, Piece.operand?, Piece.result?, Piece.declared?,
        getLastD_cons, append_assoc, singleton_append]
    | decl d =>
      simp only [add, filterMap_cons, Piece.operand?, Piece.result?, Piece.declared?, getLast?_cons]
      cases (pieces.filterMap Piece.declared?).getLast? <;> rfl
    | _ =>
      simp only [add, filterMap_cons, Piece.operand?, Piece.result?, Piece.declared?,
        append_assoc, singleton_append]

def partsOf (mark : Bool) (o : Operation) : Parts where
  operands := o.pieces.filterMap Piece.operand?
  predicate := o.predicate
  result := (o.pieces.filterMap Piece.result?).getLastD .plain
  declaration := (o.pieces.filterMap Piece.declared?).getLast?.map (Declared.word mark)

theorem reads_predicate {s : Source} (hs : s.reg.WellFormed v) (parts : Parts) :
    Reads (predicate v parts) (sourceWords v mark s) { parts with predicate := some s } :=
  (reads_source hs).last (reads_pure _)

theorem operandWords_of_none {o : Operation} (h : o.predicate = none) :
    o.operandWords v mark = o.pieces.flatMap (Piece.words v mark) := by
  obtain ⟨opcode, control, coissue, predicate, pieces⟩ := o
  subst h
  cases pieces with
  | nil => rfl
  | cons piece pieces => cases piece <;> rfl

theorem partsOf_eq (mark : Bool) (o : Operation) :
    partsOf mark o = o.pieces.foldl (add mark) ⟨[], o.predicate, .plain, none⟩ := by
  rw [foldl_add, Option.or_none, nil_append]
  rfl

theorem reads_shape {o : Operation} (ho : o.WellFormed v) :
    Reads (shape v o.predicate.isSome (o.pieces.map Piece.kind)) (o.operandWords v mark)
      (partsOf mark o) := by
  rw [partsOf_eq]
  obtain ⟨opcode, control, coissue, predicate, pieces⟩ := o
  have hpieces := ho.pieces
  cases predicate with
  | none =>
    rw [operandWords_of_none rfl]
    exact reads_operands hpieces _
  | some s =>
    obtain ⟨-, -, hs⟩ := ho.predicate s rfl
    have hwords : Operation.predicateWords v mark ⟨opcode, control, coissue, some s, pieces⟩ =
        sourceWords v mark s := by simp [Operation.predicateWords]
    rw [Operation.operandWords, hwords]
    -- The predicate stands behind a leading destination, and what it adds does not depend on that.
    cases pieces with
    | nil => exact (reads_predicate hs _).bind (reads_operands hpieces _)
    | cons piece pieces =>
      cases piece with
      | dst d m =>
        rw [forall_mem_cons] at hpieces
        exact (reads_operand hpieces.1 _).bind
          ((reads_predicate hs _).bind (reads_operands hpieces.2 _))
      | _ => exact (reads_predicate hs _).bind (reads_operands hpieces _)

end OperandReader

end ShaderPipeline
