import Mathlib.Data.List.Basic
import Mathlib.Tactic.SplitIfs
import ShaderPipeline.Proofs.Bytecode.Encoding
import ShaderPipeline.Proofs.Outcomes

/-!
# Instructions that have been read

Whatever words a shader is read from, every register in its operands is one that its version can
name, with a number up to the largest of its file, and every destination writes something. The
operands of an instruction are those of its opcode's shape. In the first shader model every operand
is one word, so that there is no room for a predicate.
-/

namespace ShaderPipeline

open List Except OperandReader Option Declaration

def Operand.WellFormed (v : Version) : Operand → Prop
  | .dst d => d.reg.WellFormed v ∧ 0 < d.mask.bits ∧ d.mask.bits < 2 ^ 4
  | .src s => s.reg.WellFormed v
  | .imm _ => True

def Operand.kind : Operand → OperandKind
  | .dst _ => .dst
  | .src _ => .src
  | .imm _ => .imm

namespace Instruction

/-- An instruction with operands and a predicate that a version can express. -/
structure WellFormed (v : Version) (i : Instruction) : Prop where
  operands : ∀ o ∈ i.operands, o.WellFormed v
  predicate : ∀ s ∈ i.predicate, s.reg.file = .predicate ∧ s.reg.WellFormed v

/-- An instruction names a register in an operand, or as its predicate. -/
inductive Names (i : Instruction) : RegisterRef → Prop
  | dst {d : Destination} (h : .dst d ∈ i.operands) : Names i d.reg
  | src {s : Source} (h : .src s ∈ i.operands) : Names i s.reg
  | predicate {s : Source} (h : s ∈ i.predicate) : Names i s.reg

/-- What holds of an instruction that has been read, unless it is a comment or a marker. -/
structure Checked (v : Version) (i : Instruction) : Prop where
  opcode : ∀ n, i.opcode ≠ .unknown n
  /-- The operands are those of the shape, without the word in front of a declared register. Only
  in the first shader model the shape tells the length. -/
  shape : ∃ kinds, operandShape i.opcode v = some kinds ∧
    i.operands.map Operand.kind = kinds.filter (· ≠ .decl) ∧
    (v.major < 2 → i.length = 1 + kinds.length)
  length : 2 ≤ v.major → i.length ≤ 16
  index : ∀ r, i.Names r → r.index ≤ r.file.maxIndex
  relative : ∀ r, i.Names r → ∀ a ∈ r.relative,
    (a.file = .addr ∨ a.file = .loop) ∧ a.index = 0 ∧ (v.major < 2 → a = ⟨.addr, 0, .x⟩)
  mask : ∀ d, .dst d ∈ i.operands → 1 ≤ d.mask.bits ∧ d.mask.bits ≤ 15
  predicate : ∀ s ∈ i.predicate, s.reg.file = .predicate ∧ 2 ≤ v.major
  declares : i.declaration.isSome = true ↔ i.opcode = .dcl
  texture : ∀ x ∈ i.declaration, (∃ kind, x = .texture kind) ↔
    ∃ d, .dst d ∈ i.operands ∧ d.reg.file = .sampler
  usage : ∀ s, i.declaration = some (.usage s) → s.index ≤ 15

theorem wellFormed_marker (v : Version) (index position : Nat) (op : Opcode) :
    (marker index position op).WellFormed v where
  operands := forall_mem_nil _
  predicate := by simp [marker]

theorem WellFormed.register {v : Version} {i : Instruction} (h : i.WellFormed v) {r : RegisterRef}
    (hr : i.Names r) : r.WellFormed v := by
  cases hr with
  | dst hd => exact (h.operands _ hd).1
  | src hs => exact h.operands _ hs
  | predicate hs => exact (h.predicate _ hs).2

end Instruction

theorem RegisterFile.expressible_of_ofCode? {n : Nat} {v : Version} {role : Role}
    {file : RegisterFile} (h : ofCode? n v role = some file) : file.Expressible v role := by
  unfold ofCode? at h
  split at h
  case h_4 =>
    obtain rfl := some.inj h
    split_ifs with hrole
    · exact hrole
    · obtain ⟨hindex, hstage⟩ := not_or.mp hrole
      refine ⟨?_, ?_⟩
      · cases role with
        | operand => rfl
        | index => exact absurd rfl hindex
      · cases hs : v.stage with
        | vertex => exact absurd hs hstage
        | pixel => rfl
  case h_7 =>
    obtain rfl := some.inj h
    split_ifs with hthird
    · exact hthird
    · exact hthird
  case h_17 => simp at h
  all_goals
    obtain rfl := some.inj h
    trivial

namespace OperandReader

variable {α β : Type} {P : α → Prop} {Q : β → Prop} {v : Version} {n m : Nat}

/-- Every value that the reader gives has a property. In the first shader model the reader takes
`n` words for it. -/
def Gives (v : Version) (n : Nat) (P : α → Prop) (r : OperandReader α) : Prop :=
  ∀ s a s', r.run s = .ok (a, s') →
    P a ∧ (v.major < 2 → s.words.length = s'.words.length + n)

theorem gives_pure {a : α} (h : P a) : Gives v 0 P (pure a) := by
  intro s b s' hrun
  obtain ⟨rfl, rfl⟩ := run_pure_eq_ok.mp hrun
  exact ⟨h, fun _ => rfl⟩

theorem gives_fail (position : Nat) (fault : DecodeFault) : Gives v n P (fail position fault) :=
  nofun

theorem gives_get : Gives v 0 (fun _ => True) get := by
  intro s a s' hrun
  cases hrun
  exact ⟨trivial, fun _ => rfl⟩

theorem gives_peek : Gives v 0 (fun _ => True) peek := by
  rintro ⟨words, position⟩ a s' hrun
  cases words with
  | nil => exact nomatch hrun
  | cons w words =>
    cases hrun
    exact ⟨trivial, fun _ => rfl⟩

theorem gives_next : Gives v 1 (fun _ => True) next := by
  rintro ⟨words, position⟩ a s' hrun
  cases words with
  | nil => exact nomatch hrun
  | cons w words =>
    cases hrun
    exact ⟨trivial, fun _ => rfl⟩

theorem gives_lift {x : Except DecodeError α} (h : ∀ a, x = .ok a → P a) :
    Gives v 0 P (liftM x : OperandReader α) := by
  intro s a s' hrun
  obtain ⟨hx, rfl⟩ := run_liftM_eq_ok.mp hrun
  exact ⟨h a hx, fun _ => rfl⟩

theorem Gives.bind {r : OperandReader α} {f : α → OperandReader β} (hr : Gives v n P r)
    (hf : ∀ a, P a → Gives v m Q (f a)) : Gives v (m + n) Q (r >>= f) := by
  intro s b s' hrun
  obtain ⟨a, t, ha, hb⟩ := run_bind_eq_ok.mp hrun
  obtain ⟨hP, hfirst⟩ := hr s a t ha
  obtain ⟨hQ, hrest⟩ := hf a hP t b s' hb
  refine ⟨hQ, fun hmajor => ?_⟩
  omega

/-- From the second shader model on words are not counted. -/
theorem Gives.later {r : OperandReader α} (hmajor : ¬v.major < 2) (hr : Gives v n P r) :
    Gives v m P r :=
  fun s a s' hrun => ⟨(hr s a s' hrun).1, fun hfirst => absurd hfirst hmajor⟩

/-! ### Operands -/

theorem registerOf_eq_ok {w : Word} {position : Nat} {role : RegisterFile.Role} {r : RegisterRef}
    (h : registerOf v w position role = .ok r) :
    r.file.Expressible v role ∧ r.index ≤ r.file.maxIndex ∧ r.relative = none := by
  unfold registerOf at h
  split at h
  · cases h
  · next file hfile =>
    split_ifs at h with hindex
    obtain rfl := ok.inj h
    exact ⟨RegisterFile.expressible_of_ofCode? hfile, Nat.not_lt.mp hindex, rfl⟩

theorem gives_registerOf (w : Word) (position : Nat) (role : RegisterFile.Role) :
    Gives v 0 (fun r => r.file.Expressible v role ∧ r.index ≤ r.file.maxIndex ∧ r.relative = none)
      (liftM (registerOf v w position role)) :=
  gives_lift fun _ => registerOf_eq_ok

theorem gives_relativeAddress (v : Version) :
    Gives v 0 (RelativeAddress.WellFormed v) (relativeAddress v) := by
  unfold relativeAddress
  split_ifs with hfirst
  · exact gives_pure ⟨Or.inl rfl, Nat.le_refl _, fun _ => rfl⟩
  · refine .later hfirst (gives_get.bind fun position _ => gives_next.bind fun w _ =>
      (gives_registerOf w _ _).bind (m := 0) fun r hr => ?_)
    split_ifs with hfile
    · exact gives_pure ⟨hfile, hr.2.1, fun h => absurd h hfirst⟩
    · exact gives_fail _ _

theorem gives_register (v : Version) : Gives v 1 (fun x => x.1.WellFormed v) (register v) := by
  refine gives_get.bind (m := 1) fun position _ => gives_next.bind (m := 0) fun w _ =>
    (gives_registerOf w _ _).bind (m := 0) fun r hr => ?_
  split_ifs
  · refine (gives_relativeAddress v).bind (m := 0) fun a ha => gives_pure ⟨hr.1, hr.2.1, ?_⟩
    intro b hb
    obtain rfl := some.inj hb
    exact ha
  · refine gives_pure ⟨hr.1, hr.2.1, ?_⟩
    rw [hr.2.2]
    simp

theorem gives_destination (v : Version) :
    Gives v 1 (fun d => Operand.WellFormed v (.dst d)) (destination v) := by
  refine (gives_register v).bind (m := 0) fun ⟨r, w⟩ hr => gives_pure ⟨hr, ?_⟩
  dsimp only
  split_ifs with hmask
  · exact ⟨by decide, by decide⟩
  · exact ⟨Nat.pos_of_ne_zero hmask, Nat.mod_lt _ (by decide)⟩

theorem gives_source (v : Version) : Gives v 1 (fun s => s.reg.WellFormed v) (source v) := by
  refine gives_get.bind (m := 1) fun position _ =>
    (gives_register v).bind (m := 0) fun ⟨r, w⟩ hr => ?_
  dsimp only
  split
  · exact gives_fail _ _
  · exact gives_pure hr

/-- What has been read of an instruction, once operands of given kinds and the predicate, if there
is to be one, have been read. -/
structure Parts.Hold (v : Version) (predicated : Bool) (kinds : List OperandKind) (parts : Parts) :
    Prop where
  operands : ∀ o ∈ parts.operands, o.WellFormed v
  shaped : parts.operands.map Operand.kind = kinds.filter (· ≠ .decl)
  declaration : parts.declaration.isSome = true ↔ .decl ∈ kinds
  predicated : parts.predicate.isSome = predicated
  predicate : ∀ s ∈ parts.predicate, s.reg.WellFormed v

def Parts.Declares (parts : Parts) : Option Declaration → Prop
  | none => parts.declaration = none
  | some x => ∃ w, parts.declaration = some w ∧ Declaration.ofWord w parts.operands = .ok x

section Parts

variable {predicated : Bool} {parts : Parts} {kinds : List OperandKind}

theorem Parts.Hold.concat (h : parts.Hold v predicated kinds) {o : Operand} (ho : o.WellFormed v)
    (result : ResultModifier) :
    Parts.Hold v predicated (kinds ++ [o.kind])
      { parts with operands := parts.operands ++ [o], result } where
  operands o' ho' := by
    rcases mem_append.mp ho' with ho' | ho'
    · exact h.operands o' ho'
    · obtain rfl := mem_singleton.mp ho'
      exact ho
  shaped := by
    rw [map_append, h.shaped, filter_append]
    cases o <;> rfl
  declaration := by
    rw [h.declaration]
    cases o <;> simp [Operand.kind]
  predicated := h.predicated
  predicate := h.predicate

theorem gives_operand (h : parts.Hold v predicated kinds) (kind : OperandKind) :
    Gives v 1 (Parts.Hold v predicated (kinds ++ [kind])) (operand v parts kind) := by
  cases kind with
  | dst =>
    exact gives_peek.bind (m := 1) fun w _ => (gives_destination v).bind (m := 0) fun d hd =>
      gives_pure (h.concat hd _)
  | src =>
    exact (gives_source v).bind (m := 0) fun s hs => gives_pure (h.concat (o := .src s) hs _)
  | imm =>
    exact gives_next.bind (m := 0) fun w _ => gives_pure (h.concat (o := .imm w) trivial _)
  | decl =>
    refine gives_next.bind (m := 0) fun w _ => gives_pure ⟨h.operands, ?_, by simp, h.predicated,
      h.predicate⟩
    rw [h.shaped, filter_append]
    exact (append_nil _).symm

theorem gives_operands (h : parts.Hold v predicated kinds) (rest : List OperandKind) :
    Gives v rest.length (Parts.Hold v predicated (kinds ++ rest)) (operands v parts rest) := by
  induction rest generalizing parts kinds with
  | nil =>
    rw [append_nil]
    exact gives_pure h
  | cons kind rest ih =>
    rw [append_cons]
    exact (gives_operand h kind).bind fun parts hparts => ih hparts

theorem gives_predicate (h : parts.Hold v false kinds) :
    Gives v 1 (Parts.Hold v true kinds) (predicate v parts) :=
  (gives_source v).bind (m := 0) fun s hs =>
    gives_pure ⟨h.operands, h.shaped, h.declaration, rfl, fun s' hs' => by
      obtain rfl := some.inj hs'
      exact hs⟩

theorem gives_shape (v : Version) (predicated : Bool) (kinds : List OperandKind) :
    Gives v (kinds.length + predicated.toNat) (Parts.Hold v predicated kinds)
      (shape v predicated kinds) := by
  have hblank : Parts.Hold v false [] ⟨[], none, .plain, none⟩ :=
    ⟨by simp, rfl, by simp, rfl, by simp⟩
  cases predicated with
  | false => exact gives_operands hblank kinds
  | true =>
    unfold shape
    rw [if_neg (by simp)]
    split
    · exact (gives_operand hblank .dst).bind fun parts hparts => (gives_predicate hparts).bind
        fun parts hparts => gives_operands hparts _
    · exact (gives_predicate hblank).bind fun parts hparts => gives_operands hparts _

end Parts

end OperandReader

/-! ### One instruction -/

def operandShapes : List (List OperandKind) :=
  [[], [.dst], [.src], [.dst, .src], [.src, .src], [.dst, .src, .src], [.dst, .src, .src, .src],
    [.dst, .src, .src, .src, .src], [.dst, .imm], [.dst, .imm, .imm, .imm, .imm], [.decl, .dst]]

/-- Only the shape of a declaration has a word in front of a register. -/
theorem operandShape_mem {op : Opcode} {v : Version} {kinds : List OperandKind}
    (h : operandShape op v = some kinds) :
    kinds ∈ operandShapes ∧ (.decl ∈ kinds ↔ op = .dcl) := by
  have hite : ∀ {c : Prop} [Decidable c] {P : List OperandKind → Prop} {x y : Option _},
      (∀ ks ∈ x, P ks) → (∀ ks ∈ y, P ks) → ∀ ks ∈ (if c then x else y), P ks := by
    intro c _ P x y hx hy
    split_ifs
    · exact hx
    · exact hy
  suffices hall : ∀ ks ∈ operandShape op v, ks ∈ operandShapes ∧ (.decl ∈ ks ↔ op = .dcl) from
    hall kinds h
  cases op with
  | dsx | dsy | sinCos | texKill | texDepth | texBem | texBemL | texReg2Ar | texReg2Gb | texM3x2Pad
  | texM3x2Tex | texM3x3Pad | texM3x3Tex | texM3x3VSpec | texReg2Rgb | texDp3Tex | texM3x2Depth
  | texDp3 | texM3x3 | texM3x3Spec | bem | texLdd | texLdl =>
    exact hite (by decide) (by decide)
  | texCoord => exact hite (by decide) (hite (by decide) (by decide))
  | tex => exact hite (by decide) (hite (by decide) (hite (by decide) (by decide)))
  | unknown n => nofun
  | _ =>
    simp only [operandShape]
    decide

namespace Instruction

variable {v : Version} {index position : Nat} {head : Word} {tail : List Word} {i : Instruction}
  {op : Opcode} {kinds : List OperandKind} {words : List Word}

theorem operandWords_eq_ok (h : operandWords v position head tail kinds = .ok words) :
    words = tail.take words.length ∧
      words.length = if 2 ≤ v.major then field head 24 4 else kinds.length := by
  unfold operandWords at h
  dsimp only at h
  split_ifs at h ⊢ with hmajor hshort hshort
  all_goals
    obtain rfl := ok.inj h
    rw [length_take] at hshort ⊢
    refine ⟨?_, by omega⟩
    congr 1
    omega

theorem exists_of_ofOperands (h : ofOperands v index position op head tail = .ok i) :
    ∃ kinds words parts s, operandShape op v = some kinds ∧
      operandWords v position head tail kinds = .ok words ∧
      (shape v (flag head 28) kinds).run ⟨words, position + 1⟩ = .ok (parts, s) ∧
      s.words = [] ∧ (∀ p ∈ parts.predicate, p.reg.file = .predicate) ∧
      ∃ declaration, parts.Declares declaration ∧ i = {
        index, position
        opcode := op
        control := field head 16 8
        length := 1 + words.length
        coissue := flag head 30
        result := parts.result
        predicate := parts.predicate
        operands := parts.operands
        declaration
        comment := none } := by
  unfold ofOperands at h
  split at h
  · cases h
  · next kinds hkinds =>
    obtain ⟨words, hwords, h⟩ := bind_eq_ok.mp h
    obtain ⟨⟨parts, s⟩, hparts, h⟩ := bind_eq_ok.mp h
    dsimp only at h
    have hpredicate : ∀ p ∈ parts.predicate, p.reg.file = .predicate := by
      intro p hp
      rw [hp] at h
      dsimp only at h
      by_contra hfile
      rw [if_pos hfile] at h
      cases h
    refine ⟨kinds, words, parts, s, hkinds, hwords, hparts, ?_⟩
    split at h
    on_goal 1 => rw [if_neg (not_not.mpr (hpredicate _ ‹_›))] at h
    all_goals
      split_ifs at h with hrest
      · cases h
      · refine ⟨not_not.mp hrest, hpredicate, ?_⟩
        split at h
        · next hnone => exact ⟨none, hnone, (ok.inj h).symm⟩
        · next w hw =>
          split at h
          · next x hx => exact ⟨some x, ⟨w, hw, hx⟩, (ok.inj h).symm⟩
          · cases h

theorem ofWord_eq_ok {w : Word} {d : Destination} {x : Declaration}
    (h : ofWord w [.dst d] = .ok x) :
    ((∃ kind, x = .texture kind) ↔ d.reg.file = .sampler) ∧ ∀ s, x = .usage s → s.index ≤ 15 := by
  simp only [ofWord, head?_cons, beq_iff_eq] at h
  split_ifs at h with hfile
  · have htexture : ∃ kind, x = .texture kind := by
      split at h
      case h_5 => cases h
      all_goals exact ⟨_, (ok.inj h).symm⟩
    refine ⟨iff_of_true htexture hfile, ?_⟩
    rintro s rfl
    exact nomatch htexture
  · split at h
    · obtain rfl := ok.inj h
      refine ⟨iff_of_false nofun hfile, ?_⟩
      rintro s hs
      obtain rfl := usage.inj hs
      exact Nat.le_of_lt_succ (Nat.mod_lt _ (by decide))
    · cases h

theorem wellFormed_of_ofOperands (h : ofOperands v index position op head tail = .ok i) :
    i.WellFormed v := by
  obtain ⟨kinds, words, parts, s, -, -, hparts, -, hpredicate, declaration, -, rfl⟩ :=
    exists_of_ofOperands h
  have hhold := (gives_shape v _ _ _ _ _ hparts).1
  exact ⟨hhold.operands, fun s hs => ⟨hpredicate s hs, hhold.predicate s hs⟩⟩

/-- In the first shader model all words of an instruction are taken by its operands. -/
theorem predicate_eq_none (hmajor : v.major < 2) {parts : OperandReader.Parts}
    {s : OperandStream} (hwords : operandWords v position head tail kinds = .ok words)
    (hparts : (shape v (flag head 28) kinds).run ⟨words, position + 1⟩ =
      .ok (parts, s)) : parts.predicate = none := by
  obtain ⟨hhold, hcount⟩ := gives_shape v _ _ _ _ _ hparts
  have hlength := (operandWords_eq_ok hwords).2
  rw [if_neg (by omega)] at hlength
  have hpredicated := hhold.predicated
  cases hflag : flag head 28 with
  | true =>
    rw [hflag, Bool.toNat_true] at hcount
    dsimp only at hcount
    omega
  | false =>
    rw [hflag] at hpredicated
    exact isSome_eq_false_iff.mp hpredicated |> isNone_iff_eq_none.mp

theorem checked_of_ofOperands (h : ofOperands v index position op head tail = .ok i) :
    i.Checked v := by
  have hwell := wellFormed_of_ofOperands h
  obtain ⟨kinds, words, parts, s, hkinds, hwords, hparts, -, hpredicate, declaration, hdecl, rfl⟩ :=
    exists_of_ofOperands h
  obtain ⟨hhold, -⟩ := gives_shape v _ _ _ _ _ hparts
  have hlength := (operandWords_eq_ok hwords).2
  have hdeclares : declaration.isSome = true ↔ op = .dcl := by
    rw [← (operandShape_mem hkinds).2, ← hhold.declaration]
    cases declaration with
    | none =>
      rw [hdecl]
      exact Iff.rfl
    | some x =>
      obtain ⟨w, hw, -⟩ := hdecl
      rw [hw]
      rfl
  -- A declaration has one operand, the register it declares.
  have hdeclared : ∀ x ∈ declaration, ∃ w d, parts.operands = [.dst d] ∧
      ofWord w [.dst d] = .ok x := by
    rintro x rfl
    obtain ⟨w, -, hofWord⟩ := hdecl
    obtain rfl := hdeclares.mp rfl
    obtain rfl := some.inj hkinds
    obtain ⟨o, hoperands, ho⟩ := map_eq_singleton_iff.mp hhold.shaped
    cases o with
    | dst d => exact ⟨w, d, hoperands, hoperands ▸ hofWord⟩
    | src | imm => exact nomatch ho
  exact {
    opcode := by
      rintro n rfl
      exact nomatch hkinds
    shape := by
      refine ⟨kinds, hkinds, hhold.shaped, fun hmajor => ?_⟩
      rw [if_neg (by omega)] at hlength
      exact congrArg (1 + ·) hlength
    length := by
      intro hmajor
      have hfield : field head 24 4 < 16 := Nat.mod_lt _ (by decide)
      rw [if_pos hmajor] at hlength
      dsimp only
      omega
    index := fun r hr => (hwell.register hr).index
    relative := by
      intro r hr a ha
      have hrelative := (hwell.register hr).relative a ha
      refine ⟨hrelative.file, ?_, hrelative.first⟩
      have hindex := hrelative.index
      rcases hrelative.file with hfile | hfile <;> rw [hfile] at hindex <;>
        exact Nat.le_zero.mp hindex
    mask := by
      intro d hd
      obtain ⟨-, hpos, hlt⟩ := hwell.operands _ hd
      exact ⟨hpos, Nat.le_of_lt_succ hlt⟩
    predicate := by
      intro p hp
      refine ⟨hpredicate p hp, Nat.le_of_not_lt fun hmajor => ?_⟩
      exact nomatch (predicate_eq_none hmajor hwords hparts).symm.trans hp
    declares := hdeclares
    texture := by
      intro x hx
      obtain ⟨w, d, hoperands, hofWord⟩ := hdeclared x hx
      rw [(ofWord_eq_ok hofWord).1, hoperands]
      simp
    usage := by
      intro s hs
      obtain ⟨w, d, -, hofWord⟩ := hdeclared _ hs
      exact (ofWord_eq_ok hofWord).2 s rfl }

theorem ofTokens_cases (h : ofTokens v index position head tail = .ok i) :
    ofComment index position head tail = .ok i ∨ i = marker index position .stop ∨
      i = marker index position .phase ∨
      ∃ op, ofOperands v index position op head tail = .ok i := by
  unfold ofTokens at h
  split at h
  · exact Or.inl h
  · exact Or.inr (Or.inl (ok.inj h).symm)
  · exact Or.inr (Or.inr (Or.inl (ok.inj h).symm))
  · exact Or.inr (Or.inr (Or.inr ⟨_, h⟩))

/-- A comment takes as many words as its first word counts. -/
theorem ofComment_eq_ok (h : ofComment index position head tail = .ok i) :
    field head 16 15 ≤ tail.length ∧
      i = { marker index position .comment with
        length := 1 + field head 16 15
        comment := some (tail.take (field head 16 15)) } := by
  unfold ofComment at h
  dsimp only at h
  split_ifs at h with hshort
  rw [length_take] at hshort
  exact ⟨by omega, (ok.inj h).symm⟩

theorem length_pos_of_ofTokens (h : ofTokens v index position head tail = .ok i) :
    1 ≤ i.length := by
  rcases ofTokens_cases h with h | rfl | rfl | ⟨op, h⟩
  · rw [(ofComment_eq_ok h).2]
    exact Nat.le_add_right 1 _
  · exact Nat.le_refl 1
  · exact Nat.le_refl 1
  · obtain ⟨_, _, _, _, -, -, -, -, -, _, -, rfl⟩ := exists_of_ofOperands h
    exact Nat.le_add_right 1 _

theorem wellFormed_of_ofTokens (h : ofTokens v index position head tail = .ok i) :
    i.WellFormed v := by
  rcases ofTokens_cases h with h | rfl | rfl | ⟨op, h⟩
  · rw [(ofComment_eq_ok h).2]
    exact ⟨forall_mem_nil _, by simp [marker]⟩
  · exact wellFormed_marker _ _ _ _
  · exact wellFormed_marker _ _ _ _
  · exact wellFormed_of_ofOperands h

end Instruction

/-! ### Whole shaders -/

namespace Shader

/-- The instructions that stand in a stream from a position on, up to an end marker. The first of
them has the number `index`. -/
inductive Stream (v : Version) (tokens : List Word) :
    (index position : Nat) → List Instruction → Prop
  | stop {index position : Nat} {head : Word} {tail : List Word} {i : Instruction}
      (words : tokens.drop position = head :: tail)
      (read : Instruction.ofTokens v index position head tail = .ok i) (stops : i.opcode = .stop) :
      Stream v tokens index position [i]
  | step {index position : Nat} {head : Word} {tail : List Word} {i : Instruction}
      {is : List Instruction} (words : tokens.drop position = head :: tail)
      (read : Instruction.ofTokens v index position head tail = .ok i) (goes : i.opcode ≠ .stop)
      (rest : Stream v tokens (index + 1) (position + i.length) is) :
      Stream v tokens index position (i :: is)

variable {v : Version} {tokens : List Word} {index position : Nat} {is : List Instruction}

theorem Stream.forall {P : Instruction → Prop} (h : Stream v tokens index position is)
    (hP : ∀ {index position head tail i},
      Instruction.ofTokens v index position head tail = .ok i → P i) : ∀ i ∈ is, P i := by
  induction h with
  | stop words read stops => simpa using hP read
  | step words read goes rest ih => exact forall_mem_cons.mpr ⟨hP read, ih⟩

theorem stream_of_readInstructions {skip : Nat} {done : List Instruction} {words : List Word}
    (hwords : tokens.drop position = words)
    (h : readInstructions v skip position index done words = .ok is) :
    ∃ js, is = done.reverse ++ js ∧ Stream v tokens index (position + skip) js := by
  have htail {position : Nat} {w : Word} {tail : List Word}
      (hwords : tokens.drop position = w :: tail) : tokens.drop (position + 1) = tail := by
    rw [← tail_drop, hwords, tail_cons]
  fun_induction readInstructions v skip position index done words with
  | case1 => cases h
  | case2 skip position index done w tail ih =>
    obtain ⟨js, his, hstream⟩ := ih (htail hwords) h
    exact ⟨js, his, Nat.add_right_comm position 1 skip ▸ hstream⟩
  | case3 position index done head tail ih =>
    obtain ⟨i, hi, h⟩ := bind_eq_ok.mp h
    split_ifs at h with hstop
    · obtain rfl := ok.inj h
      exact ⟨[i], reverse_cons, .stop hwords hi hstop⟩
    · obtain ⟨js, his, hstream⟩ := ih i (htail hwords) h
      have hlength : position + 1 + (i.length - 1) = position + i.length := by
        have := Instruction.length_pos_of_ofTokens hi
        omega
      rw [hlength] at hstream
      rw [reverse_cons, append_assoc] at his
      exact ⟨i :: js, his, .step hwords hi hstop hstream⟩

theorem stream_of_ofTokens {s : Shader} (h : ofTokens tokens = .ok s) :
    tokens.length ≤ DecodeFault.maxTokens ∧ Stream s.version tokens 0 1 s.instructions := by
  unfold ofTokens at h
  split_ifs at h with hlong
  refine ⟨Nat.not_lt.mp hlong, ?_⟩
  split at h
  · cases h
  · next head tail =>
    split at h
    · cases h
    · split_ifs at h
      obtain ⟨is, his, h⟩ := bind_eq_ok.mp h
      obtain rfl := ok.inj h
      have hwords : (head :: tail).drop 1 = tail := rfl
      obtain ⟨js, rfl, hstream⟩ := stream_of_readInstructions hwords his
      exact hstream

theorem wellFormed_of_ofBytes {bytes : Bytes} {s : Shader} (h : ofBytes bytes = .ok s) :
    ∀ i ∈ s.instructions, i.WellFormed s.version := by
  unfold ofBytes at h
  split_ifs at h
  exact (stream_of_ofTokens h).2.forall Instruction.wellFormed_of_ofTokens

/-- Every instruction of a shader that has been read is as the rest of the pipeline needs it, unless
it is a comment or a marker. -/
theorem checked_of_ofTokens {s : Shader} (h : ofTokens tokens = .ok s) :
    ∀ i ∈ s.instructions, i.opcode ≠ .comment → i.opcode ≠ .stop → i.opcode ≠ .phase →
      i.Checked s.version := by
  refine (stream_of_ofTokens h).2.forall fun hi hcomment hstop hphase => ?_
  rcases Instruction.ofTokens_cases hi with hi | rfl | rfl | ⟨op, hi⟩
  · rw [(Instruction.ofComment_eq_ok hi).2] at hcomment
    exact absurd rfl hcomment
  · exact absurd rfl hstop
  · exact absurd rfl hphase
  · exact Instruction.checked_of_ofOperands hi

/-- A predicated sum. -/
theorem checked_of_ofTokens_predicated : ∃ s, ofTokens [0xFFFE0201, 0x14000002, 0x80170003,
      0xBDE41000, 0xB0550000, 0x90E40002, 0x0000FFFF] = .ok s ∧
    ∃ i ∈ s.instructions, i.predicate.isSome = true ∧ i.Checked s.version := by
  refine ⟨_, rfl, _, .head _, rfl, ?_⟩
  exact @checked_of_ofTokens [0xFFFE0201, 0x14000002, 0x80170003, 0xBDE41000, 0xB0550000,
    0x90E40002, 0x0000FFFF] _ rfl _ (.head _) (by decide) (by decide) (by decide)

end Shader

end ShaderPipeline
