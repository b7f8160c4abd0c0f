import ShaderPipeline.Glsl.Program
import ShaderPipeline.Proofs.Text.Literals

/-!
# Texts without braces

Names and expressions of the shading language are spelled without braces, so the braces of a shader
are those of its blocks and functions.
-/

namespace ShaderPipeline.Glsl

open String List Expr

/-- A text without braces. -/
def Plain (t : String) : Prop := t.toList.all (fun c => c != '\x7b' && c != '\x7d') = true

instance (t : String) : Decidable (Plain t) := inferInstanceAs (Decidable (_ = true))

@[simp] theorem plain_append {a b : String} : Plain (a ++ b) ↔ Plain a ∧ Plain b := by
  simp only [Plain, toList_append, all_append, Bool.and_eq_true]

@[simp] theorem plain_toString {t : String} : Plain (toString t) ↔ Plain t := Iff.rfl

theorem plain_ofList {cs : List Char} (h : ∀ c ∈ cs, c.isDigit ∨ c = '.') :
    Plain (ofList cs) := by
  rw [Plain, toList_ofList, all_eq_true]
  intro c hc
  rcases h c hc with hdigit | rfl
  · rw [Bool.and_eq_true, bne_iff_ne, bne_iff_ne]
    exact ⟨fun h => absurd (h ▸ hdigit) (by decide), fun h => absurd (h ▸ hdigit) (by decide)⟩
  · rfl

@[simp] theorem plain_repr (n : Nat) : Plain n.repr := by
  rw [← Nat.toString_eq_repr, Nat.toString_eq_ofList_toDigits]
  exact plain_ofList fun c hc => Or.inl (isDigit_of_mem_toDigits hc)

@[simp] theorem plain_intercalate {ts : List String} (h : ∀ t ∈ ts, Plain t) :
    Plain (", ".intercalate ts) := by
  induction ts with
  | nil => decide
  | cons t ts ih =>
    cases ts with
    | nil => simpa using h
    | cons u us =>
      rw [String.intercalate_cons_cons]
      simp +decide only [plain_append]
      exact ⟨⟨h t mem_cons_self, trivial⟩, ih (forall_mem_cons.mp h).2⟩

/-- Digits with a point, as decimals are written. -/
theorem plain_decimal (whole : Nat) {ds : List Char} (hds : ∀ c ∈ ds, c.isDigit) :
    Plain (ofList (Nat.toDigits 10 whole ++ '.' ::
      if (dropTrailingZeros ds).isEmpty then ['0'] else dropTrailingZeros ds)) := by
  have hshown := (shownDigits hds rfl).2.1
  refine plain_ofList fun c hc => ?_
  rcases mem_append.mp hc with hc | hc
  · exact Or.inl (isDigit_of_mem_toDigits hc)
  · exact (mem_cons.mp hc).symm.imp_left (hshown c)

@[simp] theorem plain_thousandthsText (n : Nat) : Plain (thousandthsText n) :=
  plain_decimal _ fun _ => isDigit_of_mem_paddedDigits

@[simp] theorem plain_floatLiteral (x : Binary32) : Plain (floatLiteral x) := by
  unfold floatLiteral
  split_ifs
  · decide
  · decide
  · decide
  · refine plain_append.mpr ⟨?_, plain_decimal _ fun _ => isDigit_of_mem_paddedDigits⟩
    unfold Binary32.signText
    split_ifs <;> decide

@[simp] theorem plain_tag (stage : Stage) : Plain stage.tag := by
  cases stage <;> decide

@[simp] theorem plain_varyingName (s : Semantic) : Plain s.varyingName := by
  have hword : ∀ u : Usage, Plain u.word := by rintro ⟨⟩ <;> decide
  simp +decide [Semantic.varyingName, hword]

@[simp] theorem plain_uniformName (stage : Stage) (u : Uniform) : Plain (u.name stage) := by
  have hletter : ∀ kind, Plain (Uniform.letter kind) := by rintro ⟨⟩ <;> decide
  unfold Uniform.name
  split_ifs <;> simp +decide [hletter]

@[simp] theorem plain_letter (c : Component) : Plain (toString c.letter) := by
  cases c <;> decide

@[simp] theorem plain_letters (cs : List Component) :
    Plain (ofList (cs.map Component.letter)) := by
  rw [Plain, toList_ofList, all_map, all_eq_true]
  rintro ⟨⟩ - <;> rfl

/-! ### Expressions -/

mutual

/-- An expression whose names have no braces. -/
@[simp] def Expr.Plain : Expr → Prop
  | .number _ => True
  | .register _ t | .name t => Glsl.Plain t
  | .select e _ | .paren e | .neg e | .not e => e.Plain
  | .binary _ a b => a.Plain ∧ b.Plain
  | .call f args => Glsl.Plain f.word ∧ Expr.AllPlain args

@[simp] def Expr.AllPlain : List Expr → Prop
  | [] => True
  | e :: es => e.Plain ∧ Expr.AllPlain es

end

attribute [local simp] Expr.zero Expr.half Expr.one Expr.two Expr.splat Expr.product Expr.pick
  x xy xyz w

mutual

/-- Such an expression is spelled without braces. -/
theorem Expr.Plain.text : (e : Expr) → e.Plain → Glsl.Plain e.text
  | .number n, _ => plain_thousandthsText n
  | .register _ _, h | .name _, h => h
  | .select e cs, h => by simpa +decide [text] using Expr.Plain.text e h
  | .paren e, h | .neg e, h | .not e, h => by simpa +decide [text] using Expr.Plain.text e h
  | .binary op a b, h => by
    have hop : Glsl.Plain op.sign := by rcases op with _ | _ | _ | _ | ⟨⟨⟩⟩ <;> rfl
    simpa +decide [text, hop] using ⟨Expr.Plain.text a h.1, Expr.Plain.text b h.2⟩
  | .call f args, h => by
    simpa +decide [text, h.1] using plain_intercalate (Expr.AllPlain.texts args h.2)

theorem Expr.AllPlain.texts : (es : List Expr) → Expr.AllPlain es →
    ∀ t ∈ texts es, Glsl.Plain t
  | [], _ => List.forall_mem_nil _
  | e :: es, h => List.forall_mem_cons.mpr ⟨Expr.Plain.text e h.1, Expr.AllPlain.texts es h.2⟩

end

/-- Whatever a computation gives has a property. -/
def Yields {α : Type} (P : α → Prop) : Except Fault α → Prop
  | .ok a => P a
  | .error _ => True

section Yields

variable {α β : Type} {P : α → Prop} {Q : β → Prop}

@[simp] theorem yields_ok {a : α} : Yields P (.ok a) ↔ P a := Iff.rfl

@[simp] theorem yields_pure {a : α} : Yields P (pure a) ↔ P a := Iff.rfl

@[simp] theorem yields_error (fault : Fault) : Yields P (.error fault) := trivial

@[simp] theorem yields_throw (fault : Fault) : Yields P (throw fault) := trivial

theorem Yields.bind {x : Except Fault α} {f : α → Except Fault β} (hx : Yields P x)
    (hf : ∀ a, P a → Yields Q (f a)) : Yields Q (x >>= f) := by
  cases x with
  | ok a => exact hf a hx
  | error fault => trivial

theorem yields_true (x : Except Fault α) : Yields (fun _ => True) x := by
  cases x <;> trivial

theorem yields_bind {x : Except Fault α} {f : α → Except Fault β} (hf : ∀ a, Yields Q (f a)) :
    Yields Q (x >>= f) :=
  (yields_true x).bind fun a _ => hf a

end Yields

namespace Scope

variable {s : Scope} {i : Instruction} {e : Expr}

theorem plain_scopeTag : Plain s.tag := plain_tag _

attribute [local simp] plain_scopeTag

theorem yields_loopCounter : Yields Plain s.loopCounter := by
  unfold loopCounter
  split
  · trivial
  · simp +decide

theorem yields_elementText (n : Nat) (a : RelativeAddress) : Yields Plain (s.elementText n a) := by
  have hrelative : Yields Plain (s.relativeText a) := by
    unfold relativeText
    split
    · simp +decide
    · exact yields_loopCounter
    · trivial
  refine hrelative.bind fun rel hrel => ?_
  split
  · trivial
  · split <;> simp +decide [hrel]

theorem yields_outputName (stage : Stage) (file : RegisterFile) (n : Nat) :
    Yields Plain (outputName stage.tag file n) := by
  unfold outputName
  split
  · split <;> simp +decide
  all_goals simp +decide

theorem plain_inputText (n : Nat) : Plain (s.inputText n) := by
  unfold inputText
  split
  · simp +decide
  · split
    · simp +decide
    · split_ifs <;> simp +decide [Swizzle.letters]
  · exact plain_varyingName _
  · exact plain_varyingName _

theorem yields_registerText (r : RegisterRef) : Yields Plain (s.registerText r) := by
  unfold registerText
  dsimp only
  split
  · exact yields_elementText _ _
  · split
    case h_2 => exact plain_inputText _
    case h_11 => exact yields_loopCounter
    case h_13 => exact yields_outputName _ _ _
    case h_5 | h_12 => split_ifs <;> simp +decide
    all_goals simp +decide

theorem yields_register (r : RegisterRef) : Yields Expr.Plain (s.register r) :=
  (yields_registerText r).bind fun _ ht => ht

theorem yields_source (src : Source) : Yields Expr.Plain (s.source src) := by
  refine (yields_register src.reg).bind fun e he => ?_
  have hswizzled : (swizzled src.swizzle e).Plain := by
    unfold swizzled
    split_ifs <;> exact he
  unfold modified
  split <;> simp +decide [hswizzled]

theorem yields_sourceAt (n : Nat) : Yields Expr.Plain (s.sourceAt i n) :=
  yields_bind yields_source

theorem yields_scalarAt (n : Nat) : Yields Expr.Plain (s.scalarAt i n) :=
  (yields_sourceAt n).bind fun _ he => he

theorem plain_inverted {m : SourceModifier} (he : e.Plain) : (inverted m e).Plain := by
  unfold inverted
  split_ifs <;> exact he

/-! ### Values -/

theorem yields_sample {n : Nat} {coord : Expr} {mode : SampleMode} (hcoord : coord.Plain)
    (hmode : ∀ dx dy, mode = .gradient dx dy → dx.Plain ∧ dy.Plain := by nofun) :
    Yields Expr.Plain (s.sample n coord mode) := by
  have hfunction (kind : SamplerKind) :
      Yields (fun f => Plain f.word) (s.sampleFunction kind mode) := by
    unfold sampleFunction
    cases kind <;> cases mode <;> dsimp only [pure_bind] <;> (try split_ifs) <;> trivial
  refine yields_bind fun kind => (hfunction kind).bind fun f hf => ?_
  have hsampler : Plain s!"{s.tag}_s{n}" := by simp +decide
  cases mode with
  | project =>
    dsimp only
    split_ifs
    · exact ⟨hf, hsampler, ⟨hcoord, hcoord⟩, trivial⟩
    · exact ⟨hf, hsampler, hcoord, trivial⟩
  | gradient dx dy =>
    obtain ⟨hdx, hdy⟩ := hmode dx dy rfl
    exact ⟨hf, hsampler, hcoord, hdx, hdy, trivial⟩
  | plain => exact ⟨hf, hsampler, hcoord, trivial⟩
  | bias | level => exact ⟨hf, hsampler, hcoord, hcoord, trivial⟩

theorem allPlain_append {es fs : List Expr} :
    Expr.AllPlain (es ++ fs) ↔ Expr.AllPlain es ∧ Expr.AllPlain fs := by
  induction es with
  | nil => simp
  | cons e es ih => simp [ih, and_assoc]

theorem yields_matrix (rows : Nat) (threeWide : Bool) :
    Yields Expr.Plain (s.matrix i rows threeWide) := by
  have hrows {vector : Expr} (hvector : vector.Plain) (m : Source) (row count : Nat) :
      Yields Expr.AllPlain (s.matrixRows vector m threeWide row count) := by
    induction count generalizing row with
    | zero => trivial
    | succ count ih =>
      refine (yields_source _).bind fun e he => (ih (row + 1)).bind fun es hes => ⟨?_, hes⟩
      split_ifs <;> simp +decide [hvector, he]
  refine (yields_sourceAt 0).bind fun vector hvector => ?_
  split
  · trivial
  · refine (hrows hvector _ 0 rows).bind fun es hes => ?_
    refine ⟨by decide, allPlain_append.mpr ⟨hes, ?_⟩⟩
    induction 4 - rows with
    | zero => trivial
    | succ n ih => exact ⟨trivial, ih⟩

theorem yields_bump : Yields Expr.Plain (s.bump i) := by
  refine yields_bind fun d => (yields_sourceAt 0).bind fun e he => ?_
  split
  · trivial
  · refine (yields_sample (by simp +decide [coordinateOf, he])).bind fun v hv => ?_
    split_ifs
    · exact hv
    · simp +decide [he, hv]

theorem yields_coordinateProduct (n : Nat) : Yields Expr.Plain (s.coordinateProduct i n) :=
  (yields_sourceAt 0).bind fun e he => by simp +decide [coordinateOf, he]

theorem yields_paddedCoordinate (n : Nat) : Yields Expr.Plain (s.paddedCoordinate i n) := by
  refine (yields_coordinateProduct n).bind fun e he => ?_
  split <;> (try split_ifs) <;>
    simp +decide [loadedX, he]

theorem yields_earlyTexture : Yields Expr.Plain (s.earlyTexture i) := by
  have hrest (n : Nat) (coord : Expr) (hcoord : coord.Plain) : Yields Expr.Plain
      (if i.opcode = .texCoord then
        if s.layout.version.minor < 4 then pure (.call .clamp [coord, .zero, .one]) else pure coord
      else s.sample n coord .plain) := by
    split_ifs
    · simp +decide [hcoord]
    · exact hcoord
    · exact yields_sample hcoord
  refine yields_bind fun d => ?_
  dsimp only
  split
  · exact (yields_source _).bind (hrest _)
  · exact hrest _ _ (plain_varyingName _)

theorem yields_load : Yields Expr.Plain (s.load i) := by
  refine (yields_sourceAt 0).bind fun coord hcoord => yields_bind fun _ => ?_
  split
  · exact yields_sample (by simp +decide [hcoord])
  · split <;> exact yields_sample hcoord

theorem yields_two {f : Expr → Expr → Expr} (hf : ∀ a b, a.Plain → b.Plain → (f a b).Plain) :
    Yields Expr.Plain (s.two i f) :=
  (yields_sourceAt 0).bind fun a ha => (yields_sourceAt 1).bind fun b hb => hf a b ha hb

theorem plain_resultValue {m : ResultModifier} (he : e.Plain) : (resultValue m e).Plain := by
  unfold resultValue
  split_ifs <;> split <;> simp +decide [he]

/-- The value of an instruction is spelled without braces. -/
theorem yields_value : Yields Expr.Plain (s.value i) := by
  unfold value
  cases i.opcode <;> dsimp only
  case tex =>
    split_ifs
    · exact yields_earlyTexture
    · exact yields_load
  case texCoord => exact yields_earlyTexture
  case add | sub | mul | dp3 | dp4 | min | max | slt | sge | dst | crs =>
    exact yields_two fun a b ha hb => by simp +decide [ha, hb]
  case mad | lrp | cmp | cnd =>
    exact (yields_sourceAt 0).bind fun a ha => (yields_sourceAt 1).bind fun b hb =>
      (yields_sourceAt 2).bind fun c hc => by simp +decide [ha, hb, hc]
  case m4x4 | m4x3 | m3x4 | m3x3 | m3x2 => exact yields_matrix _ _
  case mov =>
    refine (yields_sourceAt 0).bind fun e he => ?_
    split_ifs <;> simp +decide [he]
  case mova | nrm | lit | frc | sgn | abs | dsx | dsy =>
    exact (yields_sourceAt 0).bind fun e he => by simp +decide [he]
  case rcp | rsq | exp | expPartial | log | logPartial | sinCos =>
    exact (yields_scalarAt 0).bind fun e he => by simp +decide [he]
  case pow =>
    exact (yields_scalarAt 0).bind fun a ha => (yields_scalarAt 1).bind fun b hb => by
      simp +decide [ha, hb]
  case dp2Add =>
    exact (yields_sourceAt 0).bind fun a ha => (yields_sourceAt 1).bind fun b hb =>
      (yields_scalarAt 2).bind fun c hc => by simp +decide [ha, hb, hc]
  case setPredicate =>
    refine yields_bind fun c => yields_two fun a b ha hb => ⟨?_, ha, hb, trivial⟩
    cases c <;> rfl
  case texLdl =>
    exact (yields_sourceAt 0).bind fun coord hcoord => yields_bind fun _ => yields_sample hcoord
  case texLdd =>
    refine (yields_sourceAt 0).bind fun coord hcoord => yields_bind fun _ => ?_
    refine (yields_sourceAt 2).bind fun dx hdx => (yields_sourceAt 3).bind fun dy hdy => ?_
    exact yields_sample hcoord fun _ _ h => by cases h; exact ⟨hdx, hdy⟩
  case texBem | texBemL => exact yields_bump
  case texReg2Ar | texReg2Gb | texReg2Rgb =>
    exact yields_bind fun _ => (yields_sourceAt 0).bind fun e he => yields_sample he
  case texM3x2Pad | texM3x3Pad | texDp3 =>
    exact yields_bind fun _ => (yields_coordinateProduct _).bind fun e he => by simp +decide [he]
  case texM3x3 => exact yields_bind fun _ => yields_paddedCoordinate _
  case texM3x2Tex | texM3x3Tex | texDp3Tex =>
    exact yields_bind fun _ => (yields_paddedCoordinate _).bind fun e he => yields_sample he
  all_goals trivial

end Scope

end ShaderPipeline.Glsl
