import ShaderPipeline.Proofs.Assembly.Written

/-!
# Running lines of assembly

The variables of a program hold vectors of rationals, and a line changes the components of one of
them. Instructions of several lines keep what they need in scratch registers. No register of a
shader has the name of one, so the values of sources stand as long as their own scratch registers
are let alone.
-/

namespace ShaderPipeline.Assembly

open String Value

variable {n : Nat} {u : Value}

abbrev State : Type := String → Vector4

def selection? (v : Vector4) : List Component → Option Vector4
  | [] => some v
  | [c] => some fun _ => v c
  | [c₀, c₁, c₂, c₃] => some fun c => v ((Swizzle.mk c₀ c₁ c₂ c₃).get c)
  | _ => none

/-- The value of an operand. Textures have none. -/
def Operand.value? (σ : State) : Operand → Option Vector4
  | read negate p cs => (selection? (σ p.text) cs).map fun v => if negate then -v else v
  | splat n => some fun _ => (n : ℚ) / 1000
  | texture _ _ => none

def Operation.result? : Operation → List Vector4 → Option Vector4
  | mov, [a] => some a
  | abs, [a] => some fun c => |a c|
  | ssg, [a] => some fun c => signOf (a c)
  | add, [a, b] => some fun c => a c + b c
  | sub, [a, b] => some fun c => a c - b c
  | mul, [a, b] => some fun c => a c * b c
  | dp3, [a, b] => some fun _ => dot3 a b
  | dp4, [a, b] => some fun _ => dot4 a b
  | min, [a, b] => some fun c => Min.min (a c) (b c)
  | max, [a, b] => some fun c => Max.max (a c) (b c)
  | slt, [a, b] => some fun c => if a c < b c then 1 else 0
  | sge, [a, b] => some fun c => if b c ≤ a c then 1 else 0
  | mad, [a, b, c] => some fun k => a k * b k + c k
  | lrp, [a, b, c] => some fun k => a k * b k + (1 - a k) * c k
  | cmp, [a, b, c] => some fun k => if a k < 0 then b k else c k
  | _, _ => none

def Target.Covers (t : Target) (c : Component) : Prop := t.components = [] ∨ c ∈ t.components

instance (t : Target) (c : Component) : Decidable (t.Covers c) :=
  inferInstanceAs (Decidable (_ ∨ _))

/-- The state after components of a variable are written. -/
def State.write (σ : State) (t : Target) (v : Vector4) : State :=
  fun name c => if name = t.place.text ∧ t.Covers c then v c else σ name c

/-- The state after a line. -/
def Line.run? (σ : State) (line : Line) : Option State := do
  let target ← line.target
  let operands ← line.operands.mapM (·.value? σ)
  let v ← line.op.result? operands
  return σ.write target (if line.saturate then fun c => clampUnit (v c) else v)

/-- The state after lines. -/
def runLines? (lines : List Line) (σ : State) : Option State := lines.foldlM Line.run? σ

def registersIn (l : Layout) (σ : State) : RegisterContents := fun r =>
  match registerText l r with
  | .ok name => σ name
  | .error _ => 0

/-! ### Names -/

section Names

variable {l : Layout} {r : RegisterRef} {j k : Nat} {t : String}

theorem text_scratch_inj : (scratch l j).text = (scratch l k).text ↔ j = k := by
  refine ⟨fun h => ?_, fun h => h ▸ rfl⟩
  have hdigits := congrArg toList h
  simp only [scratch, Place.text, toString, toList_append, List.append_cancel_left_eq,
    Nat.toList_repr] at hdigits
  simpa using congrArg (Nat.ofDigitChars 10 · 0) hdigits

theorem ne_text_scratch (h : t.toList[3]? ≠ some 's') : t ≠ (scratch l k).text := by
  rintro rfl
  refine h ?_
  unfold scratch Place.text
  cases l.stage <;> simp [Stage.tag, toString]

theorem ne_scratch_of_elementText {a : RelativeAddress} (h : elementText l n a = .ok t) :
    t ≠ (scratch l k).text := by
  unfold elementText at h
  by_cases hfile : a.file ≠ .addr
  · rw [if_pos hfile] at h
    cases h
  by_cases hcomponent : a.component ≠ .x ∧ !l.profile.hasVendorOps
  · rw [if_neg hfile, if_pos hcomponent] at h
    cases h
  rw [if_neg hfile, if_neg hcomponent] at h
  cases harray : l.arrayOf? n with
  | none =>
    rw [harray] at h
    cases h
  | some array =>
    refine ne_text_scratch ?_
    rw [harray] at h
    cases hslot : l.floatSlot? n <;> rw [hslot] at h <;> obtain rfl := Except.ok.inj h
    · unfold Uniform.name
      cases l.stage <;> cases array.kind <;> split_ifs <;>
        simp [Stage.tag, toString, Uniform.letter]
    · unfold Layout.tag
      cases l.stage <;> simp [Stage.tag, toString]

theorem ne_scratch_of_tag {rest : String} (h : rest.toList[1]? ≠ some 's') :
    toString l.tag ++ rest ≠ (scratch l k).text := by
  refine ne_text_scratch ?_
  unfold Layout.tag
  cases l.stage <;> simpa [Stage.tag, toString] using h

theorem ne_scratch_of_outputName {file : RegisterFile} (h : outputName l.tag file n = .ok t) :
    t ≠ (scratch l k).text := by
  cases file with
  | rastOut =>
    unfold outputName at h
    dsimp only at h
    split at h <;> cases h <;> exact ne_scratch_of_tag (by simp [toString])
  | depthOut =>
    cases h
    exact ne_scratch_of_tag (by simp [toString])
  | attrOut | texCoordOut | output | colorOut =>
    cases h
    simp only [append_assoc]
    exact ne_scratch_of_tag (by simp [toString])
  | _ => cases h

theorem ne_scratch_of_constantText (h : constantText l n = .ok t) : t ≠ (scratch l k).text := by
  unfold constantText at h
  split_ifs at h
  · cases h
    simp only [append_assoc]
    exact ne_scratch_of_tag (by simp [toString])
  · cases hslot : l.floatSlot? n <;> rw [hslot] at h <;> cases h
    simp only [append_assoc]
    exact ne_scratch_of_tag (by simp [toString])

theorem ne_scratch_of_inputBinding (h : inputBinding l n = .ok t) : t ≠ (scratch l k).text := by
  unfold inputBinding at h
  split at h <;> cases h <;> exact ne_text_scratch (by simp [toString])

theorem coordinateText_ne_scratch (n : Nat) : coordinateText n ≠ (scratch l k).text :=
  ne_text_scratch (by unfold coordinateText; simp [toString])

theorem ne_scratch_of_registerText (h : registerText l r = .ok t) : t ≠ (scratch l k).text := by
  unfold registerText at h
  cases hrelative : r.relative with
  | some a =>
    rw [hrelative] at h
    exact ne_scratch_of_elementText h
  | none =>
    rw [hrelative] at h
    cases hfile : r.file <;> rw [hfile] at h <;> dsimp only at h
    case input =>
      cases hstage : l.stage <;> rw [hstage] at h <;> dsimp only at h
      · cases h
        simp only [append_assoc]
        exact ne_scratch_of_tag (by simp [toString])
      · exact ne_scratch_of_inputBinding h
    case const => exact ne_scratch_of_constantText h
    case texture =>
      split_ifs at h
      · exact Except.ok.inj h ▸ coordinateText_ne_scratch r.index
      · rw [← Except.ok.inj h]
        simp only [append_assoc]
        exact ne_scratch_of_tag (by simp [toString])
    case miscType =>
      split_ifs at h <;> cases h <;> exact ne_text_scratch (by simp)
    case rastOut | attrOut | texCoordOut | output | colorOut | depthOut =>
      exact ne_scratch_of_outputName h
    case temp | addr =>
      cases h
      simp only [append_assoc]
      exact ne_scratch_of_tag (by simp [toString])
    all_goals cases h

end Names

/-! ### States that differ in scratch registers -/

section OnlyScratch

variable {l : Layout} {ks js : Set Nat} {k : Nat} {σ σ₁ σ₂ : State}

/-- Two states differ in some scratch registers at most. -/
def OnlyScratch (l : Layout) (ks : Set Nat) (σ σ₁ : State) : Prop :=
  ∀ name, (∀ k ∈ ks, name ≠ (scratch l k).text) → σ₁ name = σ name

theorem OnlyScratch.refl : OnlyScratch l ks σ σ := fun _ _ => rfl

theorem OnlyScratch.trans (h : OnlyScratch l ks σ σ₁) (h' : OnlyScratch l ks σ₁ σ₂) :
    OnlyScratch l ks σ σ₂ :=
  fun name hname => (h' name hname).trans (h name hname)

theorem OnlyScratch.mono (h : OnlyScratch l js σ σ₁) (hjs : js ⊆ ks) : OnlyScratch l ks σ σ₁ :=
  fun name hname => h name fun k hk => hname k (hjs hk)

theorem OnlyScratch.write (h : OnlyScratch l ks σ σ₁) (t : Target) (v : Vector4) :
    OnlyScratch l ks (σ.write t v) (σ₁.write t v) := by
  intro name hname
  funext c
  simp [State.write, h name hname]

theorem onlyScratch_write (hk : k ∈ ks) (cs : List Component) (v : Vector4) :
    OnlyScratch l ks σ (σ.write ⟨scratch l k, cs⟩ v) := by
  intro name hname
  funext c
  exact if_neg fun h => hname k hk h.1

/-- The registers of the shader do not change. -/
theorem OnlyScratch.registersIn (h : OnlyScratch l ks σ σ₁) :
    registersIn l σ₁ = registersIn l σ := by
  funext r
  unfold Assembly.registersIn
  cases htext : registerText l r with
  | error fault => rfl
  | ok name => exact h name fun k _ => ne_scratch_of_registerText htext

/-- The other scratch registers do not change. -/
theorem OnlyScratch.eq_scratch (h : OnlyScratch l ks σ σ₁) (hk : k ∉ ks) :
    σ₁ (scratch l k).text = σ (scratch l k).text :=
  h _ fun _ hj heq => hk (text_scratch_inj.mp heq ▸ hj)

theorem State.write_place (σ : State) (p : Place) (cs : List Component) (v : Vector4)
    (c : Component) :
    σ.write ⟨p, cs⟩ v p.text c = if cs = [] ∨ c ∈ cs then v c else σ p.text c := by
  simp [write, Target.Covers]

@[simp] theorem State.write_whole (σ : State) (p : Place) (v : Vector4) :
    σ.write ⟨p, []⟩ v p.text = v := by
  funext c
  simp [write_place]

theorem State.write_other {j : Nat} (hj : j ≠ k) (cs : List Component) (v : Vector4) :
    σ.write ⟨scratch l j, cs⟩ v (scratch l k).text = σ (scratch l k).text :=
  (onlyScratch_write (Set.mem_singleton j) cs v).eq_scratch fun hk => hj hk.symm

end OnlyScratch

/-! ### Operands -/

def Value.contents (v : Value) (σ : State) : Vector4 := fun c =>
  let x := σ v.place.text (v.swizzle.get c)
  if v.negate then -x else x

@[simp] theorem Value.value?_vector (v : Value) (σ : State) :
    v.vector.value? σ = some (v.contents σ) := by
  obtain ⟨negate, p, z⟩ := v
  have hselection : selection? (σ p.text) (if z = .identity then [] else z.toList) =
      some fun c => σ p.text (z.get c) := by
    split_ifs with hz
    · subst hz
      simp [selection?]
    · rfl
  rw [vector, Operand.value?, hselection]
  cases negate <;> rfl

@[simp] theorem Value.value?_scalar (v : Value) (σ : State) :
    v.scalar.value? σ = some fun _ => v.contents σ .x := by
  obtain ⟨negate, p, z⟩ := v
  cases negate <;> rfl

@[simp] theorem value?_whole (p : Place) (σ : State) : p.whole.value? σ = some (σ p.text) := rfl

@[simp] theorem value?_pick (p : Place) (c : Component) (σ : State) :
    (p.pick [c]).value? σ = some fun _ => σ p.text c := rfl

@[simp] theorem value?_splat (n : Nat) (σ : State) :
    (Operand.splat n).value? σ = some fun _ => (n : ℚ) / 1000 := rfl

section Values

variable {σ : State} {a b c : Operand} {x y z : Vector4}

theorem values_one (ha : a.value? σ = some x) : [a].mapM (·.value? σ) = some [x] := by simp [ha]

theorem values_two (ha : a.value? σ = some x) (hb : b.value? σ = some y) :
    [a, b].mapM (·.value? σ) = some [x, y] := by
  simp [ha, hb]

theorem values_three (ha : a.value? σ = some x) (hb : b.value? σ = some y)
    (hc : c.value? σ = some z) : [a, b, c].mapM (·.value? σ) = some [x, y, z] := by
  simp [ha, hb, hc]

end Values

/-! ### Lines -/

theorem run?_eq {op : Operation} {saturate : Bool} {t : Target} {operands : List Operand}
    {σ : State} {xs : List Vector4} {v : Vector4} (hoperands : operands.mapM (·.value? σ) = some xs)
    (hv : op.result? xs = some v) :
    Line.run? σ ⟨op, saturate, some t, operands⟩ =
      some (σ.write t (if saturate then fun c => clampUnit (v c) else v)) := by
  simp [Line.run?, hoperands, hv]

theorem runLines?_cons (line : Line) (lines : List Line) (σ : State) :
    runLines? (line :: lines) σ = (line.run? σ).bind (runLines? lines) := rfl

theorem runLines?_append {first rest : List Line} {σ σ₁ : State}
    (h : runLines? first σ = some σ₁) : runLines? (first ++ rest) σ = runLines? rest σ₁ := by
  unfold runLines? at h ⊢
  rw [List.foldlM_append, h]
  rfl

/-! ### Values that are stored -/

section Stores

variable {l : Layout} {ks : Set Nat} {k : Nat} {σ σ₁ : State} {t : Target} {v x : Vector4}
  {op : Operation} {operands : List Operand} {xs : List Vector4} {lines first rest : List Line}

def scratches : Set Nat := {k | k < scratchCount}

/-- Lines store a vector, and change nothing besides but scratch registers. -/
def Stores (l : Layout) (lines : List Line) (σ : State) (t : Target) (v : Vector4) : Prop :=
  ∃ σ', runLines? lines σ = some σ' ∧ OnlyScratch l scratches (σ.write t v) σ'

/-- Lines that change scratch registers only, in front of others. -/
theorem Stores.after (h : Stores l rest σ₁ t v) (hrun : runLines? first σ = some σ₁)
    (hfirst : OnlyScratch l ks σ σ₁) (hks : ks ⊆ scratches) : Stores l (first ++ rest) σ t v := by
  obtain ⟨σ', hrest, hσ'⟩ := h
  exact ⟨σ', (runLines?_append hrun).trans hrest, ((hfirst.mono hks).write t v).trans hσ'⟩

theorem Stores.step {cs : List Component}
    (h : Stores l rest (σ.write ⟨scratch l k, cs⟩ x) t v) (hk : k < scratchCount)
    (hoperands : operands.mapM (·.value? σ) = some xs) (hx : op.result? xs = some x) :
    Stores l (⟨op, false, some ⟨scratch l k, cs⟩, operands⟩ :: rest) σ t v := by
  have hrun : runLines? [⟨op, false, some ⟨scratch l k, cs⟩, operands⟩] σ =
      some (σ.write ⟨scratch l k, cs⟩ x) := by
    rw [runLines?_cons, run?_eq hoperands hx]
    rfl
  exact h.after hrun (onlyScratch_write (Set.mem_singleton k) cs x)
    (Set.singleton_subset_iff.mpr hk)

theorem stores_line {saturate : Bool} (hoperands : operands.mapM (·.value? σ) = some xs)
    (hx : op.result? xs = some x) (hv : (if saturate then fun c => clampUnit (x c) else x) = v) :
    Stores l [⟨op, saturate, some t, operands⟩] σ t v := by
  refine ⟨_, ?_, .refl⟩
  rw [runLines?_cons, run?_eq hoperands hx, hv]
  rfl

/-- What is in the scratch register of results is clamped, if asked for, and stored. -/
theorem stores_clamped (l : Layout) (saturate : Bool) (t : Target)
    (hx : σ (scratch l resultScratch).text = x) :
    Stores l (if saturate = false ∨ isPixel l = true then
        [⟨.mov, saturate, some t, [(scratch l resultScratch).whole]⟩]
      else [⟨.max, false, some (scratch l resultScratch).target,
          [(scratch l resultScratch).whole, .splat 0]⟩,
        ⟨.min, false, some t, [(scratch l resultScratch).whole, .splat 1000]⟩]) σ t
      (if saturate then fun c => clampUnit (x c) else x) := by
  subst hx
  by_cases hlast : saturate = false ∨ isPixel l = true
  · rw [if_pos hlast]
    exact stores_line rfl rfl rfl
  · obtain ⟨hsaturate, -⟩ := not_or.mp hlast
    obtain rfl : saturate = true := Bool.not_eq_false _ ▸ hsaturate
    rw [if_neg hlast]
    refine Stores.step (stores_line rfl rfl ?_) (by decide) rfl rfl
    funext c
    simp [clampUnit]

theorem stores_store (m : ResultModifier) (hoperands : operands.mapM (·.value? σ) = some xs)
    (hx : op.result? xs = some x) (hv : ∀ c, x c = v c) :
    Stores l (storeLines l m op operands t) σ t fun c => m.finish (v c) := by
  obtain rfl : x = v := funext hv
  have hfinish : (fun c => m.finish (x c)) =
      if m.saturate then fun c => clampUnit (x c * m.shift.factor)
        else fun c => x c * m.shift.factor := by
    unfold ResultModifier.finish
    split_ifs <;> rfl
  rw [hfinish, storeLines]
  -- Without a shift, and where the operation itself can clamp, one line does all of it.
  by_cases hdirect : m.shift.factor? = none ∧ (m.saturate = false ∨ isPixel l = true)
  · rw [if_pos hdirect]
    refine stores_line hoperands hx ?_
    simp [ResultShift.factor, hdirect.1]
  · rw [if_neg hdirect]
    refine Stores.step ?_ (by decide) hoperands hx
    cases hshift : m.shift.factor? with
    | none => exact stores_clamped l m.saturate t (by simp [ResultShift.factor, hshift])
    | some n =>
      refine Stores.step (stores_clamped l m.saturate t ?_) (by decide) rfl rfl
      rw [State.write_whole]
      funext c
      simp [ResultShift.factor, hshift]

/-! ### Sources -/

def Reads (l : Layout) (k : Nat) (σ : State) (v : Value) (x : Vector4) : Prop :=
  ∀ σ₁, OnlyScratch l {k}ᶜ σ σ₁ → v.contents σ₁ = x

theorem Reads.contents (h : Reads l k σ u x) : u.contents σ = x := h σ .refl

theorem Reads.after (h : Reads l k σ u x) (hσ₁ : OnlyScratch l ks σ σ₁) (hk : k ∉ ks) :
    Reads l k σ₁ u x := by
  intro σ₂ hσ₂
  have hother : ks ⊆ {k}ᶜ := Set.subset_compl_singleton_iff.mpr hk
  exact h σ₂ ((hσ₁.mono hother).trans hσ₂)

theorem Reads.write {j : Nat} (h : Reads l k σ u x) (hj : j ≠ k) (cs : List Component)
    (y : Vector4) : Reads l k (σ.write ⟨scratch l j, cs⟩ y) u x :=
  h.after (onlyScratch_write (Set.mem_singleton j) cs y) fun hk => hj hk.symm

theorem Value.contents_congr (h : σ₁ u.place.text = σ u.place.text) :
    u.contents σ₁ = u.contents σ := by
  unfold contents
  rw [h]

/-- A source without its modifier holds what its register holds, in the order asked for. -/
theorem contents_plain {src : Source} {p : Place} (hp : place l src.reg = .ok p)
    (hinput : src.reg.file = .input → src.reg.relative = none) :
    contents ⟨false, p, inputSwizzle l src⟩ σ =
      fun c => l.contents (registersIn l σ) src.reg (src.swizzle.get c) := by
  obtain ⟨name, hname, hp⟩ := bind_eq_ok.mp hp
  obtain rfl := Except.ok.inj hp
  have hregister : registersIn l σ src.reg = σ name := by rw [registersIn, hname]
  have hswizzle (c : Component) :
      (inputSwizzle l src).get c = (l.reordering src.reg).get (src.swizzle.get c) := by
    unfold inputSwizzle Layout.reordering
    by_cases hfile : src.reg.file = .input ∧ l.stage = .vertex
    · rw [if_pos hfile, if_pos ⟨hfile.1, hinput hfile.1, hfile.2⟩]
      cases (l.survey.inputs.lookup src.reg.index).bind l.options.swizzleOf? <;> simp
    · rw [if_neg hfile, if_neg fun h => hfile ⟨h.1, h.2.2⟩, Swizzle.get_identity]
  funext c
  simp only [contents, Layout.contents, hregister, hswizzle]
  rfl

theorem exists_run_line (l : Layout) (k : Nat) (cs : List Component) (op : Operation)
    (hoperands : operands.mapM (·.value? σ) = some xs) (hx : op.result? xs = some x) :
    ∃ σ₁, runLines? [⟨op, false, some ⟨scratch l k, cs⟩, operands⟩] σ = some σ₁ ∧
      OnlyScratch l {k} σ σ₁ ∧ ∀ c, σ₁ (scratch l k).text c =
        if cs = [] ∨ c ∈ cs then x c else σ (scratch l k).text c := by
  refine ⟨σ.write ⟨scratch l k, cs⟩ x, ?_, onlyScratch_write (Set.mem_singleton k) cs x,
    fun c => State.write_place σ _ cs x c⟩
  rw [runLines?_cons, run?_eq hoperands hx]
  rfl

theorem exists_run_modifierLines {m : SourceModifier} (hm : m.Componentwise) (p : Place)
    (z : Swizzle) :
    ∃ σ₁, runLines? (modifierLines (scratch l k) (vector ⟨false, p, z⟩) m) σ = some σ₁ ∧
      OnlyScratch l {k} σ σ₁ ∧
      (modifiedValue (scratch l k) ⟨false, p, z⟩ m).contents σ₁ =
        fun c => m.apply (contents ⟨false, p, z⟩ σ c) := by
  have hvector := value?_vector ⟨false, p, z⟩ σ
  obtain ⟨hdz, hdw, hnot⟩ := hm
  cases m
  case dz | dw | not => contradiction
  case plain | negate => exact ⟨σ, rfl, .refl, rfl⟩
  case sign | signNegate =>
    -- The second line reads what the first has left in the scratch register.
    obtain ⟨σ₁, hrun, honly, hvalue⟩ :=
      exists_run_line l k [] .add (values_two hvector hvector) rfl
    obtain ⟨σ₂, hrun', honly', hvalue'⟩ :=
      exists_run_line l k [] .sub (values_two (value?_whole _ σ₁) (value?_splat 1000 σ₁)) rfl
    refine ⟨σ₂, (runLines?_append hrun).trans hrun', honly.trans honly', ?_⟩
    funext c
    simp [modifiedValue, contents, hvalue, hvalue', SourceModifier.apply, mul_two]
  case bias | biasNegate =>
    obtain ⟨σ₁, hrun, honly, hvalue⟩ :=
      exists_run_line l k [] .sub (values_two hvector (value?_splat 500 σ)) rfl
    refine ⟨σ₁, hrun, honly, ?_⟩
    funext c
    norm_num [modifiedValue, contents, hvalue, SourceModifier.apply]
  case comp =>
    obtain ⟨σ₁, hrun, honly, hvalue⟩ :=
      exists_run_line l k [] .sub (values_two (value?_splat 1000 σ) hvector) rfl
    refine ⟨σ₁, hrun, honly, ?_⟩
    funext c
    simp [modifiedValue, contents, hvalue, SourceModifier.apply]
  case x2 | x2Negate =>
    obtain ⟨σ₁, hrun, honly, hvalue⟩ :=
      exists_run_line l k [] .add (values_two hvector hvector) rfl
    refine ⟨σ₁, hrun, honly, ?_⟩
    funext c
    simp [modifiedValue, contents, hvalue, SourceModifier.apply, mul_two]
  case abs | absNegate =>
    obtain ⟨σ₁, hrun, honly, hvalue⟩ :=
      exists_run_line l k [] .abs (values_one hvector) rfl
    refine ⟨σ₁, hrun, honly, ?_⟩
    funext c
    simp [modifiedValue, contents, hvalue, SourceModifier.apply]

def Resolves (l : Layout) (src : Source) (k : Nat) (u : Value) (lines : List Line) : Prop :=
  ∀ σ, ∃ σ₁, runLines? lines σ = some σ₁ ∧ OnlyScratch l {k} σ σ₁ ∧
    Reads l k σ₁ u (l.sourceValue (registersIn l σ) src)

theorem place_modifiedValue (p : Place) (u : Value) (m : SourceModifier) :
    (modifiedValue p u m).place = p ∨ (modifiedValue p u m).place = u.place := by
  cases m <;> simp [modifiedValue]

theorem resolves_source {src : Source} {p : Place} (hp : place l src.reg = .ok p)
    (hinput : src.reg.file = .input → src.reg.relative = none)
    (hm : src.modifier.Componentwise) :
    Resolves l src k (modifiedValue (scratch l k) ⟨false, p, inputSwizzle l src⟩ src.modifier)
      (modifierLines (scratch l k) (vector ⟨false, p, inputSwizzle l src⟩)
        src.modifier) := by
  intro σ
  obtain ⟨σ₁, hrun, honly, hvalue⟩ :=
    exists_run_modifierLines (l := l) (k := k) (σ := σ) hm p (inputSwizzle l src)
  have hsource : (fun c => src.modifier.apply
      (contents ⟨false, p, inputSwizzle l src⟩ σ c)) =
        l.sourceValue (registersIn l σ) src := by
    rw [contents_plain hp hinput]
    rfl
  refine ⟨σ₁, hrun, honly, fun σ₂ hσ₂ => ?_⟩
  rw [← hsource, ← hvalue]
  refine contents_congr ?_
  -- The value is in the scratch register of the source, or in the register itself.
  rcases place_modifiedValue (scratch l k) ⟨false, p, inputSwizzle l src⟩ src.modifier with
    hplace | hplace
  · rw [hplace]
    exact hσ₂.eq_scratch (by simp)
  · rw [hplace]
    obtain ⟨name, hname, hp⟩ := bind_eq_ok.mp hp
    obtain rfl := Except.ok.inj hp
    exact hσ₂ name fun j _ => ne_scratch_of_registerText hname

end Stores

end ShaderPipeline.Assembly
