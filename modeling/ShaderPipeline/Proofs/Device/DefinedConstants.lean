import ShaderPipeline.Proofs.Device.RegisterLimits

/-!
# Constants that a shader defines, reached in two ways

A float register that a shader defines is a constant of the text where it is read directly. An
access through an address register reaches it in the array of its range. If all registers of the
range are defined, that is an array of the definitions. Otherwise the range is fed from the register
file, and the definition is not looked at.
-/

namespace ShaderPipeline

open List ShaderPipeline.Uniform Option Assembly LoweredShader Device

variable {l : Layout} {w : Survey} {symbols : List Symbol} {p : LinkedProgram}

/-! ### Elements of arrays -/

/-- Where a relative access finds its element: at a slot of the packed array, or at a place of an
array of definitions. -/
inductive Element where
  | packed (slot : Nat)
  | defined (array : Uniform) (place : Nat)
  deriving DecidableEq, Repr

/-- The element that an access from register `n` reaches when the address register holds `a`. -/
def Layout.element? (l : Layout) (n : Nat) (a : Int) : Option Element :=
  (l.arrayOf? n).map fun array =>
    match l.floatSlot? n with
    | some slot => .packed (slot + a).toNat
    | none => .defined array (((n - array.index : Nat) : Int) + a).toNat

/-- An element as the shading language spells it, `rel` places on. -/
def Element.glslText (l : Layout) (rel : String) : Element → String
  | packed slot => s!"{l.tag}_uniforms_vec4[{slot} + {rel}]"
  | defined u k => s!"{u.name l.stage}[{k} + {rel}]"

/-- An element as assembly spells it, `address` places on. -/
def Element.assemblyText (l : Layout) (address : String) : Element → String
  | packed slot => s!"{l.tag}_uniforms[{address} + {slot}]"
  | defined u k => s!"{u.name l.stage}[{address} + {k}]"

/-- The text of an access from a register starts at an element and goes on by what the address
register holds. -/
structure StartsAt (l : Layout) (n : Nat) (e : Element) : Prop where
  glsl : ∀ loops address text, (Glsl.Scope.mk l loops).elementText n address = .ok text →
    ∃ rel, (Glsl.Scope.mk l loops).relativeText address = .ok rel ∧ text = e.glslText l rel
  assembly : ∀ address text, elementText l n address = .ok text →
    text = e.assemblyText l s!"{l.tag}_a{address.index}.{address.component.letter}"

theorem Layout.startsAt_of_element? {n : Nat} {e : Element} (h : l.element? n 0 = some e) :
    StartsAt l n e := by
  obtain ⟨array, harray, rfl⟩ := map_eq_some_iff.mp h
  constructor
  · intro loops address text htext
    obtain ⟨rel, hrel, htext⟩ := bind_eq_ok.mp htext
    refine ⟨rel, hrel, ?_⟩
    rw [harray] at htext
    cases hslot : l.floatSlot? n <;> rw [hslot] at htext <;> obtain rfl := Except.ok.inj htext
    · simp [Element.glslText]
    · simp [Element.glslText, Glsl.Scope.tag]
  · intro address text htext
    unfold elementText at htext
    by_cases hfile : address.file ≠ .addr
    · rw [if_pos hfile] at htext
      cases htext
    by_cases hcomponent : address.component ≠ .x ∧ !l.profile.hasVendorOps
    · rw [if_neg hfile, if_pos hcomponent] at htext
      cases htext
    rw [if_neg hfile, if_neg hcomponent, harray] at htext
    cases hslot : l.floatSlot? n <;> rw [hslot] at htext <;> obtain rfl := Except.ok.inj htext
    · simp [Element.assemblyText]
    · simp [Element.assemblyText]

/-! ### The element of a register -/

namespace Layout

variable {l : Layout} {u : Uniform} {n r : Nat} {a : Int}

/-- Every register belongs to at most one float uniform. -/
theorem Sound.eq_of_covers (h : l.Sound) {u' : Uniform} (hu : u ∈ l.floats) (hu' : u' ∈ l.floats)
    (hn : u.covers n = true) (hn' : u'.covers n = true) : u = u' := by
  by_contra hne
  have : Std.Symm Uniform.Apart := ⟨fun _ _ hapart => hapart.symm⟩
  have hapart : u.Apart u' := (h.apart .float).forall hu hu' hne
  exact absurd hn (by rw [hapart.not_covers hn']; decide)

theorem Sound.arrayOf?_eq_some (h : l.Sound) (hu : u ∈ l.arrays) (hn : u.covers n = true) :
    l.arrayOf? n = some u := by
  obtain ⟨u', hfound⟩ : ∃ u', l.arrayOf? n = some u' :=
    isSome_iff_exists.mp (find?_isSome.mpr ⟨u, hu, hn⟩)
  have hu' : u' ∈ l.floats := (mem_filter.mp (mem_of_find?_eq_some hfound)).1
  have hn' : u'.covers n = true := by
    simpa using find?_some hfound
  rw [hfound, h.eq_of_covers (mem_filter.mp hu).1 hu' hn hn']

/-- A range of definitions takes no slots. -/
theorem Sound.floatSlot?_of_constant (h : l.Sound) (hu : u ∈ l.arrays)
    (hconstant : u.constant = true) (hn : u.covers n = true) : l.floatSlot? n = none := by
  rw [← not_isSome_iff_eq_none, floatSlot?, isSome_slotOf?_iff]
  rintro ⟨u', hu', hfed, hn'⟩
  rw [h.eq_of_covers (mem_filter.mp hu).1 hu' hn hn', hfed] at hconstant
  exact absurd hconstant (by decide)

theorem Sound.element?_of_constant (h : l.Sound) (hu : u ∈ l.arrays) (hconstant : u.constant = true)
    (hn : u.covers n = true) (ha : (n : Int) + a = r) :
    l.element? n a = some (.defined u (r - u.index)) := by
  rw [element?, h.arrayOf?_eq_some hu hn, h.floatSlot?_of_constant hu hconstant hn]
  have hn' := covers_iff.mp hn
  simp only [map_some, some.injEq, Element.defined.injEq, true_and]
  omega

theorem Sound.element?_of_fed (h : l.Sound) (hu : u ∈ l.arrays) (hfed : u.constant = false)
    (hn : u.covers n = true) (hr : u.covers r = true) (ha : (n : Int) + a = r) :
    ∃ slot, l.element? n a = some (.packed slot) ∧ PackedAt l.uniforms u (r - u.index) slot := by
  have hfloat := (mem_filter.mp hu).1
  obtain ⟨before, after, hsplit⟩ := append_of_mem hfloat
  have hapart : (before ++ u :: after).Pairwise Uniform.Apart := hsplit ▸ h.apart .float
  have hslot : l.floatSlot? n = some (slotCount before + (n - u.index)) := by
    rw [floatSlot?, hsplit]
    exact slotOf?_of_split hapart hfed hn
  have hslot' : l.slot? .float r = some (slotCount before + (r - u.index)) := by
    rw [slot?_eq, ofKind, hsplit]
    exact slotOf?_of_split hapart hfed hr
  have hn' := covers_iff.mp hn
  have hr' := covers_iff.mp hr
  refine ⟨slotCount before + (r - u.index), ?_, ?_⟩
  · rw [element?, h.arrayOf?_eq_some hu hn, hslot]
    simp only [map_some, some.injEq, Element.packed.injEq]
    omega
  · obtain ⟨u', k, hpacked, hkind, rfl⟩ := h.packedAt_of_slot? hslot'
    have hu' : u' ∈ l.floats := by
      obtain ⟨-, -, first, last, huniforms, -⟩ := hpacked
      change u' ∈ l.ofKind .float
      rw [← h.filter_uniforms, huniforms]
      simp [hkind]
    have hcovers : u'.covers (u'.index + k) = true :=
      covers_iff.mpr ⟨Nat.le_add_right _ _, Nat.add_lt_add_left hpacked.2.1 _⟩
    obtain rfl := h.eq_of_covers hfloat hu' hr hcovers
    rwa [Nat.add_sub_cancel_left] at hpacked ⊢

end Layout

/-! ### Arrays of definitions -/

theorem Quad.getElem?_flatMap_toList {α : Type} {rows : List (Quad α)} {k lane : Nat} {v : Quad α}
    (hk : rows[k]? = some v) (hlane : lane < 4) :
    (rows.flatMap Quad.toList)[4 * k + lane]? = v.toList[lane]? := by
  induction rows generalizing k with
  | nil => cases hk
  | cons row rows ih =>
    have hlength : row.toList.length = 4 := rfl
    rw [flatMap_cons]
    cases k with
    | zero =>
      obtain rfl : row = v := some.inj hk
      rw [getElem?_append_left (by omega), Nat.mul_zero, Nat.zero_add]
    | succ k =>
      have hlater : 4 * (k + 1) + lane - row.toList.length = 4 * k + lane := by omega
      rw [getElem?_append_right (by omega), hlater]
      exact ih hk

section Definitions

variable {profile : Profile} {options : Options} {s : Shader} {u : Uniform} {r : Nat}
  {v : Quad Binary32}

theorem Assembly.getElem?_arrayRows (hu : 0 < u.arrayCount) (hr : u.covers r = true)
    (hdef : l.survey.floatDefs.lookup r = some v) : (arrayRows l u)[r - u.index]? = some v := by
  have hr' := covers_iff.mp hr
  rw [width, Nat.max_eq_left hu] at hr'
  have hplace : u.index + 1 * (r - u.index) = r := by omega
  rw [arrayRows, getElem?_map, getElem?_range' (by omega), hplace]
  simp [hdef]

theorem Survey.filterMap_constants (v : Survey) :
    (v.constants.filterMap fun c =>
      match c.value with
      | .float x => some (c.index, x)
      | _ => none) = v.floatDefs := by
  simp only [constants, filterMap_append, filterMap_map]
  have hfloats : v.floatDefs.filterMap (fun e => some (e.1, e.2)) = v.floatDefs :=
    filterMap_some
  have hnone {β : Type} (es : List (Nat × β)) :
      es.filterMap (fun _ => (none : Option (Nat × Quad Binary32))) = [] :=
    filterMap_eq_nil_iff.mpr fun _ _ => rfl
  simp

theorem Survey.mem_constants_float : ⟨r, .float v⟩ ∈ w.constants ↔ (r, v) ∈ w.floatDefs := by
  simp [constants]

theorem LoweredShader.constantArray_ofShader (hu : 0 < u.arrayCount) :
    constantArray (ofShader profile options s) u =
      (arrayRows (s.layout profile options (Annexes.ofShader s).symbols) u).flatMap
        Quad.toList := by
  have hordered := Survey.ordered_ofInstructions ⟨s.version, profile, options⟩ s.instructions
  have hdefs : constantArray (ofShader profile options s) u =
      (range' u.index u.width).flatMap fun n =>
        (((Survey.ofInstructions ⟨s.version, profile, options⟩
          s.instructions).survey.floatDefs.reverse.lookup n).getD (.splat .zero)).toList := by
    rw [← Survey.filterMap_constants]
    rfl
  rw [hdefs, width, Nat.max_eq_left hu, arrayRows, flatMap_map]
  simp only [hordered.floatDefs.lookup_reverse]
  rfl

theorem Layout.exists_range_of_mem_arrays {e : Surroundings}
    (hu : u ∈ (ofSurvey e symbols w).arrays) :
    ∃ range : RegisterRange, 0 < range.count ∧ u = arrayUniform w.floatDefs range := by
  obtain ⟨hfloat, harray⟩ := mem_filter.mp hu
  rcases mem_merge.mp hfloat with hsingle | hrange
  · obtain ⟨n, -, rfl⟩ := mem_map.mp hsingle
    simp [single] at harray
  · obtain ⟨range, hmem, rfl⟩ := mem_map.mp hrange
    exact ⟨range, count_pos_of_mem_relativeRanges _ _ _ hmem, rfl⟩

theorem Layout.mem_arrays_of_mem_uniforms {e : Surroundings}
    (hu : u ∈ (ofSurvey e symbols w).uniforms) (harray : 0 < u.arrayCount) :
    u ∈ (ofSurvey e symbols w).arrays := by
  obtain ⟨kind, hkind⟩ := mem_uniforms.mp hu
  by_cases hfloat : kind = .float
  · subst hfloat
    exact mem_filter.mpr ⟨hkind, decide_eq_true harray⟩
  · obtain ⟨n, -, -, rfl⟩ := (mem_ofKind_ofSurvey hfloat).mp hkind
    simp [single] at harray

end Definitions

/-- The text of a direct read of a register names a constant of the text with a value. -/
structure ReadsDefinition (l : Layout) (r : Nat) (v : Quad Binary32) : Prop where
  glsl : ∀ loops, (Glsl.Scope.mk l loops).registerText ⟨.const, r, none⟩ = .ok s!"{l.tag}_c{r}"
  glslLine : r ∈ l.survey.floatUsed → .floatConstant s!"{l.tag}_c{r}" v ∈ Glsl.header l
  assembly : registerText l ⟨.const, r, none⟩ = .ok s!"{l.tag}_c{r}"
  assemblyLine : ∀ lines, header l = .ok lines → r ∈ l.survey.floatUsed →
    .constant s!"{l.tag}_c{r}" v ∈ lines

/-- An array of definitions is declared with its rows in assembly, and is sent when a program in the
shading language is linked. -/
structure HoldsDefinitions (l : Layout) (code : LoweredShader) (u : Uniform) : Prop where
  declared : ∀ lines, header l = .ok lines →
    .constantArray (u.name l.stage) (arrayRows l u) ∈ lines
  rows : ∀ r v, u.covers r = true → l.survey.floatDefs.lookup r = some v →
    (arrayRows l u)[r - u.index]? = some v
  values : constantArray code u = (arrayRows l u).flatMap Quad.toList
  sent : ∀ (d d' : Device) (vertex pixel : Option Device.CompiledShader) (p : Device.LinkedProgram)
      (c : Device.CompiledShader) (location : Int),
    (link vertex pixel).run.run d = (.ok p, d') → c ∈ vertex.toList ++ pixel.toList →
    c.code = code → d'.profile.isGlsl = true →
    d'.driver.uniformLocation p.names.program (u.name c.stage) = location → 0 ≤ location →
    .uniform4fv location (constantArray code u) ∈ d'.calls.toList

theorem Assembly.mem_header {lines : List HeaderLine} (h : header l = .ok lines)
    {line : HeaderLine} (hline : line ∈ constantLines l ∨ line ∈ constantArrayLines l) :
    line ∈ lines := by
  unfold header at h
  by_cases hints : (!l.survey.intUsed.isEmpty) = true
  · rw [if_pos hints] at h
    cases h
  by_cases hbools : (!l.survey.boolUsed.isEmpty) = true
  · rw [if_neg hints, if_pos hbools] at h
    cases h
  rw [if_neg hints, if_neg hbools] at h
  obtain ⟨outputs, -, h⟩ := bind_eq_ok.mp h
  obtain ⟨addresses, -, h⟩ := bind_eq_ok.mp h
  obtain rfl := Except.ok.inj h
  simp only [mem_append]
  tauto

theorem readsDefinition_of_lookup {r : Nat} {v : Quad Binary32}
    (hdef : l.survey.floatDefs.lookup r = some v) : ReadsDefinition l r v where
  glsl _ := rfl
  glslLine hused := by
    have hline : .floatConstant s!"{l.tag}_c{r}" v ∈ Glsl.floatRegisters l :=
      mem_filterMap.mpr ⟨r, hused, by rw [hdef]; rfl⟩
    simp only [Glsl.header, mem_append]
    tauto
  assembly := by simp [registerText, constantText, hdef]
  assemblyLine lines hheader hused :=
    mem_header hheader (Or.inl (mem_filterMap.mpr ⟨r, hused, by rw [hdef]; rfl⟩))

theorem Device.mem_calls_of_link {d d' : Device} {vertex pixel : Option CompiledShader}
    (h : (link vertex pixel).run.run d = (.ok p, d')) (hglsl : d'.profile.isGlsl = true)
    {c : CompiledShader} (hc : c ∈ vertex.toList ++ pixel.toList) (hsetup : needsSetup c = true)
    {call : Call} (hcall : call ∈ constantCalls d' p.names.program c) : call ∈ d'.calls.toList := by
  obtain ⟨name, e, attributes, rfl, rfl⟩ := exists_of_link h
  rw [calls_say]
  refine mem_append_right _ ?_
  have hany : (vertex.toList ++ pixel.toList).any needsSetup = true :=
    any_eq_true.mpr ⟨c, hc, hsetup⟩
  have hglsl' : e.profile.isGlsl = true := hglsl
  rw [setupCalls, hglsl', hany]
  simp only [Bool.and_self, if_true, mem_append, mem_flatMap]
  exact Or.inl (Or.inr ⟨c, mem_append.mp hc, Or.inl hcall⟩)

theorem holdsDefinitions_ofShader (profile : Profile) (options : Options) (s : Shader) {u : Uniform}
    (hu : u ∈ (ofShader profile options s).uniforms) (harray : 0 < u.arrayCount)
    (hconstant : u.constant = true) :
    HoldsDefinitions (s.layout profile options (Annexes.ofShader s).symbols)
      (.ofShader profile options s) u where
  declared lines hheader := by
    refine mem_header hheader (Or.inr (mem_map.mpr ⟨u, ?_, rfl⟩))
    exact mem_filter.mpr ⟨Layout.mem_arrays_of_mem_uniforms hu harray, hconstant⟩
  rows r v hr hdef := getElem?_arrayRows harray hr hdef
  values := constantArray_ofShader harray
  sent d d' vertex pixel p c location hlink hc hcode hglsl hfound hlocation := by
    rw [← hcode] at hu ⊢
    have hmem : u ∈ c.code.uniforms.filter (·.constant) := mem_filter.mpr ⟨hu, hconstant⟩
    refine mem_calls_of_link hlink hglsl hc ?_ (mem_flatMap.mpr ⟨u, hmem, ?_⟩)
    · exact Bool.or_eq_true_iff.mpr (Or.inl (any_eq_true.mpr ⟨u, hu, hconstant⟩))
    · simp only [hfound]
      rw [if_pos hlocation]
      exact mem_singleton.mpr rfl

/-! ### Both reads -/

def Element.word (code : LoweredShader) (values : Device.StageUniforms) : Element → Nat → UInt32
  | packed slot, lane => values.word .float (4 * slot + lane)
  | defined u k, lane => ((constantArray code u).getD (4 * k + lane) .zero).bits

variable (x : Binary32)

def Device.RegisterFiles.filled : RegisterFiles :=
  { RegisterFiles.zero with
    stages := .both { RegisterFiles.zero.stages.vertex with
      floats := Array.replicate (4 * floatRegisterCount) x } }

theorem Device.RegisterFiles.sized_filled : (filled x).Sized := by
  intro stage kind
  cases stage <;> cases kind <;>
    simp [filled, RegisterFiles.zero, RegisterFiles.stage, PerStage.both, PerStage.get,
      StageRegisters.words, ValueKind.lanes, registerCount]

theorem Device.RegisterFiles.word_filled (stage : Stage) {i : Nat}
    (hi : i < 4 * floatRegisterCount) : ((filled x).stage stage).word .float i = x.bits := by
  cases stage <;>
    simp [filled, RegisterFiles.stage, PerStage.both, PerStage.get, StageRegisters.word,
      StageRegisters.words, getD_eq_getElem?_getD, hi]

theorem Device.LinkedProgram.BringsUp.not_always {stage : Stage} {u : Uniform} {k slot : Nat}
    (h : p.BringsUp stage u k slot) (hkind : u.kind = .float) (hfile : u.InFile)
    (hk : k < u.width) (x : UInt32) :
    ¬∀ values files, p.Shapes values → RegisterFiles.Sized files → WordsAgree .float
      (((p.refresh files values).1.get stage).word .float (4 * slot)) x := by
  intro halways
  have hreach : 4 * (u.index + k) < 4 * floatRegisterCount := by
    have hend : u.index + u.width ≤ registerCount u.kind := hfile
    rw [hkind] at hend
    have : registerCount .float = floatRegisterCount := rfl
    omega
  have hfilled (y : Binary32) : WordsAgree .float y.bits x := by
    have hword := (h p.blank (.filled y) p.shapes_blank (RegisterFiles.sized_filled y) 0
      (by rw [hkind]; decide)).1 hfile
    rw [hkind] at hword
    rw [← RegisterFiles.word_filled y stage hreach]
    exact hword.symm.trans (halways _ _ p.shapes_blank (RegisterFiles.sized_filled y))
  exact not_wordsAgree_one_zero ((hfilled ⟨1⟩).trans (hfilled ⟨0⟩).symm)

/-- For every shader that is lowered without faults, every float register `r` that it defines and
every relative access into an array with `r` that reaches `r`:

* the text of a direct read names a constant with the value of the definition;
* the text of the access starts at the element of its register;
* if the array is constant, it is declared and sent with the definitions as its rows;
* in every program with the shader, if the array is in the register file, the access obtains the
  definition for all register files exactly if the shader defines every register of the array;
  otherwise a refresh brings register `r` of the file to the element. -/
theorem relative_read_of_definition_iff (profile : Profile) (options : Options) {s : Shader}
    (hok : (LoweredShader.ofShader profile options s).isOk = true) {r n : Nat} {a : Int}
    {v : Quad Binary32} {u : Uniform}
    (hdef : ⟨r, .float v⟩ ∈ (LoweredShader.ofShader profile options s).constants)
    (hu : u ∈ (LoweredShader.ofShader profile options s).uniforms) (harray : 0 < u.arrayCount)
    (hn : u.covers n = true) (hr : u.covers r = true) (ha : (n : Int) + a = r) :
    let code := LoweredShader.ofShader profile options s
    let l := s.layout profile options (Annexes.ofShader s).symbols
    code.output = (writeShader l s.instructions).1 ∧ ReadsDefinition l r v ∧
    (∃ start, l.element? n 0 = some start ∧ StartsAt l n start) ∧
    (u.constant = true → HoldsDefinitions l code u) ∧
    ∃ e, l.element? n a = some e ∧
      ∀ (p : Device.LinkedProgram) (stage : Stage), p.Joins stage code →
        (∀ slot, e = .packed slot → p.BringsUp stage u (r - u.index) slot) ∧
        (u.InFile →
          ((∀ values files, p.Shapes values → Device.RegisterFiles.Sized files → ∀ lane < 4,
            WordsAgree .float (e.word code ((p.refresh files values).1.get stage) lane)
              (v.toList.getD lane .zero).bits) ↔
          ∀ m, u.covers m = true → s.Mentions (.defined .float m))) := by
  intro code l
  have hsound := s.sound_layout profile options (Annexes.ofShader s).symbols
  have hordered : l.survey.Ordered := Survey.ordered_ofInstructions _ _
  have hmem : u ∈ l.arrays := Layout.mem_arrays_of_mem_uniforms hu harray
  have hkind : u.kind = .float := hsound.kinds .float u (List.mem_filter.mp hmem).1
  have hlookup : l.survey.floatDefs.lookup r = some v :=
    hordered.floatDefs.lookup_eq_some_iff.mpr (Survey.mem_constants_float.mp hdef)
  have hconstant : u.constant = true ↔ ∀ m, u.covers m = true → s.Mentions (.defined .float m) := by
    obtain ⟨range, hcount, rfl⟩ := Layout.exists_range_of_mem_arrays hmem
    simp only [constant_arrayUniform_iff, covers_arrayUniform _ hcount,
      ← Shader.lists_iff_of_isOk hok]
    rfl
  obtain ⟨start, hstart⟩ : ∃ start, l.element? n 0 = some start :=
    ⟨_, by rw [Layout.element?, hsound.arrayOf?_eq_some hmem hn, Option.map_some]⟩
  refine ⟨LoweredShader.output_ofShader profile options s hok, readsDefinition_of_lookup hlookup,
    ⟨start, hstart, Layout.startsAt_of_element? hstart⟩,
    holdsDefinitions_ofShader profile options s hu harray, ?_⟩
  rw [← hconstant]
  cases hcases : u.constant with
  | true =>
    have hholds := holdsDefinitions_ofShader profile options s hu harray hcases
    refine ⟨_, hsound.element?_of_constant hmem hcases hn ha, fun p stage hp =>
      ⟨nofun, fun _ => iff_of_true (fun values files _ _ lane hlane => ?_) rfl⟩⟩
    have hrow := Quad.getElem?_flatMap_toList (hholds.rows r v hr hlookup) hlane
    rw [Element.word, hholds.values, List.getD_eq_getElem?_getD, hrow, List.getD_eq_getElem?_getD]
  | false =>
    obtain ⟨slot, helement, hpacked⟩ := hsound.element?_of_fed hmem hcases hn hr ha
    refine ⟨_, helement, fun p stage hp => ?_⟩
    have hbrings : p.BringsUp stage u (r - u.index) slot :=
      hp.bringsUp hpacked fun hbool => absurd (hkind.symm.trans hbool) (by decide)
    refine ⟨fun slot' hslot' => ?_, fun hfile => iff_of_false (fun halways => ?_) (by decide)⟩
    · obtain rfl := Element.packed.inj hslot'
      exact hbrings
    · exact hbrings.not_always hkind hfile hpacked.2.1 _ fun values files hvalues hfiles =>
        halways values files hvalues hfiles 0 (by decide)

/-- A vertex shader that defines the first register and reads the file through the address
register. -/
def definedPalette : Shader where
  version := ⟨.vertex, 1, 1⟩
  instructions :=
    [{ Instruction.marker 0 1 .defFloat with
        length := 6
        operands := [.dst ⟨⟨.const, 0, none⟩, .full⟩, .imm 0x3f800000, .imm 0x3f800000,
          .imm 0x3f800000, .imm 0x3f800000] },
      { Instruction.marker 1 7 .mov with
        length := 3
        operands := [.dst ⟨⟨.rastOut, 0, none⟩, .full⟩,
          .src ⟨⟨.const, 0, some ⟨.addr, 0, .x⟩⟩, .identity, .plain⟩] },
      .marker 2 10 .stop]

/-- In a program with this shader, an access that reaches the first register does not obtain the
definition for all register files. -/
theorem relative_read_of_definition_iff_palette :
    let code := LoweredShader.ofShader .glsl default definedPalette
    let l := definedPalette.layout .glsl default (Annexes.ofShader definedPalette).symbols
    ∃ e p, l.element? 3 (-3) = some e ∧ Device.LinkedProgram.Joins p .vertex code ∧
      ¬∀ values files, p.Shapes values → Device.RegisterFiles.Sized files → ∀ lane < 4,
        WordsAgree .float (e.word code ((p.refresh files values).1.get .vertex) lane)
          ((Quad.splat (Binary32.mk 0x3f800000)).toList.getD lane .zero).bits := by
  intro code l
  have hfloats : l.floats = [⟨.float, 0, 96, false⟩] := by cbv
  have hlayout : l = { l with floats := [⟨.float, 0, 96, false⟩] } := by rw [← hfloats]
  have hok : code.isOk = true := by
    rw [Shader.isOk_ofShader_iff]
    change _ ∧ _ ∧ (writeShader l _).2 = []
    rw [hlayout]
    decide +kernel
  have hu : ⟨.float, 0, 96, false⟩ ∈ code.uniforms := by
    change _ ∈ l.uniforms
    rw [Layout.uniforms, hfloats]
    simp
  obtain ⟨-, -, -, -, e, helement, hreads⟩ := relative_read_of_definition_iff .glsl default hok
    (r := 0) (n := 3) (a := -3) (v := .splat ⟨0x3f800000⟩) (by decide +kernel) hu (by decide)
    (by decide) (by decide) (by decide)
  obtain ⟨p, hjoins⟩ : ∃ p : Device.LinkedProgram, p.Joins .vertex code :=
    Device.LinkedProgram.exists_joins fun _ => rfl
  refine ⟨e, p, helement, hjoins, fun halways => ?_⟩
  have hdefined := ((hreads p .vertex hjoins).2 (by decide)).mp halways 1 (by decide)
  exact absurd hdefined (by decide)

end ShaderPipeline
