import ShaderPipeline.Proofs.Assembly.Written
import ShaderPipeline.Proofs.Device.RegisterLimits

/-!
# The slots of bump environments

The text of a shader counts all samplers that are read through a bump environment, and a program
that is brought up to the registers counts those whose texture stage has one. Samplers are in order
of their numbers and only the first three stages after stage zero have an environment, so the counts
agree unless the shader reads sampler zero in this way. Then every environment stands where the text
reads the one before.
-/

namespace ShaderPipeline

open List LoweredShader Device.StageUniforms Assembly Annexes Glsl.Scope

/-! ### The samplers of a layout -/

namespace Layout

variable {l : Layout} {n : Nat}
theorem pairwise_bumpSamplers (h : l.survey.Ordered) : l.bumpSamplers.Pairwise (· < ·) :=
  (h.samplers.filter _).map _ fun _ _ hlt => hlt

theorem mem_bumpSamplers (h : l.survey.Ordered) :
    n ∈ l.bumpSamplers ↔ l.survey.Lists (.bump n) := by
  simp only [bumpSamplers, mem_map, mem_filter, Survey.Lists, Option.any_eq_true]
  constructor
  · rintro ⟨⟨m, u⟩, ⟨hmem, hbump⟩, rfl⟩
    exact ⟨u, h.samplers.lookup_eq_some_iff.mpr hmem, hbump⟩
  · rintro ⟨u, hlookup, hbump⟩
    exact ⟨(n, u), ⟨h.samplers.lookup_eq_some_iff.mp hlookup, hbump⟩, rfl⟩

theorem bumpSlot?_of_split {before after : List Nat}
    (hsplit : l.bumpSamplers = before ++ n :: after) (hn : n ∉ before) :
    l.bumpSlot? n = some (l.floatCount + 2 * before.length) := by
  have hindex : l.bumpSamplers.idxOf? n = some before.length := by
    rw [hsplit]
    have hnone : before.findIdx? (· == n) = none := by
      rw [findIdx?_eq_none_iff]
      intro m hm
      exact beq_eq_false_iff_ne.mpr fun heq => hn (heq ▸ hm)
    simp [idxOf?, findIdx?_append, findIdx?_cons, hnone]
  rw [bumpSlot?, hindex]
  rfl

end Layout

/-- A texture stage with a bump environment is found among such stages where it is among all of
them, or one place before if stage zero is one of them. -/
theorem getElem?_served {ns before after : List Nat} {n : Nat} (hns : ns.Pairwise (· < ·))
    (hsplit : ns = before ++ n :: after) (hn : 1 ≤ n ∧ n ≤ Device.bumpStageCount) :
    (served ns)[before.length - if 0 ∈ ns then 1 else 0]? = some n := by
  subst hsplit
  obtain ⟨hbefore, hafter, hacross⟩ := pairwise_append.mp hns
  have hbelow : ∀ m ∈ before, m < n := fun m hm => hacross m hm n mem_cons_self
  have hzero : 0 ∈ before ++ n :: after ↔ 0 ∈ before := by
    have habove : ∀ m ∈ after, n < m := (pairwise_cons.mp hafter).1
    simp only [mem_append, mem_cons]
    refine ⟨fun h => ?_, Or.inl⟩
    rcases h with h | h | h
    · exact h
    · omega
    · exact absurd (habove 0 h) (by omega)
  -- The only number below `n` without an environment is zero.
  have hskipped : before.countP (fun m => ¬(1 ≤ m ∧ m ≤ Device.bumpStageCount)) =
      if 0 ∈ before then 1 else 0 := by
    have hdistinct : before.Nodup := hbefore.imp Nat.ne_of_lt
    rw [← hdistinct.count, count]
    refine countP_congr fun m hm => ?_
    have := hbelow m hm
    simp
    omega
  have hlength : (served before).length =
      before.length - if 0 ∈ before ++ n :: after then 1 else 0 := by
    have hall := length_eq_countP_add_countP
      (fun m => decide (1 ≤ m ∧ m ≤ Device.bumpStageCount)) (l := before)
    rw [served, ← countP_eq_length_filter, if_congr hzero rfl rfl, ← hskipped, hall]
    simp
  rw [served, filter_append, filter_cons_of_pos (by simpa using hn), ← hlength, served,
    getElem?_append_right (Nat.le_refl _), Nat.sub_self]
  rfl

namespace Device

/-! ### Programs with bump environments -/

namespace LinkedProgram

/-- A refresh brings the bump environment of a texture stage to a slot and the one after it. -/
def HoldsBump (p : LinkedProgram) (n slot : Nat) : Prop :=
  ∀ values files, p.Shapes values → RegisterFiles.Sized files →
    files.bump.size = 6 * bumpStageCount → ∀ i < 8, WordsAgree .float
      (((p.refresh files values).1.get .pixel).word .float (4 * slot + i))
      ((files.bumpSlots n).getD i .zero).bits

def SendsSlot (p : LinkedProgram) (slot : Nat) : Prop :=
  ∀ values, p.Shapes values → ∀ integers (m : ParameterMemory), ∀ lane < 4,
    (m.after (p.assemblyUploads integers values)).cells .pixel (m.bound.get .pixel) slot lane =
      (values.get .pixel).word .float (4 * slot + lane)

variable {p : LinkedProgram} {code : LoweredShader} {values : PerStage StageUniforms}

theorem Joins.bumpCount (h : p.Joins .pixel code) : p.bumpCount = code.bumpCount := by
  have hwell := h.wellFormed
  obtain ⟨-, -, -, -, c, -, -, -, hc, rfl⟩ := h
  rw [hwell.bumpCount, show p.pixel = some c from hc]
  rfl

theorem Joins.slotsBefore_uniforms (h : p.Joins .pixel code) :
    slotsBefore p.uniforms .pixel .float = code.slots .float := by
  have hwell := h.wellFormed
  obtain ⟨-, -, -, -, c, -, -, -, hc, rfl⟩ := h
  rw [hwell.slotsBefore_uniforms, hc]
  rfl

theorem Joins.size_floats (h : p.Joins .pixel code) (hvalues : p.Shapes values) :
    (values.get .pixel).floats.size = 4 * (code.slots .float + 2 * code.bumpCount) := by
  obtain ⟨-, -, -, -, c, -, -, -, hc, rfl⟩ := h
  have hsize := hvalues .pixel .float
  rw [hc] at hsize
  simpa [StageUniforms.words, StageUniforms.ofShader?, StageUniforms.ofShader] using hsize

theorem Joins.bumpBase (h : p.Joins .pixel code) (hvalues : p.Shapes values) :
    (values.get .pixel).bumpBase p.bumpCount = code.slots .float := by
  rw [StageUniforms.bumpBase, h.size_floats hvalues, h.bumpCount]
  omega

theorem length_served_le (code : LoweredShader) :
    (StageUniforms.served ((code.samplers.filter (·.bump)).map (·.index))).length ≤
      code.bumpCount := by
  rw [LoweredShader.bumpCount, countP_eq_length_filter]
  exact (length_filter_le _ _).trans (length_map _).le

/-- The arrays of the pixel stage after a refresh. -/
theorem Joins.get_pixel_refresh (h : p.Joins .pixel code) (hpos : 0 < code.bumpCount)
    (hvalues : p.Shapes values) (files : RegisterFiles) :
    (p.refresh files values).1.get .pixel =
      (((p.walk files values).values.get .pixel).refreshBump files (4 * code.slots .float)
        (code.samplers.filter (·.bump))).1 := by
  rw [← h.bumpBase hvalues]
  rw [← h.bumpCount] at hpos
  obtain ⟨-, -, -, -, c, -, -, -, hc, rfl⟩ := h
  exact LinkedProgram.get_pixel_refresh hc hpos

/-- Registers that are zero but for one bump environment. -/
def onlyBump (n : Nat) : RegisterFiles := RegisterFiles.zero.setBump n (List.replicate 6 ⟨1⟩)

theorem bumpSlots_onlyBump {n m : Nat} (hn : 1 ≤ n ∧ n ≤ bumpStageCount)
    (hm : 1 ≤ m ∧ m ≤ bumpStageCount) :
    (((onlyBump n).bumpSlots m).getD 0 .zero).bits = if m = n then 1 else 0 := by
  obtain ⟨hn₁, hn₃⟩ := hn
  obtain ⟨hm₁, hm₃⟩ := hm
  simp only [bumpStageCount] at hn₃ hm₃
  interval_cases n <;> interval_cases m <;> rfl

theorem size_bump_onlyBump (n : Nat) : (onlyBump n).bump.size = 6 * bumpStageCount := by
  simp [onlyBump, RegisterFiles.setBump, RegisterFiles.zero]

theorem word_blank (p : LinkedProgram) (stage : Stage) (i : Nat) :
    (p.blank.get stage).word .float i = 0 := by
  have hzero : ∀ c : Option CompiledShader, (StageUniforms.ofShader? c).word .float i = 0 := by
    intro c
    cases c with
    | none => rfl
    | some c =>
      simp only [StageUniforms.ofShader?, StageUniforms.ofShader, StageUniforms.word,
        StageUniforms.words, Array.toList_replicate, map_replicate,
        getD_eq_getElem?_getD, getElem?_replicate]
      split_ifs <;> rfl
  cases stage with
  | vertex => exact hzero p.vertex
  | pixel => exact hzero p.pixel

theorem Joins.holdsBump_iff (h : p.Joins .pixel code) (hpos : 0 < code.bumpCount) {n j : Nat}
    (hn : 1 ≤ n ∧ n ≤ bumpStageCount) :
    p.HoldsBump n (code.slots .float + 2 * j) ↔
      (StageUniforms.served ((code.samplers.filter (·.bump)).map (·.index)))[j]? = some n := by
  have hplace (i : Nat) :
      4 * (code.slots .float + 2 * j) + i = 4 * code.slots .float + 8 * j + i := by
    omega
  have hserved := length_served_le code
  constructor
  · intro hholds
    have hvalues := p.shapes_blank
    have hfiles : (onlyBump n).Sized := RegisterFiles.sized_zero.setBump n _
    have hword := hholds _ _ hvalues hfiles (size_bump_onlyBump n) 0 (by omega)
    rw [h.get_pixel_refresh hpos hvalues, hplace, bumpSlots_onlyBump hn hn, if_pos rfl] at hword
    -- What is there is a one; only the environment of the stage itself has ones.
    cases hj : (StageUniforms.served ((code.samplers.filter (·.bump)).map (·.index)))[j]? with
    | none =>
      have hbehind := getElem?_eq_none_iff.mp hj
      rw [StageUniforms.word_refreshBump_of_ge _ (size_bump_onlyBump n) (by omega),
        word_walk_of_le, word_blank] at hword
      · exact absurd hword.symm not_wordsAgree_one_zero
      · rw [h.slotsBefore_uniforms]
        exact (Nat.le_add_right _ _).trans (Nat.le_add_right _ _)
    | some m =>
      have hm : 1 ≤ m ∧ m ≤ bumpStageCount := by
        simpa using (mem_filter.mp (mem_of_getElem? hj)).2
      have hroom' : 4 * code.slots .float +
          8 * (StageUniforms.served ((code.samplers.filter (·.bump)).map (·.index))).length ≤
          ((p.walk (onlyBump n) p.blank).values.get .pixel).floats.size := by
        rw [size_floats_walk, h.size_floats hvalues]
        omega
      have hother := StageUniforms.wordsAgree_refreshBump (size_bump_onlyBump n)
        hroom' hj (i := 0) (by omega)
      rw [bumpSlots_onlyBump hn hm] at hother
      by_contra hne
      rw [if_neg fun heq => hne (congrArg some heq)] at hother
      exact not_wordsAgree_one_zero (hword.symm.trans hother)
  · intro hj values files hvalues hfiles hsize i hi
    rw [h.get_pixel_refresh hpos hvalues, hplace]
    refine StageUniforms.wordsAgree_refreshBump hsize ?_ hj hi
    rw [size_floats_walk, h.size_floats hvalues]
    omega

/-- One call sends a slot of bump environments, and those after it leave its parameter alone. -/
theorem bumpUploads_split (v : StageUniforms) {count slot : Nat} (hbase : v.bumpBase count ≤ slot)
    (hlt : slot < v.floats.size / 4) :
    ∃ first last, bumpUploads v count = first ++
        .localParameter4fv (programTarget .pixel) slot (quadAt .zero v.floats (4 * slot)) :: last ∧
      ParameterMemory.Avoids (fun s i => s = .pixel ∧ i = slot) last := by
  have hmem : slot ∈ range' (v.bumpBase count) (v.floats.size / 4 - v.bumpBase count) :=
    mem_range'_1.mpr ⟨hbase, by omega⟩
  obtain ⟨first, last, hsplit⟩ := append_of_mem hmem
  have hlater : ∀ k ∈ last, slot < k := by
    have hsorted := pairwise_lt_range' (s := v.bumpBase count)
      (n := v.floats.size / 4 - v.bumpBase count)
    rw [hsplit] at hsorted
    exact (pairwise_cons.mp (pairwise_append.mp hsorted).2.1).1
  refine ⟨_, _, by rw [bumpUploads, hsplit, map_append, map_cons]; rfl, fun c hc => ?_⟩
  obtain ⟨k, hk, rfl⟩ := mem_map.mp hc
  refine ⟨.pixel, k, _, parameter?_float .pixel k _, fun hsame => ?_⟩
  exact absurd (hlater k hk) (by omega)

theorem Joins.sendsSlot (h : p.Joins .pixel code) {slot : Nat} (hslot : code.slots .float ≤ slot)
    (hlt : slot < code.slots .float + 2 * code.bumpCount) : p.SendsSlot slot := by
  intro values hvalues integers m lane hlane
  have hsize : values.pixel.floats.size = _ := h.size_floats hvalues
  have hbase : values.pixel.bumpBase p.bumpCount = _ := h.bumpBase hvalues
  have hcount := h.bumpCount
  obtain ⟨first, last, hsplit, hlast⟩ := bumpUploads_split values.pixel (hbase.trans_le hslot)
    (by omega)
  have hall := p.avoids_assemblyUploads integers values
  have huploads : p.assemblyUploads integers values =
      (uniformUploads integers values none 0 .start p.uniforms ++ first) ++
        .localParameter4fv (programTarget .pixel) slot
          (quadAt .zero values.pixel.floats (4 * slot)) :: last := by
    rw [assemblyUploads, if_pos (by omega), hsplit, append_assoc]
  have hfirst : ParameterMemory.Avoids (fun _ _ => False)
      (uniformUploads integers values none 0 .start p.uniforms ++ first) :=
    fun c hc => hall c (by rw [huploads]; exact mem_append_left _ hc)
  rw [huploads, ParameterMemory.cells_after_last (parameter?_float .pixel slot _) hfirst hlast]
  refine word_quadAt values.pixel hlane ?_
  simp only [StageUniforms.words, length_map, Array.length_toList]
  omega

end LinkedProgram

end Device

/-! ### The text of a shader -/

/-- An expression stands somewhere in another one. -/
inductive Glsl.Expr.Within (x : Glsl.Expr) : Glsl.Expr → Prop
  | self : Within x x
  | select {e : Glsl.Expr} {cs : List Component} : Within x e → Within x (.select e cs)
  | paren {e : Glsl.Expr} : Within x e → Within x (.paren e)
  | neg {e : Glsl.Expr} : Within x e → Within x (.neg e)
  | not {e : Glsl.Expr} : Within x e → Within x (.not e)
  | left {op : Glsl.Operator} {a b : Glsl.Expr} : Within x a → Within x (.binary op a b)
  | right {op : Glsl.Operator} {a b : Glsl.Expr} : Within x b → Within x (.binary op a b)
  | argument {f : Glsl.Builtin} {args : List Glsl.Expr} {e : Glsl.Expr} :
    e ∈ args → Within x e → Within x (.call f args)

def Glsl.Scope.row (s : Glsl.Scope) (slot : Nat) : Glsl.Expr :=
  .name s!"{s.tag}_uniforms_vec4[{slot}]"

def Assembly.ReadsRow (l : Layout) (slot : Nat) (lines : List Assembly.Line) : Prop :=
  ∃ line ∈ lines, ∃ negate cs,
    .read negate (.named s!"{l.tag}_uniforms[{slot}]") cs ∈ line.operands

/-- The text of an instruction reads a bump matrix at a slot, and the luminance pair, if it uses it,
at the slot after it. -/
structure ReadsBump (l : Layout) (i : Instruction) (slot : Nat) : Prop where
  value : ∀ loops e, (Glsl.Scope.mk l loops).value i = .ok e →
    ((Glsl.Scope.mk l loops).row slot).Within e ∧
      (i.opcode = .texBemL → ((Glsl.Scope.mk l loops).row (slot + 1)).Within e)
  lines : ∀ lines, Assembly.instructionLines l i = .ok lines →
    Assembly.ReadsRow l slot lines ∧
      (i.opcode = .texBemL → Assembly.ReadsRow l (slot + 1) lines)

section Text

variable {l : Layout} {i : Instruction} {d : Destination} {slot : Nat}

theorem Glsl.Scope.within_of_sample {s : Glsl.Scope} {n : Nat} {coord e x : Glsl.Expr}
    (h : s.sample n coord .plain = .ok e) (hx : x.Within coord) : x.Within e := by
  obtain ⟨kind, -, h⟩ := bind_eq_ok.mp h
  obtain ⟨f, -, h⟩ := bind_eq_ok.mp h
  obtain rfl := Except.ok.inj h
  exact .argument (e := coord.pick (coordinates kind)) (by simp) (.select (.paren hx))

theorem Glsl.Scope.within_of_bump {s : Glsl.Scope} {e : Glsl.Expr} (hd : i.needDst = .ok d)
    (hslot : s.layout.bumpSlot? d.reg.index = some slot) (he : s.bump i = .ok e) :
    (s.row slot).Within e ∧ (i.opcode ≠ .texBem → (s.row (slot + 1)).Within e) := by
  obtain ⟨d', hd', he⟩ := bind_eq_ok.mp he
  obtain rfl := Except.ok.inj (hd.symm.trans hd')
  obtain ⟨src, -, he⟩ := bind_eq_ok.mp he
  rw [hslot] at he
  obtain ⟨v, hv, he⟩ := bind_eq_ok.mp he
  have hmatrix : (s.row slot).Within v := by
    refine within_of_sample hv (.argument mem_cons_self (.right ?_))
    exact .argument mem_cons_self
      (.argument (mem_cons_of_mem _ mem_cons_self) (.select .self))
  split_ifs at he with hop
  · obtain rfl := Except.ok.inj he
    exact ⟨hmatrix, fun h => absurd hop h⟩
  · obtain rfl := Except.ok.inj he
    refine ⟨.paren (.left hmatrix), fun _ => .paren (.right ?_)⟩
    refine .argument mem_cons_self (.argument mem_cons_self
      (.argument mem_cons_self (.right (.select .self))))

theorem Assembly.writes_bump (hd : i.needDst = .ok d)
    (hslot : l.bumpSlot? d.reg.index = some slot) :
    Writes (bump l i) fun _ new =>
      ReadsRow l slot new ∧ (i.opcode ≠ .texBem → ReadsRow l (slot + 1) new) := by
  refine writes_liftM_bind fun d' hd' => ?_
  obtain rfl := Except.ok.inj (hd.symm.trans hd')
  refine (writes_sourceAt 0).bind fun v first _ => ?_
  rw [hslot]
  refine writes_liftM_bind fun texture _ => ?_
  refine writes_emit_bind (writes_emit_bind ?_)
  split_ifs with hop
  · refine (writes_store _ _).mono fun _ new _ => ⟨?_, fun hother => absurd hop hother⟩
    exact ⟨_, mem_append_right _ mem_cons_self, false, _, mem_cons_of_mem _ mem_cons_self⟩
  · refine writes_emit_bind (writes_line_bind (writes_emit_bind ?_))
    refine (writes_store _ _).mono fun _ new _ => ⟨?_, fun _ => ?_⟩
    · exact ⟨_, mem_append_right _ mem_cons_self, false, _, mem_cons_of_mem _ mem_cons_self⟩
    · exact ⟨_, mem_append_right _ (mem_cons_of_mem _ (mem_cons_of_mem _
        (mem_cons_of_mem _ mem_cons_self))), false, _,
        mem_cons_of_mem _ mem_cons_self⟩

theorem readsBump_of_bumpSlot? {n : Nat} (hi : i.bumpSampler? = some n)
    (hslot : l.bumpSlot? n = some slot) : ReadsBump l i slot := by
  obtain ⟨hop, d, hd, rfl⟩ : Survey.isBump i.opcode = true ∧ ∃ d, i.needDst = .ok d ∧
      d.reg.index = n := by
    unfold Instruction.bumpSampler? at hi
    split_ifs at hi with hop
    obtain ⟨d, hd, rfl⟩ := Option.map_eq_some_iff.mp hi
    exact ⟨hop, d, by rw [Instruction.needDst, hd], rfl⟩
  have hcases : i.opcode = .texBem ∨ i.opcode = .texBemL := by
    cases h : i.opcode <;> simp_all [Survey.isBump]
  constructor
  · intro loops e he
    have hbump : (mk l loops).value i = (mk l loops).bump i := by
      rcases hcases with h | h <;> simp [value, h]
    obtain ⟨hmatrix, hluminance⟩ := within_of_bump hd hslot (hbump.symm.trans he)
    exact ⟨hmatrix, fun h => hluminance (by simp [h])⟩
  · intro lines hlines
    have hbump : writeInstruction l i = bump l i := by
      rcases hcases with h | h <;>
        simp [writeInstruction, vectorOperation?, scalarOperation?, expanded, h]
    obtain ⟨hmatrix, hluminance⟩ :=
      (hbump ▸ writes_bump hd hslot).instructionLines hlines
    exact ⟨hmatrix, fun h => hluminance (by simp [h])⟩

end Text

/-! ### Both counts -/

section Agreement

variable {profile : Profile} {options : Options} {s : Shader}

theorem Shader.slots_float_ofShader :
    (ofShader profile options s).slots .float =
      (s.layout profile options (ofShader s).symbols).floatCount := by
  have hsound := s.sound_layout profile options (ofShader s).symbols
  have huniforms : (ofShader profile options s).uniforms =
      (s.layout profile options (ofShader s).symbols).uniforms := rfl
  rw [slots, huniforms, hsound.filter_uniforms]
  rfl

theorem Shader.bumpSamplers_ofShader :
    ((ofShader profile options s).samplers.filter (·.bump)).map (·.index) =
      (s.layout profile options (ofShader s).symbols).bumpSamplers := by
  have hsamplers : (ofShader profile options s).samplers =
      (s.layout profile options (ofShader s).symbols).survey.samplers.map
        fun e => ⟨e.2.kind, e.1, e.2.bump⟩ := rfl
  rw [hsamplers, filter_map, map_map]
  rfl

theorem Shader.bumpCount_ofShader :
    (ofShader profile options s).bumpCount =
      (s.layout profile options (ofShader s).symbols).bumpSamplers.length := by
  rw [bumpCount, countP_eq_length_filter, ← bumpSamplers_ofShader, length_map]

end Agreement

/-- For every shader that is lowered without faults and every sampler of it that is read through the
bump environment of a texture stage:

* the text of the instructions that do so reads the environment at the slot of the sampler;
* what stands at this slot and the next is sent to the local parameters of the same numbers;
* a refresh of any program with the shader brings the environment there exactly if the shader does
  not read sampler zero through a bump environment; otherwise it stands two slots before. -/
theorem bump_environments_agree_iff (profile : Profile) (options : Options) {s : Shader}
    (hok : (LoweredShader.ofShader profile options s).isOk = true) {n : Nat}
    (hn : 1 ≤ n ∧ n ≤ Device.bumpStageCount) (hbump : s.Mentions (.bump n)) :
    let code := LoweredShader.ofShader profile options s
    let l := s.layout profile options (Annexes.ofShader s).symbols
    code.output = (writeShader l s.instructions).1 ∧
    ∃ slot, l.bumpSlot? n = some slot ∧
      (∀ i, i.bumpSampler? = some n → ReadsBump l i slot) ∧
      ∀ p : Device.LinkedProgram, p.Joins .pixel code →
        p.SendsSlot slot ∧ p.SendsSlot (slot + 1) ∧
        (p.HoldsBump n slot ↔ ¬s.Mentions (.bump 0)) ∧
        (s.Mentions (.bump 0) → 2 ≤ slot ∧ p.HoldsBump n (slot - 2)) := by
  intro code l
  refine ⟨LoweredShader.output_ofShader profile options s hok, ?_⟩
  have hordered : l.survey.Ordered := Survey.ordered_ofInstructions _ _
  have hmem (m : Nat) : m ∈ l.bumpSamplers ↔ s.Mentions (.bump m) :=
    (Layout.mem_bumpSamplers hordered).trans (Shader.lists_iff_of_isOk hok _)
  have hsorted := Layout.pairwise_bumpSamplers hordered
  obtain ⟨before, after, hsplit⟩ := List.append_of_mem ((hmem n).mpr hbump)
  have hplace := getElem?_served hsorted hsplit hn
  have hnew : n ∉ before := by
    rw [hsplit] at hsorted
    intro h
    exact absurd ((List.pairwise_append.mp hsorted).2.2 n h n List.mem_cons_self) (lt_irrefl n)
  have hslot := Layout.bumpSlot?_of_split hsplit hnew
  have hcount : code.bumpCount = before.length + (after.length + 1) := by
    rw [Shader.bumpCount_ofShader, hsplit, List.length_append, List.length_cons]
  refine ⟨_, hslot, fun i hi => readsBump_of_bumpSlot? hi hslot, fun p hp => ?_⟩
  have hfloats : code.slots .float = l.floatCount := Shader.slots_float_ofShader
  refine ⟨hp.sendsSlot (by omega) (by omega), hp.sendsSlot (by omega) (by omega), ?_⟩
  have hholds (j : Nat) : p.HoldsBump n (l.floatCount + 2 * j) ↔
      (Device.StageUniforms.served l.bumpSamplers)[j]? = some n := by
    rw [← hfloats, hp.holdsBump_iff (by omega) hn, Shader.bumpSamplers_ofShader]
  rw [hholds, ← hmem]
  by_cases hzero : 0 ∈ l.bumpSamplers
  · rw [if_pos hzero] at hplace
    have hpos : 0 < before.length := by
      refine List.length_pos_iff.mpr fun hnone => ?_
      rw [hsplit, hnone, List.nil_append] at hzero hsorted
      rcases List.mem_cons.mp hzero with h | h
      · omega
      · exact absurd ((List.pairwise_cons.mp hsorted).1 0 h) (by omega)
    -- The environment of `n` has one place only, and that is the one before.
    have hother : (Device.StageUniforms.served l.bumpSamplers)[before.length]? ≠ some n := by
      intro heq
      have hdistinct : (Device.StageUniforms.served l.bumpSamplers).Nodup :=
        (hsorted.imp Nat.ne_of_lt).filter _
      have hsame := (List.getElem?_inj (List.getElem?_eq_some_iff.mp hplace).1 hdistinct).mp
        (hplace.trans heq.symm)
      omega
    have hback : l.floatCount + 2 * before.length - 2 = l.floatCount + 2 * (before.length - 1) := by
      omega
    refine ⟨iff_of_false hother (not_not_intro hzero), fun _ => ⟨by omega, ?_⟩⟩
    rw [hback, hholds]
    exact hplace
  · rw [if_neg hzero, Nat.sub_zero] at hplace
    exact ⟨iff_of_true hplace hzero, fun h => absurd h hzero⟩

/-- A pixel shader that reads two samplers through bump environments, the first of them sampler
zero. -/
def twoBumps : Shader where
  version := ⟨.pixel, 1, 1⟩
  instructions :=
    let load (index position n : Nat) : Instruction :=
      { Instruction.marker index position .texBem with
        length := 3
        operands := [.dst ⟨⟨.texture, n, none⟩, .full⟩,
          .src ⟨⟨.texture, 0, none⟩, .identity, .plain⟩] }
    [load 0 1 0, load 1 4 1, .marker 2 7 .stop]

/-- A program with this shader holds the environment of the first texture stage two slots before the
one that the text reads. -/
theorem bump_environments_agree_iff_two_bumps :
    ∃ slot, (twoBumps.layout .glsl default (Annexes.ofShader twoBumps).symbols).bumpSlot? 1 =
        some slot ∧
      ∃ p : Device.LinkedProgram, p.Joins .pixel (.ofShader .glsl default twoBumps) ∧
        ¬p.HoldsBump 1 slot ∧ p.HoldsBump 1 (slot - 2) := by
  have hok : (LoweredShader.ofShader .glsl default twoBumps).isOk = true := by decide +kernel
  obtain ⟨-, slot, hslot, -, hholds⟩ := bump_environments_agree_iff .glsl default hok (n := 1)
    (by decide) (by decide)
  obtain ⟨p, hjoins⟩ : ∃ p : Device.LinkedProgram,
      p.Joins .pixel (.ofShader .glsl default twoBumps) :=
    Device.LinkedProgram.exists_joins nofun
  obtain ⟨-, -, hiff, hback⟩ := hholds p hjoins
  have hzero : twoBumps.Mentions (.bump 0) := by decide
  exact ⟨slot, hslot, p, hjoins, fun h => hiff.mp h hzero, (hback hzero).2⟩

end ShaderPipeline
