import ShaderPipeline.Proofs.Device.DefinedConstants

/-!
# Arrays of definitions

A range of float registers that the shader defines throughout is an array of its own. Assembly
declares it with its rows, and a program in the shading language is sent its rows when it is linked.
Both are the definitions of the registers in order, where the last definition of a register counts.
-/

namespace ShaderPipeline

open List Instruction

variable {profile : Profile} {options : Options} {s : Shader} {i : Instruction} {u : Uniform}

/-! ### The last definition -/

def Instruction.definition? (i : Instruction) : Option (Nat × Quad Binary32) :=
  if i.opcode = .defFloat then
    i.dst?.map fun d => (d.reg.index, (Quad.ofList 0 i.immediates).map Binary32.mk)
  else none

/-- The value of the last definition of a float register. -/
def Shader.definition? (s : Shader) (n : Nat) : Option (Quad Binary32) :=
  (s.instructions.filterMap Instruction.definition?).reverse.lookup n

theorem Instruction.defined_notMem_mentions (h : i.opcode.defines? = none) (kind : ValueKind)
    (n : Nat) : .defined kind n ∉ i.mentions := by
  rw [mentions, h]
  dsimp only
  split_ifs
  · exact not_mem_nil
  · rw [mem_append, not_or]
    constructor
    · cases i.bumpSampler? <;> simp
    · rintro hmem
      obtain ⟨r, -, hr⟩ := mem_filterMap.mp hmem
      unfold RegisterRef.mention? at hr
      split at hr
      · split_ifs at hr <;> cases hr
      all_goals cases hr

namespace Survey

variable {e : Surroundings} {v v' : Survey} {is : List Instruction}

/-- An instruction puts its own definition before those that are known. -/
theorem lookup_scan (h : (scan e i).run.run v = (.ok (), v')) (n : Nat) :
    v'.floatDefs.lookup n = (i.definition?.toList.lookup n).or (v.floatDefs.lookup n) := by
  rcases scan_cases e i with ⟨⟨kind, hi⟩, hscan⟩ | ⟨hnone, rest, hrest, hscan⟩ <;> rw [hscan] at h
  · obtain ⟨d, u, hcheck, h⟩ := run_run_bind_eq_ok.mp h
    cases hneed : i.needDst <;> rw [hneed] at hcheck <;> cases hcheck
    have hdst := dst?_of_needDst hneed
    rcases defines?_eq_some_iff.mp hi with ⟨hop, rfl⟩ | ⟨hop, rfl⟩ | ⟨hop, rfl⟩ <;>
      simp only [hop] at h <;> cases h
    · rw [definition?, if_pos hop, hdst, lookup_putAt]
      split_ifs with hn
      · simp [hn]
      · simp [lookup_cons, beq_eq_false_iff_ne.mpr hn]
    · simp [definition?, hop]
    · simp [definition?, hop]
  · obtain ⟨_, w, hflow, hrun⟩ := run_run_bind_eq_ok.mp h
    rw [run_noteFlow] at hflow
    obtain rfl := congrArg Prod.snd hflow
    have hkept := hrest.defs (i.defined_notMem_mentions hnone .float)
      { v with flow := (v.flow.step i).2 }
    have hplain : i.definition? = none := by
      rw [definition?, if_neg]
      exact fun hop => by rw [hop] at hnone; cases hnone
    rw [hrun] at hkept
    rw [hkept, hplain]
    rfl

/-- A survey without faults knows the last definition of each register. -/
theorem lookup_foldl {p : Progress} (h : (is.foldl (fun p i => p.run i (scan e i)) p).faults = [])
    (n : Nat) :
    (is.foldl (fun p i => p.run i (scan e i)) p).survey.floatDefs.lookup n =
      ((is.filterMap definition?).reverse.lookup n).or
        (p.survey.floatDefs.lookup n) := by
  induction is generalizing p with
  | nil => rfl
  | cons i rest ih =>
    obtain ⟨-, hrun⟩ := run_of_faults_eq_nil (lists_foldl (notes_scan e) rest h).1
    rw [foldl_cons, ih h, lookup_scan hrun, ← Option.or_assoc]
    congr 1
    cases hi : i.definition? with
    | none => simp [hi]
    | some d => simp [hi, lookup_append]

theorem lookup_ofInstructions (h : (ofInstructions e is).faults = []) (n : Nat) :
    (ofInstructions e is).survey.floatDefs.lookup n =
      (is.filterMap definition?).reverse.lookup n := by
  have hnone : (implicitOutput e (declarations e is ⟨[], .start⟩).survey).floatDefs.lookup n =
      none := Option.not_isSome_iff_eq_none.mp ((declared e is).2 (.defined .float n))
  have hall := lookup_foldl h n
  rw [hnone, Option.or_none] at hall
  exact hall

end Survey

/-! ### Arrays -/

variable {symbols : List Symbol}

theorem Layout.arrayCount_pos_of_constant {e : Surroundings} {v : Survey}
    (hu : u ∈ (ofSurvey e symbols v).uniforms) (hconstant : u.constant = true) :
    0 < u.arrayCount := by
  obtain ⟨kind, hkind⟩ := mem_uniforms.mp hu
  by_cases hfloat : kind = .float
  · subst hfloat
    rcases mem_merge.mp hkind with hsingle | hrange
    · obtain ⟨n, -, rfl⟩ := mem_map.mp hsingle
      cases hconstant
    · obtain ⟨range, hmem, rfl⟩ := mem_map.mp hrange
      exact count_pos_of_mem_relativeRanges _ _ _ hmem
  · obtain ⟨n, -, -, rfl⟩ := (mem_ofKind_ofSurvey hfloat).mp hkind
    cases hconstant

theorem Shader.lookup_floatDefs (hok : (LoweredShader.ofShader profile options s).isOk = true)
    (symbols : List Symbol) (n : Nat) :
    (s.layout profile options symbols).survey.floatDefs.lookup n = s.definition? n :=
  Survey.lookup_ofInstructions (Shader.faults_eq_nil_of_isOk hok) n

theorem Assembly.map_some_arrayRows (hok : (LoweredShader.ofShader profile options s).isOk = true)
    (hu : u ∈ (s.layout profile options symbols).arrays) (hconstant : u.constant = true) :
    (arrayRows (s.layout profile options symbols) u).map some =
      (range' u.index u.arrayCount).map s.definition? := by
  obtain ⟨range, hcount, rfl⟩ := Layout.exists_range_of_mem_arrays hu
  have hdefined := constant_arrayUniform_iff.mp hconstant
  rw [arrayRows, map_map]
  refine map_congr_left fun n hn => ?_
  have hrange := RegisterRange.contains_iff.mpr (mem_range'_1.mp hn)
  obtain ⟨v, hv⟩ := Option.isSome_iff_exists.mp (hdefined n hrange)
  have hlookup : (s.layout profile options symbols).survey.floatDefs.lookup n = some v := hv
  rw [← Shader.lookup_floatDefs hok symbols, Function.comp_apply, hlookup]
  rfl

/-- Assembly that is written without faults has declarations. -/
theorem Assembly.exists_header (hprofile : profile.isGlsl = false)
    (hok : (LoweredShader.ofShader profile options s).isOk = true) :
    ∃ lines, header (s.layout profile options (Annexes.ofShader s).symbols) = .ok lines := by
  have hfaults := (Shader.isOk_ofShader_iff.mp hok).2.2
  have hglsl : (s.layout profile options (Annexes.ofShader s).symbols).profile.isGlsl = false :=
    hprofile
  rw [writeShader, if_neg (by rw [hglsl]; decide)] at hfaults
  unfold ofInstructions at hfaults
  cases hheader : header (s.layout profile options (Annexes.ofShader s).symbols) with
  | ok lines => exact ⟨lines, rfl⟩
  | error fault =>
    rw [hheader] at hfaults
    cases hfaults

/-- For every shader that is lowered without faults and every uniform of it that is constant:

* it is a range of float registers; every register of it has a definition, and the rows of the
  array are the last definitions of the registers, in order;
* assembly declares the array with these rows, and a program in the shading language declares it
  under the same name and is sent these rows when it is linked;
* a register of the range takes no slot, and accesses that start there read the array. -/
theorem constant_arrays_hold_definitions (profile : Profile) (options : Options) {s : Shader}
    (hok : (LoweredShader.ofShader profile options s).isOk = true) {u : Uniform}
    (hu : u ∈ (LoweredShader.ofShader profile options s).uniforms) (hconstant : u.constant = true) :
    let code := LoweredShader.ofShader profile options s
    let l := s.layout profile options (Annexes.ofShader s).symbols
    code.output = (writeShader l s.instructions).1 ∧ u.kind = .float ∧ 0 < u.arrayCount ∧
      (Assembly.arrayRows l u).map some =
        (List.range' u.index u.arrayCount).map s.definition? ∧
      HoldsDefinitions l code u ∧
      .uniformArray "vec4" (u.name l.stage) u.arrayCount ∈ Glsl.header l ∧
      (profile.isGlsl = false → ∃ lines, Assembly.header l = .ok lines) ∧
      ∀ n, u.covers n = true → l.floatSlot? n = none ∧ StartsAt l n (.defined u (n - u.index)) := by
  intro code l
  have hsound := s.sound_layout profile options (Annexes.ofShader s).symbols
  have harray : 0 < u.arrayCount := Layout.arrayCount_pos_of_constant hu hconstant
  have hmem : u ∈ l.arrays := Layout.mem_arrays_of_mem_uniforms hu harray
  refine ⟨LoweredShader.output_ofShader profile options s hok,
    hsound.kinds .float u (List.mem_filter.mp hmem).1, harray,
    Assembly.map_some_arrayRows hok hmem hconstant,
    holdsDefinitions_ofShader profile options s hu harray hconstant, ?_,
    fun hprofile => Assembly.exists_header hprofile hok,
    fun n hn => ⟨hsound.floatSlot?_of_constant hmem hconstant hn, ?_⟩⟩
  · have hline : .uniformArray "vec4" (u.name l.stage) u.arrayCount ∈ Glsl.constantArrays l :=
      List.mem_map.mpr ⟨u, List.mem_filter.mpr ⟨hmem, hconstant⟩, rfl⟩
    simp only [Glsl.header, List.mem_append]
    tauto
  · exact Layout.startsAt_of_element? (hsound.element?_of_constant hmem hconstant hn (by simp))

/-- A pixel shader that defines all registers, the first one twice, and reads them through the
address register. -/
def definedFile : Shader where
  version := ⟨.pixel, 1, 4⟩
  instructions :=
    (0 :: List.range 8).mapIdx (fun k n => { Instruction.marker k (6 * k + 1) .defFloat with
      length := 6
      operands := .dst ⟨⟨.const, n, none⟩, .full⟩ ::
        List.replicate 4 (.imm (0x40000000 + k.toUInt32)) }) ++
    [{ Instruction.marker 9 55 .mov with
        length := 3
        operands := [.dst ⟨⟨.temp, 0, none⟩, .full⟩,
          .src ⟨⟨.const, 0, some ⟨.addr, 0, .x⟩⟩, .identity, .plain⟩] },
      .marker 10 58 .stop]

/-- The array has the second definition of the first register, and not the first one. -/
theorem constant_arrays_hold_definitions_file :
    let l := definedFile.layout .glsl default (Annexes.ofShader definedFile).symbols
    (Assembly.arrayRows l ⟨.float, 0, 8, true⟩).map some =
      (List.range 8).map fun n => some (.splat ⟨0x40000001 + n.toUInt32⟩) := by
  intro l
  have hfloats : l.floats = [⟨.float, 0, 8, true⟩] := by cbv
  have hlayout : l = { l with floats := [⟨.float, 0, 8, true⟩] } := by rw [← hfloats]
  have hok : (LoweredShader.ofShader .glsl default definedFile).isOk = true := by
    rw [Shader.isOk_ofShader_iff]
    change _ ∧ _ ∧ (writeShader l _).2 = []
    rw [hlayout]
    decide +kernel
  have hu : ⟨.float, 0, 8, true⟩ ∈ (LoweredShader.ofShader .glsl default definedFile).uniforms := by
    change _ ∈ l.uniforms
    rw [Layout.uniforms, hfloats]
    simp
  obtain ⟨-, -, -, hrows, -⟩ := constant_arrays_hold_definitions .glsl default hok hu rfl
  rw [hrows]
  decide +kernel

end ShaderPipeline
