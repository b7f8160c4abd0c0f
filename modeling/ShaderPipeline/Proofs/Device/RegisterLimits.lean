import Mathlib
import ShaderPipeline.Proofs.Bytecode.Decoded
import ShaderPipeline.Proofs.Device.PackedLayout

/-!
# Registers that the files do not have

A shader may name integer and boolean registers that the files of a device do not have, and a symbol
of its constant table may let a relative access reach past the end of the float file. In all other
cases the uniforms of a shader are in the register files, since no operand has a number above 2047.
A uniform that is not in its file is never brought up to the registers.
-/

namespace ShaderPipeline

open Option List LoweredShader ShaderPipeline.Uniform

variable {n : Nat} {symbols : List Symbol} {u : Uniform} {kind : ValueKind} {p : LinkedProgram}
  {code : LoweredShader}

/-! ### Numbers of registers -/

def Mention.number : Mention → Nat
  | .used _ n | .relative n | .defined _ n | .bump n => n

theorem RegisterRef.index_of_mention? {r : RegisterRef} {x : Mention} (h : r.mention? = some x) :
    r.index = x.number := by
  unfold mention? at h
  split at h
  · obtain rfl := some.inj h
    split_ifs <;> rfl
  · obtain rfl := some.inj h
    rfl
  · obtain rfl := some.inj h
    rfl
  · cases h

namespace Instruction

variable {v : Version} {i : Instruction}

theorem mem_operands_of_dst? {d : Destination} (h : i.dst? = some d) : .dst d ∈ i.operands := by
  obtain ⟨o, ho, hd⟩ := exists_of_findSome?_eq_some h
  cases o with
  | dst d' =>
    obtain rfl := some.inj hd
    exact ho
  | src s => cases hd
  | imm w => cases hd

theorem mem_operands_of_src? {s : Source} (h : i.src? n = some s) : .src s ∈ i.operands := by
  obtain ⟨o, ho, hs⟩ := mem_filterMap.mp (mem_of_getElem? h)
  cases o with
  | src s' =>
    obtain rfl := some.inj hs
    exact ho
  | dst d => cases hs
  | imm w => cases hs

theorem extraRows_le (op : Opcode) : op.extraRows ≤ 3 := by
  unfold Opcode.extraRows
  split <;> decide

/-- Only the further rows of a matrix are beyond the largest register that an operand can name. -/
theorem WellFormed.index_le (h : i.WellFormed v) {r : RegisterRef} (hr : r ∈ i.registers) :
    r.index ≤ 2050 := by
  have hnamed : ∀ {r : RegisterRef}, r.WellFormed v → r.index ≤ 2047 := fun {r} hr =>
    Nat.le_of_lt_succ (lt_of_le_of_lt hr.index r.file.maxIndex_lt)
  simp only [registers, mem_append, mem_toList, map_eq_some_iff, mem_filterMap] at hr
  rcases hr with (⟨s, hs, rfl⟩ | ⟨o, ho, hr⟩) | hr
  · exact le_trans (hnamed (h.predicate s hs).2) (by decide)
  · have hwell := h.operands o ho
    cases o with
    | dst d =>
      obtain rfl := some.inj hr
      exact le_trans (hnamed hwell.1) (by decide)
    | src s =>
      obtain rfl := some.inj hr
      exact le_trans (hnamed hwell) (by decide)
    | imm w => cases hr
  · unfold Survey.impliedReads at hr
    split at hr
    · cases hr
    · next s hs =>
      obtain ⟨k, hk, rfl⟩ := mem_map.mp hr
      have hrow := lt_of_lt_of_le (mem_range.mp hk) (extraRows_le i.opcode)
      have hfirst := hnamed (h.operands _ (mem_operands_of_src? hs))
      simp only [RegisterRef.shift]
      omega

theorem WellFormed.number_le (h : i.WellFormed v) {x : Mention} (hx : x ∈ i.mentions) :
    x.number ≤ 2050 := by
  have hdst : ∀ {d : Destination}, i.dst? = some d → d.reg.index ≤ 2050 := by
    intro d hd
    have hwell := h.operands _ (mem_operands_of_dst? hd)
    have hmax := d.reg.file.maxIndex_lt
    exact le_trans hwell.1.index (by omega)
  unfold mentions at hx
  split at hx
  · obtain ⟨d, hd, rfl⟩ := mem_map.mp (mem_toList.mp hx)
    exact hdst hd
  · split_ifs at hx
    · cases hx
    · rcases mem_append.mp hx with hx | hx
      · obtain ⟨n, hn, rfl⟩ := mem_map.mp (mem_toList.mp hx)
        unfold bumpSampler? at hn
        split_ifs at hn
        · obtain ⟨d, hd, rfl⟩ := mem_map.mp hn
          exact hdst hd
        · cases hn
      · obtain ⟨r, hr, hx⟩ := mem_filterMap.mp hx
        rw [← RegisterRef.index_of_mention? hx]
        exact h.index_le hr

end Instruction

/-! ### Uniforms of a shader -/

def boundingSymbol? (symbols : List Symbol) (n : Nat) : Option Symbol :=
  symbols.find? fun s => s.registerSet == .float4 && s.covers n

theorem accessedRange_of_boundingSymbol? {v : Version} {s : Symbol}
    (h : boundingSymbol? symbols n = some s) : accessedRange v symbols n = ⟨s.index, s.count⟩ := by
  unfold boundingSymbol? at h
  rw [accessedRange, h]

/-- Without a symbol an access may reach what the shader model can address. -/
theorem lt_of_contains_accessedRange {v : Version} {m : Nat}
    (h : boundingSymbol? symbols n = none) (hn : n ≤ 2050)
    (hm : (accessedRange v symbols n).contains m = true) : m < registerCount .float := by
  have hmodel : v.floatRegisters ≤ 256 := by
    unfold Version.floatRegisters
    split <;> decide
  unfold boundingSymbol? at h
  rw [accessedRange, h, RegisterRange.contains_iff] at hm
  dsimp only at hm
  simp only [registerCount, Device.floatRegisterCount]
  omega

theorem Uniform.inFile_iff : u.InFile ↔ ∀ n, u.covers n = true → n < registerCount u.kind := by
  simp only [InFile, covers_iff]
  refine ⟨fun h n hn => by omega, fun h => ?_⟩
  have hpos : 0 < u.width := by
    unfold width
    omega
  have := h (u.index + u.width - 1) (by omega)
  omega

variable {profile : Profile} {options : Options} {s : Shader}

/-- A shader is lowered without faults if its comments are read, its instructions surveyed and its
text written without any. -/
theorem Shader.isOk_ofShader_iff :
    (ofShader profile options s).isOk = true ↔
      (Annexes.ofShader s).diagnostics = [] ∧
      (Survey.ofInstructions ⟨s.version, profile, options⟩ s.instructions).allFaults = [] ∧
      (writeShader (s.layout profile options (Annexes.ofShader s).symbols) s.instructions).2 =
        [] := by
  rw [isOk, List.isEmpty_iff]
  simp only [ofShader, append_eq_nil_iff, map_eq_nil_iff, reverse_eq_nil_iff, and_assoc]
  refine and_congr_right fun hannexes => and_congr_right fun hfaults => ?_
  rw [hannexes, hfaults]
  exact Iff.rfl

/-- A shader that is lowered without faults is surveyed without faults. -/
theorem Shader.faults_eq_nil_of_isOk
    (hok : (ofShader profile options s).isOk = true) :
    (Survey.ofInstructions ⟨s.version, profile, options⟩ s.instructions).faults = [] := by
  have hnone := (isOk_ofShader_iff.mp hok).2.1
  simp only [Survey.Progress.allFaults, append_eq_nil_iff, map_eq_nil_iff,
    reverse_eq_nil_iff] at hnone
  exact hnone.1.1

theorem Shader.lists_iff_of_isOk (hok : (ofShader profile options s).isOk = true)
    (x : Mention) :
    (Survey.ofInstructions ⟨s.version, profile, options⟩ s.instructions).survey.Lists x ↔
      s.Mentions x :=
  Survey.lists_ofInstructions (Shader.faults_eq_nil_of_isOk hok) x

section Fits

variable {l : Layout}

theorem Layout.mem_uniforms : u ∈ l.uniforms ↔ ∃ kind, u ∈ l.ofKind kind := by
  simp only [uniforms, mem_append]
  constructor
  · rintro ((h | h) | h)
    · exact ⟨.float, h⟩
    · exact ⟨.int, h⟩
    · exact ⟨.bool, h⟩
  · rintro ⟨_ | _ | _, h⟩
    · exact Or.inl (Or.inl h)
    · exact Or.inl (Or.inr h)
    · exact Or.inr h

variable {e : Surroundings} {symbols : List Symbol} {v : Survey}

/-- Integer and boolean uniforms are the registers that are used and not defined. -/
theorem Layout.mem_ofKind_ofSurvey (hkind : kind ≠ .float) :
    u ∈ (ofSurvey e symbols v).ofKind kind ↔
      ∃ n, v.Lists (.used kind n) ∧ ¬v.Lists (.defined kind n) ∧ single kind n = u := by
  cases kind with
  | float => exact absurd rfl hkind
  | int =>
    simp only [ofKind, ofSurvey, intUniforms, List.mem_map, mem_filter, Survey.Lists,
      isNone_iff_eq_none, not_isSome_iff_eq_none, and_assoc]
  | bool =>
    simp only [ofKind, ofSurvey, boolUniforms, List.mem_map, mem_filter, Survey.Lists,
      isNone_iff_eq_none, not_isSome_iff_eq_none, and_assoc]

theorem Uniform.inFile_single : (single kind n).InFile ↔ n < registerCount kind :=
  Iff.rfl

/-- Singles of the layout of a survey are in the file if their numbers are. -/
theorem Layout.inFile_ofKind_iff (hkind : kind ≠ .float) :
    (∀ u ∈ (ofSurvey e symbols v).ofKind kind, u.constant = false → u.InFile) ↔
      ∀ n, v.Lists (.used kind n) → ¬v.Lists (.defined kind n) → n < registerCount kind := by
  simp only [mem_ofKind_ofSurvey hkind]
  constructor
  · intro h n hused hdefined
    exact inFile_single.mp (h _ ⟨n, hused, hdefined, rfl⟩ rfl)
  · rintro h u ⟨n, hused, hdefined, rfl⟩ -
    exact inFile_single.mpr (h n hused hdefined)

/-- Floats of the layout of a survey are in the file if every symbol that bounds an access is,
provided that no entry has a large number. -/
theorem Layout.inFile_floats_iff (hv : ∀ x, v.Lists x → x.number ≤ 2050) :
    (∀ u ∈ (ofSurvey e symbols v).floats, u.constant = false → u.InFile) ↔
      ∀ n symbol, v.Lists (.relative n) → boundingSymbol? symbols n = some symbol →
        symbol.index + symbol.count ≤ registerCount .float := by
  have hlow : ∀ x, v.Lists x → x.number < registerCount .float := fun x hx =>
    lt_of_le_of_lt (hv x hx) (by decide)
  constructor
  · intro h n symbol hn hsymbol
    have hrange := accessedRange_of_boundingSymbol? (v := e.version) hsymbol
    have hpos := count_pos_accessedRange e.version symbols n
    rw [hrange] at hpos
    dsimp only at hpos
    -- The last register that the access may reach is in one of the arrays.
    have hlast : (accessedRange e.version symbols n).contains (symbol.index + symbol.count - 1) =
        true := by
      rw [hrange, RegisterRange.contains_iff]
      dsimp only
      omega
    obtain ⟨r, hr, hcontains⟩ :=
      (exists_relativeRange_contains_iff e.version symbols v.relative).mpr ⟨n, hn, hlast⟩
    have hcount := count_pos_of_mem_relativeRanges _ _ _ hr
    have hreach : symbol.index + symbol.count - 1 < registerCount .float := by
      cases hconst : (arrayUniform v.floatDefs r).constant with
      | false =>
        have hmem : arrayUniform v.floatDefs r ∈ (ofSurvey e symbols v).floats :=
          mem_merge.mpr (Or.inr (mem_map_of_mem hr))
        refine inFile_iff.mp (h _ hmem hconst) _ ?_
        rwa [covers_arrayUniform _ hcount]
      | true =>
        exact hlow (.defined .float _) (constant_arrayUniform_iff.mp hconst _ hcontains)
    omega
  · intro h u hu hfed
    rcases mem_merge.mp hu with hu | hu
    · obtain ⟨n, hn, rfl⟩ := mem_map.mp hu
      exact inFile_single.mpr (hlow (.used .float n) (mem_filter.mp hn).1)
    · obtain ⟨r, hr, rfl⟩ := mem_map.mp hu
      refine inFile_iff.mpr fun m hm => ?_
      rw [covers_arrayUniform _ (count_pos_of_mem_relativeRanges _ _ _ hr)] at hm
      obtain ⟨n, hn, hcontains⟩ :=
        (exists_relativeRange_contains_iff e.version symbols v.relative).mp ⟨r, hr, hm⟩
      cases hsymbol : boundingSymbol? symbols n with
      | none => exact lt_of_contains_accessedRange hsymbol (hv (.relative n) hn) hcontains
      | some symbol =>
        rw [accessedRange_of_boundingSymbol? hsymbol, RegisterRange.contains_iff] at hcontains
        exact lt_of_lt_of_le hcontains.2 (h n symbol hn hsymbol)

/-- The uniforms of a survey without large numbers that are in the register files. -/
theorem Layout.inFile_uniforms_iff (hv : ∀ x, v.Lists x → x.number ≤ 2050) :
    (∀ u ∈ (ofSurvey e symbols v).uniforms, u.constant = false → u.InFile) ↔
      (∀ kind n, kind ≠ .float → v.Lists (.used kind n) → ¬v.Lists (.defined kind n) →
        n < registerCount kind) ∧
      ∀ n symbol, v.Lists (.relative n) → boundingSymbol? symbols n = some symbol →
        symbol.index + symbol.count ≤ registerCount .float := by
  rw [← inFile_floats_iff (e := e) hv]
  constructor
  · intro h
    have hall : ∀ kind, ∀ u ∈ (ofSurvey e symbols v).ofKind kind, u.constant = false → u.InFile :=
      fun kind u hu => h u (mem_uniforms.mpr ⟨kind, hu⟩)
    exact ⟨fun kind n hkind => (inFile_ofKind_iff hkind).mp (hall kind) n, hall .float⟩
  · rintro ⟨hothers, hfloats⟩ u hu hfed
    obtain ⟨kind, hu⟩ := mem_uniforms.mp hu
    by_cases hkind : kind = .float
    · subst hkind
      exact hfloats u hu hfed
    · exact (inFile_ofKind_iff hkind).mpr (fun n => hothers kind n hkind) u hu hfed

theorem Layout.width_of_bool (hv : v.Ordered) (hu : u ∈ (ofSurvey e symbols v).uniforms)
    (hkind : u.kind = .bool) : u.width = 1 := by
  obtain ⟨kind, hu⟩ := mem_uniforms.mp hu
  obtain rfl : kind = .bool := ((sound_ofSurvey e symbols hv).kinds kind u hu).symm.trans hkind
  obtain ⟨n, -, -, rfl⟩ := (mem_ofKind_ofSurvey (by decide)).mp hu
  rfl

end Fits

namespace Device

def LinkedProgram.Joins (p : LinkedProgram) (stage : Stage) (code : LoweredShader) : Prop :=
  ∃ (d d' : Device) (vertex pixel : Option CompiledShader) (c : CompiledShader),
    (link vertex pixel).run.run d = (.ok p, d') ∧ (∀ s ∈ vertex, s.stage = .vertex) ∧
      (∀ s ∈ pixel, s.stage = .pixel) ∧ p.shader stage = some c ∧ c.code = code

variable {stage : Stage}

theorem LinkedProgram.Joins.wellFormed (h : p.Joins stage code) : p.WellFormed := by
  obtain ⟨d, d', vertex, pixel, c, hlink, hvertex, hpixel, -⟩ := h
  exact wellFormed_of_link hlink hvertex hpixel

/-- A pixel shader, or a vertex shader without attributes, can be linked alone. -/
theorem LinkedProgram.exists_joins (h : stage = .vertex → code.attributes = []) :
    ∃ p : LinkedProgram, p.Joins stage code := by
  let d : Device := (create .second (.ofProfile .glsl)).toOption.get rfl
  let s : CompiledShader := ⟨0, 1, stage, code⟩
  cases stage with
  | vertex =>
    obtain ⟨⟩ := code
    cases h rfl
    exact ⟨_, d, _, some s, none, s, rfl, by simp [s], by simp, rfl, rfl⟩
  | pixel => exact ⟨_, d, _, none, some s, s, rfl, by simp, by simp [s], rfl, rfl⟩

def LinkedProgram.blank (p : LinkedProgram) : PerStage StageUniforms :=
  ⟨.ofShader? p.vertex, .ofShader? p.pixel⟩

theorem LinkedProgram.shapes_blank (p : LinkedProgram) : p.Shapes p.blank := by
  intro stage kind
  cases stage <;> rfl

/-- Refreshing brings the `k`-th register of a uniform to a slot of a stage if the uniform is in the
register file, and leaves the slot as it is if it is not. -/
def LinkedProgram.BringsUp (p : LinkedProgram) (stage : Stage) (u : Uniform) (k slot : Nat) :
    Prop :=
  ∀ values files, p.Shapes values → RegisterFiles.Sized files → ∀ lane < u.kind.lanes,
    (u.InFile → WordsAgree u.kind
      (((p.refresh files values).1.get stage).word u.kind (u.kind.lanes * slot + lane))
      ((files.stage stage).word u.kind (u.kind.lanes * (u.index + k) + lane))) ∧
    (¬u.InFile →
      ((p.refresh files values).1.get stage).word u.kind (u.kind.lanes * slot + lane) =
        (values.get stage).word u.kind (u.kind.lanes * slot + lane))

theorem LinkedProgram.Joins.bringsUp (h : p.Joins stage code) {k slot : Nat}
    (hpacked : PackedAt code.uniforms u k slot) (hsingle : u.kind = .bool → u.width = 1) :
    p.BringsUp stage u k slot := by
  intro values files hvalues hfiles lane hlane
  have hwell := h.wellFormed
  have hroom := hwell.hasRoom hvalues
  obtain ⟨-, -, -, -, c, -, -, -, hc, rfl⟩ := h
  refine ⟨fun hfile => hwell.wordsAgree_packed hc hpacked (synced_refresh hfiles hroom) hfile hlane,
    fun hpast => ?_⟩
  obtain ⟨before, after, hsplit, rfl, hk⟩ := hwell.split_packed hc hpacked
  have hreach : u.kind.lanes * k + lane < u.kind.lanes * u.width :=
    calc u.kind.lanes * k + lane < u.kind.lanes * (k + 1) := by rw [Nat.mul_succ]; omega
      _ ≤ u.kind.lanes * u.width := Nat.mul_le_mul_left _ hk
  rw [Nat.mul_add, Nat.add_assoc]
  exact word_refresh_of_not_inFile hfiles hroom hsplit hpast hsingle hreach

end Device

/-- For every shader that is read from bytes and lowered without faults, the uniforms that are fed
from registers are all in the register files exactly if

* every integer or boolean register that is used and not defined is one that the files have, and
* every symbol that bounds a relative access ends within the float file.

In every program with the shader, refreshing brings up the uniforms that are in the files and leaves
the others as they are. -/
theorem uniforms_in_files_iff (profile : Profile) (options : Options) {bytes : Bytes} {s : Shader}
    (hread : Shader.ofBytes bytes = .ok s)
    (hok : (LoweredShader.ofBytes profile options bytes).isOk = true) :
    let code := LoweredShader.ofBytes profile options bytes
    ((∀ u ∈ code.uniforms, u.constant = false → u.InFile) ↔
      (∀ kind n, kind ≠ .float → s.Mentions (.used kind n) → ¬s.Mentions (.defined kind n) →
        n < registerCount kind) ∧
      ∀ n symbol, s.Mentions (.relative n) → boundingSymbol? code.symbols n = some symbol →
        symbol.index + symbol.count ≤ registerCount .float) ∧
    ∀ (p : Device.LinkedProgram) (stage : Stage), p.Joins stage code →
      ∀ u k slot, PackedAt code.uniforms u k slot → p.BringsUp stage u k slot := by
  have hcode : LoweredShader.ofBytes profile options bytes =
      LoweredShader.ofShader profile options s := by
    rw [LoweredShader.ofBytes, hread]
  rw [hcode] at hok ⊢
  have hlists := Shader.lists_iff_of_isOk hok
  refine ⟨?_, fun p stage hp u k slot hpacked => hp.bringsUp hpacked fun hbool => ?_⟩
  · simp only [← hlists]
    refine Layout.inFile_uniforms_iff fun x hx => ?_
    obtain ⟨i, hi, hx⟩ := (hlists x).mp hx
    exact (Shader.wellFormed_of_ofBytes hread i hi).number_le hx
  · obtain ⟨-, -, before, after, hsplit, -⟩ := hpacked
    have hu : u ∈ (LoweredShader.ofShader profile options s).uniforms := by
      rw [hsplit]
      simp
    exact Layout.width_of_bool (Survey.ordered_ofInstructions _ _) hu hbool

/-- A vertex shader that branches on the last boolean register that an operand can name. -/
def lastBranch : Shader where
  version := ⟨.vertex, 2, 0⟩
  instructions :=
    [{ Instruction.marker 0 1 .ifBool with
        length := 2
        operands := [.src ⟨⟨.constBool, 2047, none⟩, .identity, .plain⟩] },
      .marker 1 3 .endIf, .marker 2 4 .stop]

def lastBranchBytes : Bytes :=
  (bytesOfWords [0xFFFE0200, 0x01000028, 0xE0E40FFF, 0x0000002B, 0x0000FFFF]).toArray

/-- It is lowered without faults, but no file has the register, and no program feeds it. -/
theorem uniforms_in_files_iff_last_branch :
    let code := LoweredShader.ofBytes .glsl default lastBranchBytes
    code.isOk = true ∧ (¬∀ u ∈ code.uniforms, u.constant = false → u.InFile) ∧
    ∃ p : Device.LinkedProgram, p.Joins .vertex code ∧
      p.BringsUp .vertex (.single .bool 2047) 0 0 := by
  have hread : Shader.ofBytes lastBranchBytes = .ok lastBranch := by decide +kernel
  have hok : (LoweredShader.ofBytes .glsl default lastBranchBytes).isOk = true := by decide +kernel
  obtain ⟨hfits, hbrings⟩ := uniforms_in_files_iff .glsl default hread hok
  refine ⟨hok, fun h => ?_, ?_⟩
  · exact absurd ((hfits.mp h).1 .bool 2047 (by decide) (by decide) (by decide)) (by decide)
  · have hcode : LoweredShader.ofBytes .glsl default lastBranchBytes =
        LoweredShader.ofShader .glsl default lastBranch := by
      rw [LoweredShader.ofBytes, hread]
    rw [hcode] at hbrings ⊢
    obtain ⟨p, hjoins⟩ : ∃ p : Device.LinkedProgram,
        p.Joins .vertex (.ofShader .glsl default lastBranch) :=
      Device.LinkedProgram.exists_joins fun _ => rfl
    refine ⟨p, hjoins, hbrings p .vertex hjoins _ 0 0 ⟨rfl, by decide, [], [], ?_, rfl⟩⟩
    change (lastBranch.layout .glsl default (Annexes.ofShader lastBranch).symbols).uniforms = _
    cbv

end ShaderPipeline
