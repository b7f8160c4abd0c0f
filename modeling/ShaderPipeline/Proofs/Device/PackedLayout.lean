import Mathlib
import ShaderPipeline.Proofs.Device.ParameterCoherence

/-!
# One layout for generated text and registers

Slots are counted three times: when a shader is written, when the arrays of a program are brought up
to the registers, and when floats are sent to local parameters. The counts agree. The slot that the
text of a shader reads for a register is the one where the arrays of every program with the shader
hold that register, and the local parameter that is sent for it.
-/

namespace ShaderPipeline

open Glsl Glsl.HeaderLine List

/-- A register is read directly and the shader does not define it. -/
def Survey.Reads (v : Survey) : ValueKind → Nat → Prop
  | .float, n => n ∈ v.floatUsed ∧ v.floatDefs.lookup n = none
  | .int, n => n ∈ v.intUsed ∧ v.intDefs.lookup n = none
  | .bool, n => n ∈ v.boolUsed ∧ v.boolDefs.lookup n = none

namespace Device

/-! ### The text of a shader -/

def slotLine (stage : Stage) (kind : ValueKind) (n slot : Nat) : Glsl.HeaderLine :=
  .slotName s!"{stage.tag}_{Uniform.letter kind}{n}" (UniformName.array stage kind).text slot

theorem text_slotName (name array : String) (slot : Nat) :
    (slotName name array slot).text = s!"#define {name} {array}[{slot}]\n" :=
  rfl

theorem text_slotLine (stage : Stage) (kind : ValueKind) (n slot : Nat) :
    (slotLine stage kind n slot).text =
      s!"#define {stage.tag}_{Uniform.letter kind}{n} " ++
        s!"{stage.tag}_uniforms_{arraySuffix kind}[{slot}]\n" := by
  rw [slotLine, text_slotName, UniformName.text]
  simp only [toString, String.append_assoc]

theorem slotLine_mem_header {l : Layout} {kind : ValueKind} {n slot : Nat}
    (hreads : l.survey.Reads kind n) (hslot : l.slot? kind n = some slot) :
    slotLine l.stage kind n slot ∈ header l := by
  have hline : slotLine l.stage kind n slot ∈
      floatRegisters l ++ intRegisters l ++ boolRegisters l := by
    simp only [mem_append, floatRegisters, intRegisters, boolRegisters, mem_filterMap]
    cases kind
    case' float =>
      refine Or.inl (Or.inl ⟨n, hreads.1, ?_⟩)
      rw [hreads.2, show l.floatSlot? n = some slot from hslot]
    case' int =>
      refine Or.inl (Or.inr ⟨n, hreads.1, ?_⟩)
      rw [hreads.2, show l.intSlot? n = some slot from hslot]
    case' bool =>
      refine Or.inr ⟨n, hreads.1, ?_⟩
      rw [hreads.2, show l.boolSlot? n = some slot from hslot]
    all_goals simp [registerLine, slotLine, UniformName.text, arraySuffix, Uniform.letter,
      Layout.tag, toString, String.append_assoc]
  simp only [mem_append] at hline
  simp only [header, mem_append]
  tauto

theorem slotLine_in_text {l : Layout} (hglsl : l.profile.isGlsl = true) {kind : ValueKind}
    {n slot : Nat} (hreads : l.survey.Reads kind n) (hslot : l.slot? kind n = some slot)
    (is : List Instruction) :
    ∃ before after, (writeShader l is).1 =
      before ++ (slotLine l.stage kind n slot).text ++ after := by
  obtain ⟨first, last, hheader⟩ := append_of_mem (slotLine_mem_header hreads hslot)
  obtain ⟨rest, htext⟩ : ∃ rest, (writeShader l is).1 =
      String.join ((header l).map text) ++ rest := by
    simp only [writeShader, hglsl, if_true, ofInstructions, Glsl.Program.text, String.append_assoc]
    exact ⟨_, rfl⟩
  refine ⟨String.join (first.map text), String.join (last.map text) ++ rest, ?_⟩
  rw [htext, hheader, map_append, map_cons, String.join_append, String.join_cons]
  simp only [String.append_assoc]

theorem registerText_of_slot? {l : Layout} {n slot : Nat}
    (hdef : l.survey.floatDefs.lookup n = none) (hslot : l.slot? .float n = some slot) :
    Assembly.registerText l ⟨.const, n, none⟩ = .ok s!"{l.tag}_uniforms[{slot}]" := by
  have hslot' : l.floatSlot? n = some slot := hslot
  simp [Assembly.registerText, Assembly.constantText, hdef, hslot']

/-! ### Programs with the shader -/

def LinkedProgram.Shapes (p : LinkedProgram) (values : PerStage StageUniforms) : Prop :=
  ∀ stage kind, ((values.get stage).words kind).length =
    ((StageUniforms.ofShader? (p.shader stage)).words kind).length

theorem wellFormed_of_link {vertex pixel : Option CompiledShader} {d d' : Device}
    {p : LinkedProgram} (hlink : (link vertex pixel).run.run d = (.ok p, d'))
    (hvertex : ∀ s ∈ vertex, s.stage = .vertex) (hpixel : ∀ s ∈ pixel, s.stage = .pixel) :
    p.WellFormed := by
  obtain ⟨name, e, attributes, rfl, -⟩ := exists_of_link hlink
  exact wellFormed_draft hvertex hpixel name attributes

/-- A program feeds a register at a slot of a stage: a refresh brings the register there, if its
range is in the register file, and what is there of a float is sent to the local parameter of the
same number. -/
structure LinkedProgram.FeedsAt (p : LinkedProgram) (l : Layout) (stage : Stage) (kind : ValueKind)
    (n slot : Nat) : Prop where
  refreshed : ∀ values files, p.Shapes values → RegisterFiles.Sized files →
    (∀ u ∈ l.uniforms, u.kind = kind → u.constant = false → u.covers n = true → u.InFile) →
    ∀ lane < kind.lanes, WordsAgree kind
      (((p.refresh files values).1.get stage).word kind (kind.lanes * slot + lane))
      ((files.stage stage).word kind (kind.lanes * n + lane))
  sent : kind = .float → ∀ values, p.Shapes values → ∀ integers (m : ParameterMemory),
    ∀ lane < 4, (m.after (p.assemblyUploads integers values)).cells stage (m.bound.get stage) slot
      lane = (values.get stage).word .float (4 * slot + lane)

/-- The text of a shader reads a register at a slot: under the name that the header of a shader in
the shading language gives it, or as an operand of an assembly program. -/
structure ReadsAt (l : Layout) (is : List Instruction) (kind : ValueKind) (n slot : Nat) :
    Prop where
  named : l.profile.isGlsl = true → l.survey.Reads kind n →
    ∃ before after, (writeShader l is).1 = before ++
      (s!"#define {l.tag}_{Uniform.letter kind}{n} " ++
        s!"{l.tag}_uniforms_{arraySuffix kind}[{slot}]\n") ++ after
  operand : kind = .float → l.survey.floatDefs.lookup n = none →
    Assembly.registerText l ⟨.const, n, none⟩ = .ok s!"{l.tag}_uniforms[{slot}]"

variable {l : Layout} {kind : ValueKind} {n slot : Nat}

theorem readsAt_of_slot? (is : List Instruction) (hslot : l.slot? kind n = some slot) :
    ReadsAt l is kind n slot where
  named hglsl hreads := by
    obtain ⟨before, after, htext⟩ := slotLine_in_text hglsl hreads hslot is
    exact ⟨before, after, by rw [htext, text_slotLine]; rfl⟩
  operand hkind hdef := by
    subst hkind
    exact registerText_of_slot? hdef hslot

theorem LinkedProgram.WellFormed.feedsAt {p : LinkedProgram} (h : p.WellFormed) (hl : l.Sound)
    {stage : Stage} {s : CompiledShader} (hs : p.shader stage = some s)
    (hcode : s.code.uniforms = l.uniforms) (hslot : l.slot? kind n = some slot) :
    p.FeedsAt l stage kind n slot := by
  obtain ⟨u, k, hpacked, rfl, rfl⟩ := hl.packedAt_of_slot? hslot
  have hcovers : u.covers (u.index + k) = true := Uniform.covers_iff.mpr (by
    have := hpacked.2.1
    omega)
  have hmem : u ∈ l.uniforms := by
    obtain ⟨-, -, before, after, hsplit, -⟩ := hpacked
    rw [hsplit]
    simp
  rw [← hcode] at hpacked
  refine ⟨fun values files hshape hfiles hinside lane hlane => ?_,
    fun hkind values hshape integers m lane hlane => ?_⟩
  · exact h.wordsAgree_packed hs hpacked
      (synced_refresh hfiles (h.hasRoom hshape)) (hinside u hmem rfl hpacked.1 hcovers) hlane
  · have hfloats : s.code.FloatsFirst := by
      rw [LoweredShader.FloatsFirst, hcode]
      exact hl.floatsFirst
    rw [cells_assemblyUploads h hs hfloats hkind hpacked integers (h.hasRoom hshape) m _ hlane,
      if_pos rfl]

end Device

/-- The text of a shader that was lowered without faults. -/
theorem LoweredShader.output_ofShader (profile : Profile) (options : Options) (shader : Shader)
    (hok : (ofShader profile options shader).isOk = true) :
    (ofShader profile options shader).output =
      (writeShader (shader.layout profile options (Annexes.ofShader shader).symbols)
        shader.instructions).1 := by
  obtain ⟨before, houtput, after, hdiagnostics⟩ : ∃ before : List Diagnostic,
      (ofShader profile options shader).output =
        (if (ofShader profile options shader).isOk then
          (if before.isEmpty then
            writeShader (shader.layout profile options (Annexes.ofShader shader).symbols)
              shader.instructions
          else ("", [])).1
        else "") ∧
      ∃ after, (ofShader profile options shader).diagnostics = before ++ after :=
    ⟨_, rfl, _, rfl⟩
  have hbefore : before = [] :=
    (append_eq_nil_iff.mp (hdiagnostics.symm.trans (isEmpty_iff.mp hok))).1
  rw [houtput, if_pos hok, hbefore]
  rfl

/-- For every shader that has been read, and whatever symbols are known of it:

* the registers of a kind that are fed from outside and the slots of that kind correspond one to
  one;
* a shader lowered with this layout counts the same slots;
* every program linked with it feeds a register at its slot, and the text reads it there.

The layout of a lowered shader is that of the symbols in its own comments, and its text is written
with it. -/
theorem packed_layout_agrees (profile : Profile) (options : Options) (shader : Shader)
    (kind : ValueKind) :
    (∀ symbols, let l := shader.layout profile options symbols
      ((∀ n, (l.slot? kind n).isSome ↔ l.Feeds kind n) ∧
        Set.BijOn (fun n => (l.slot? kind n).getD 0) {n | l.Feeds kind n}
          (Set.Iio (l.count kind))) ∧
      (∀ code : LoweredShader, code.uniforms = l.uniforms → code.slots kind = l.count kind) ∧
      ∀ n slot, l.slot? kind n = some slot →
        (∀ (d d' : Device) (vertex pixel : Option Device.CompiledShader)
            (p : Device.LinkedProgram) (stage : Stage) (s : Device.CompiledShader),
          (Device.link vertex pixel).run.run d = (.ok p, d') →
          (∀ s ∈ vertex, s.stage = .vertex) → (∀ s ∈ pixel, s.stage = .pixel) →
          p.shader stage = some s → s.code.uniforms = l.uniforms →
          p.FeedsAt l stage kind n slot) ∧
        Device.ReadsAt l shader.instructions kind n slot) ∧
    (LoweredShader.ofShader profile options shader).uniforms =
        (shader.layout profile options (Annexes.ofShader shader).symbols).uniforms ∧
      ((LoweredShader.ofShader profile options shader).isOk = true →
        (LoweredShader.ofShader profile options shader).output =
          (writeShader (shader.layout profile options (Annexes.ofShader shader).symbols)
            shader.instructions).1) := by
  refine ⟨fun symbols => ?_, rfl, LoweredShader.output_ofShader profile options shader⟩
  have hsound := shader.sound_layout profile options symbols
  refine ⟨⟨fun n => hsound.isSome_slot?_iff, hsound.bijOn_slot kind⟩, fun code hcode => ?_,
    fun n slot hslot => ⟨fun d d' vertex pixel p stage s hlink hvertex hpixel hs hcode => ?_, ?_⟩⟩
  · rw [LoweredShader.slots, hcode, hsound.filter_uniforms]
    rfl
  · exact (Device.wellFormed_of_link hlink hvertex hpixel).feedsAt hsound hs hcode hslot
  · exact Device.readsAt_of_slot? _ hslot

def mixedShader : Shader where
  version := ⟨.vertex, 2, 0⟩
  instructions :=
    let read (n : Nat) (relative : Option RelativeAddress) : Operand :=
      .src ⟨⟨.const, n, relative⟩, .identity, .plain⟩
    [{ Instruction.marker 0 1 .add with
        length := 4
        operands := [.dst ⟨⟨.temp, 0, none⟩, .full⟩, read 9 none, read 4 none] },
      { Instruction.marker 1 5 .mov with
        length := 4
        operands := [.dst ⟨⟨.rastOut, 0, none⟩, .full⟩, read 20 (some ⟨.addr, 0, .x⟩)] },
      .marker 2 9 .stop]

def mixedLayout (profile : Profile) : Layout :=
  mixedShader.layout profile default [⟨"bones", .float4, 20, 3, default⟩]

def mixedCompiled : Device.CompiledShader where
  id := 0
  name := 1
  stage := .vertex
  code :=
    { LoweredShader.blank .arb1 default with
      version := some ⟨.vertex, 2, 0⟩
      uniforms := [⟨.float, 4, 0, false⟩, ⟨.float, 9, 0, false⟩, ⟨.float, 20, 3, false⟩] }

/-- The second single register is named at the second slot, and a program feeds the second register
of the range at the fourth. -/
theorem packed_layout_agrees_mixed :
    (∃ before after,
      (writeShader (mixedLayout .glsl120) mixedShader.instructions).1 =
        before ++ "#define vs_c9 vs_uniforms_vec4[1]\n" ++ after) ∧
    ∃ d d' p, Device.create .first (.ofProfile .arb1) = .ok d ∧
      (Device.link (some mixedCompiled) none).run.run d = (.ok p, d') ∧
      p.FeedsAt (mixedLayout .arb1) .vertex .float 21 3 := by
  constructor
  · obtain ⟨hlayout, -⟩ := packed_layout_agrees .glsl120 default mixedShader .float
    obtain ⟨-, -, hslots⟩ := hlayout [⟨"bones", .float4, 20, 3, default⟩]
    exact (hslots 9 1 (by cbv)).2.named rfl ⟨List.contains_iff_mem.mp (by cbv), by cbv⟩
  · obtain ⟨hlayout, -⟩ := packed_layout_agrees .arb1 default mixedShader .float
    obtain ⟨-, -, hslots⟩ := hlayout [⟨"bones", .float4, 20, 3, default⟩]
    obtain ⟨d, hd⟩ : ∃ d, Device.create .first (.ofProfile .arb1) = .ok d := ⟨_, rfl⟩
    obtain ⟨d', p, hlink, hshader⟩ : ∃ d' p,
        (Device.link (some mixedCompiled) none).run.run d = (.ok p, d') ∧
        p.shader .vertex = some mixedCompiled := by
      cases hd
      exact ⟨_, _, rfl, rfl⟩
    exact ⟨d, d', p, hd, hlink, (hslots 21 3 (by cbv)).1 d d' _ _ p .vertex mixedCompiled hlink
      (by simp [mixedCompiled]) (by simp) hshader (by cbv)⟩

end ShaderPipeline
