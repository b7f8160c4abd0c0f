import Mathlib.Data.List.Forall2
import ShaderPipeline.Proofs.Layout.Profiles

/-!
# What is known of a shader, for two profiles

Besides its text, a shader that was lowered comes with what is known of it: its uniforms, constants,
samplers, inputs, outputs and symbols. These do not depend on the profile that it was lowered to,
also if the shader could not be lowered to one of them; only a depth is written under another name.
The text is there exactly if nothing went wrong.
-/

namespace ShaderPipeline

open List String

variable (p q : Profile) (options : Options) (l : Layout)

/-! ### Outputs -/

theorem Layout.outputTarget_profile {o : Output} (h : o.file ≠ .depthOut) :
    { l with profile := q }.outputTarget o = l.outputTarget o := by
  unfold outputTarget
  split <;> first | rfl | exact absurd ‹_› h

/-- Outputs are the same, but for the names of depths. -/
theorem Layout.outputs_profile (hl : l.survey.Ordered) :
    List.Forall₂ (fun a b => b.semantic = a.semantic ∧ b.register = a.register ∧
        (b.name = a.name ∨ a.semantic.usage = .depth))
      l.outputs { l with profile := q }.outputs := by
  rw [outputs, outputs, forall₂_map_left_iff, forall₂_map_right_iff, forall₂_same]
  intro o ho
  refine ⟨rfl, rfl, ?_⟩
  by_cases hfile : o.file = .depthOut
  · exact Or.inr (hl.depths o ho hfile)
  · exact Or.inl (l.outputTarget_profile q hfile)

/-! ### Texts -/

/-- Even a shader without instructions has a text. -/
theorem writeShader_ne_empty (is : List Instruction) : (writeShader l is).1 ≠ "" := by
  intro hempty
  unfold writeShader at hempty
  split at hempty
  · -- The declarations end with a blank line.
    have hbody := (append_eq_empty_iff.mp hempty).1
    have hheader : join ((Glsl.header l).map Glsl.HeaderLine.text) = "" :=
      (append_eq_empty_iff.mp hbody).1
    rw [Glsl.header, map_append, join_append] at hheader
    exact absurd (append_eq_empty_iff.mp hheader).2 (by decide)
  · exact absurd (append_eq_empty_iff.mp hempty).2 (by decide)

namespace LoweredShader

theorem output_eq_empty_iff (s : Shader) :
    (ofShader p options s).output = "" ↔ (ofShader p options s).diagnostics ≠ [] := by
  unfold ofShader
  dsimp only
  split_ifs with hbefore hall hall
  · exact iff_of_false (writeShader_ne_empty _ _) (not_not.mpr (isEmpty_iff.mp hall))
  · exact iff_of_true rfl (mt isEmpty_iff.mpr hall)
  · rw [List.isEmpty_iff, append_eq_nil_iff] at hall
    exact absurd (isEmpty_iff.mpr hall.1) hbefore
  · exact iff_of_true rfl (mt isEmpty_iff.mpr hall)

theorem ofShader_profile (s : Shader) :
    ofShader q options s = { ofShader p options s with
      profile := q, diagnostics := (ofShader q options s).diagnostics
      output := (ofShader q options s).output, outputs := (ofShader q options s).outputs } := by
  dsimp only [ofShader]
  rw [Survey.survey_profile s.version options s.instructions p q]
  rfl

/-- Whatever the bytes are, and whether or not something goes wrong for one of the profiles:

* what is known of the shader is the same for both profiles, apart from its outputs;
* so are the outputs, one by one, but for the names of depths;
* each text is empty exactly if there are diagnostics. -/
theorem ofBytes_profile (bytes : Bytes) :
    let x := ofBytes p options bytes
    let y := ofBytes q options bytes
    y = { x with
      profile := q, diagnostics := y.diagnostics, output := y.output, outputs := y.outputs } ∧
      List.Forall₂ (fun a b => b.semantic = a.semantic ∧ b.register = a.register ∧
        (b.name = a.name ∨ a.semantic.usage = .depth)) x.outputs y.outputs ∧
      (x.output = "" ↔ x.diagnostics ≠ []) ∧ (y.output = "" ↔ y.diagnostics ≠ []) := by
  dsimp only [ofBytes]
  cases Shader.ofBytes bytes with
  | error e => exact ⟨rfl, .nil, by simp [blank], by simp [blank]⟩
  | ok s =>
    refine ⟨ofShader_profile p q options s, ?_, output_eq_empty_iff p options s,
      output_eq_empty_iff q options s⟩
    have hlayout := s.layout_profile options (Annexes.ofShader s).symbols p q
    have houtputs := (s.layout p options (Annexes.ofShader s).symbols).outputs_profile q
      (Survey.ordered_ofInstructions _ _)
    rw [← hlayout] at houtputs
    exact houtputs

end LoweredShader

end ShaderPipeline
