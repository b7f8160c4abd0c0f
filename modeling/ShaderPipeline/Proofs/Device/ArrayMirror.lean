import ShaderPipeline.Proofs.Device.UniformMemory

/-!
# Uniform arrays in the driver's memory

A program of the shading language has up to six uniform arrays, one for each stage and kind, with a
place each. `Mirrors` says that the driver holds the words of these arrays. Uploads establish it for
the program in use. What is sent once when a program is linked goes to other places.
-/

namespace ShaderPipeline.Device

open List

/-! ### Names and places -/

/-- The uniforms that a device asks the driver for. -/
inductive UniformName where
  | array (stage : Stage) (kind : ValueKind)
  | constant (stage : Stage) (u : Uniform)
  | sampler (stage : Stage) (s : Sampler)

/-- The last part of the name of an array. -/
def arraySuffix : ValueKind → String
  | .float => "vec4"
  | .int => "ivec4"
  | .bool => "bool"

def UniformName.text : UniformName → String
  | array stage kind => stage.tag ++ "_uniforms_" ++ arraySuffix kind
  | constant stage u => u.name stage
  | sampler stage s => s.name stage

/-- Different uniforms of a program are at different places, if they are anywhere. -/
def Driver.SeparatesUniforms (driver : Driver) : Prop :=
  ∀ program (a b : UniformName), 0 ≤ driver.uniformLocation program a.text →
    driver.uniformLocation program a.text = driver.uniformLocation program b.text → a.text = b.text

namespace UniformName

variable {stage stage' : Stage} {kind kind' : ValueKind}

theorem text_array_inj (h : (array stage kind).text = (array stage' kind').text) :
    stage = stage' ∧ kind = kind' := by
  revert h
  cases stage <;> cases stage' <;> cases kind <;> cases kind' <;> decide

-- The names differ in the letter behind the underscore.
private theorem letter_array (stage : Stage) (kind : ValueKind) :
    (array stage kind).text.toList[3]? = some 'u' := by
  cases stage <;> cases kind <;> decide

theorem text_array_ne_constant (u : Uniform) :
    (array stage kind).text ≠ (constant stage' u).text := by
  intro h
  have hletter := letter_array stage kind
  rw [h] at hletter
  revert hletter
  simp only [text, Uniform.name]
  split_ifs
  · cases stage' <;> cases u.kind <;> simp [toString, Stage.tag, Uniform.letter]
  · cases stage' <;> simp [toString, Stage.tag]
  · cases stage' <;> simp [toString, Stage.tag]

theorem text_array_ne_sampler (s : Sampler) :
    (array stage kind).text ≠ (sampler stage' s).text := by
  intro h
  have hletter := letter_array stage kind
  rw [h] at hletter
  revert hletter
  unfold text Sampler.name
  cases stage' <;> simp [toString, Stage.tag]

end UniformName

def ArrayLocations.at (l : ArrayLocations) : ValueKind → Int
  | .float => l.floats
  | .int => l.ints
  | .bool => l.bools

theorem at_findArrays {d : Device} (hg : d.profile.isGlsl = true) (program : Nat) (stage : Stage)
    (kind : ValueKind) :
    (findArrays d program stage).at kind =
      d.driver.uniformLocation program (UniformName.array stage kind).text := by
  unfold findArrays
  rw [if_pos hg]
  cases kind <;> rfl

/-- No two arrays of a program are at the same place. -/
def ArraysApart (locations : PerStage ArrayLocations) : Prop :=
  ∀ stage kind stage' kind', 0 ≤ (locations.get stage).at kind →
    (locations.get stage).at kind = (locations.get stage').at kind' → stage = stage' ∧ kind = kind'

def Mirrors (m : UniformMemory) (program : Nat) (locations : PerStage ArrayLocations)
    (values : PerStage StageUniforms) : Prop :=
  ∀ stage kind, 0 ≤ (locations.get stage).at kind →
    ∀ i, m.cells program ((locations.get stage).at kind) i = (values.get stage).word kind i

/-! ### Uploads -/

def arrayUpload (l : ArrayLocations) (v : StageUniforms) : ValueKind → List Call
  | .float => if 0 ≤ l.floats ∧ v.floats ≠ #[] then [.uniform4fv l.floats v.floats.toList] else []
  | .int => if 0 ≤ l.ints ∧ v.ints ≠ #[] then [.uniform4iv l.ints v.ints.toList] else []
  | .bool => if 0 ≤ l.bools ∧ v.bools ≠ #[] then [.uniform1iv l.bools v.bools.toList] else []

def allArrays : List (Stage × ValueKind) :=
  [(.vertex, .float), (.vertex, .int), (.vertex, .bool),
    (.pixel, .float), (.pixel, .int), (.pixel, .bool)]

theorem mem_allArrays (a : Stage × ValueKind) : a ∈ allArrays := by
  obtain ⟨stage, kind⟩ := a
  cases stage <;> cases kind <;> decide

theorem glslUploads_eq (p : LinkedProgram) (values : PerStage StageUniforms) :
    p.glslUploads values =
      allArrays.flatMap fun a => arrayUpload (p.locations.get a.1) (values.get a.1) a.2 := by
  simp only [LinkedProgram.glslUploads, stageUploads, allArrays, arrayUpload, PerStage.get,
    flatMap_cons, flatMap_nil, append_nil, append_assoc]
  congr!

namespace UniformMemory

@[simp] theorem write_nil (m : UniformMemory) (l : Int) : m.write l [] = m := by
  simp [write]

theorem after_arrayUpload (m : UniformMemory) (l : ArrayLocations) (v : StageUniforms)
    (kind : ValueKind) :
    m.after (arrayUpload l v kind) =
      if 0 ≤ l.at kind then m.write (l.at kind) (v.words kind) else m := by
  by_cases hplace : 0 ≤ l.at kind
  · rw [if_pos hplace]
    cases kind <;> simp only [arrayUpload, StageUniforms.words] <;> split_ifs with h <;>
      simp_all [step, ArrayLocations.at]
  · rw [if_neg hplace]
    cases kind <;> exact congrArg m.after (if_neg fun h => hplace h.1)

theorem cells_uploads {locations : PerStage ArrayLocations} (hapart : ArraysApart locations)
    (values : PerStage StageUniforms) {stage : Stage} {kind : ValueKind}
    (hplace : 0 ≤ (locations.get stage).at kind) (i : Nat) (arrays : List (Stage × ValueKind))
    (m : UniformMemory) :
    (m.after (arrays.flatMap fun a => arrayUpload (locations.get a.1) (values.get a.1) a.2)).cells
        m.current ((locations.get stage).at kind) i =
      if (stage, kind) ∈ arrays ∧ i < ((values.get stage).words kind).length then
        (values.get stage).word kind i
      else m.cells m.current ((locations.get stage).at kind) i := by
  induction arrays generalizing m with
  | nil => simp
  | cons a rest ih =>
    obtain ⟨stage', kind'⟩ := a
    rw [flatMap_cons, after_append, after_arrayUpload]
    by_cases hplace' : 0 ≤ (locations.get stage').at kind'
    · rw [if_pos hplace']
      refine (ih (m.write _ _)).trans ?_
      by_cases hsame : (stage, kind) = (stage', kind')
      · obtain ⟨rfl, rfl⟩ := Prod.mk.inj hsame
        by_cases hi : i < ((values.get stage).words kind).length
        · simp [write, hi, StageUniforms.word]
        · simp [write, hi]
      · have hne : (locations.get stage).at kind ≠ (locations.get stage').at kind' := by
          intro heq
          obtain ⟨rfl, rfl⟩ := hapart _ _ _ _ hplace heq
          exact hsame rfl
        simp [write, hne, hsame]
    · have hne : (stage, kind) ≠ (stage', kind') := by
        intro heq
        obtain ⟨rfl, rfl⟩ := Prod.mk.inj heq
        exact hplace' hplace
      rw [if_neg hplace', ih]
      simp [hne]

theorem sets_glslUploads (p : LinkedProgram) (values : PerStage StageUniforms) :
    Sets (fun _ => True) (p.glslUploads values) := by
  intro c hc
  rw [glslUploads_eq] at hc
  obtain ⟨⟨stage, kind⟩, -, hc⟩ := mem_flatMap.mp hc
  cases kind <;> simp only [arrayUpload] at hc <;> split_ifs at hc <;>
    simp only [mem_singleton, not_mem_nil] at hc <;> subst hc <;>
    exact ⟨_, _, rfl, trivial⟩

end UniformMemory

/-- After the uploads of a program in use, the driver holds its arrays. -/
theorem Mirrors.upload {m : UniformMemory} {p : LinkedProgram} {old values : PerStage StageUniforms}
    (h : Mirrors m p.names.program p.locations old) (hcurrent : m.current = p.names.program)
    (hapart : ArraysApart p.locations)
    (hlength : ∀ stage kind,
      ((values.get stage).words kind).length = ((old.get stage).words kind).length) :
    Mirrors (m.after (p.glslUploads values)) p.names.program p.locations values := by
  intro stage kind hplace i
  rw [glslUploads_eq, ← hcurrent, UniformMemory.cells_uploads hapart values hplace]
  by_cases hi : i < ((values.get stage).words kind).length
  · rw [if_pos ⟨mem_allArrays _, hi⟩]
  · rw [if_neg fun hand => hi hand.2, hcurrent, h stage kind hplace i]
    have hold : ¬i < ((old.get stage).words kind).length := by rwa [← hlength]
    simp [StageUniforms.word, getElem?_eq_none (not_lt.mp hi), getElem?_eq_none (not_lt.mp hold)]

/-! ### Setting a program up -/

def SetupPlace (driver : Driver) (program : Nat) (l : Int) : Prop :=
  0 ≤ l ∧ ((∃ stage u, l = driver.uniformLocation program (UniformName.constant stage u).text) ∨
    ∃ stage s, l = driver.uniformLocation program (UniformName.sampler stage s).text)

theorem not_setupPlace {driver : Driver} (hsep : driver.SeparatesUniforms) (program : Nat)
    (stage : Stage) (kind : ValueKind) :
    ¬SetupPlace driver program
      (driver.uniformLocation program (UniformName.array stage kind).text) := by
  rintro ⟨hplace, ⟨stage', u, h⟩ | ⟨stage', s, h⟩⟩
  · exact UniformName.text_array_ne_constant u (hsep program _ _ hplace h)
  · exact UniformName.text_array_ne_sampler s (hsep program _ _ hplace h)

theorem sets_constantCalls (d : Device) (program : Nat) (s : CompiledShader) :
    UniformMemory.Sets (SetupPlace d.driver program) (constantCalls d program s) := by
  intro c hc
  obtain ⟨u, -, hc⟩ := mem_flatMap.mp hc
  dsimp only at hc
  split_ifs at hc with hplace
  · rw [mem_singleton.mp hc]
    exact ⟨_, _, rfl, hplace, Or.inl ⟨s.stage, u, rfl⟩⟩
  · cases hc

theorem sets_samplerCalls (d : Device) (program : Nat) (s : CompiledShader) :
    UniformMemory.Sets (SetupPlace d.driver program) (samplerCalls d program s) := by
  intro c hc
  obtain ⟨x, -, hc⟩ := mem_flatMap.mp hc
  dsimp only at hc
  split_ifs at hc with hplace
  · rw [mem_singleton.mp hc]
    exact ⟨_, _, rfl, hplace, Or.inr ⟨s.stage, x, rfl⟩⟩
  · cases hc

/-- Setting a program up leaves the bound program in use and writes only to the new program, at
places that are not those of arrays. -/
theorem after_setupCalls {d : Device} (names : ProgramNames) (shaders : List CompiledShader)
    {m : UniformMemory}
    (hcurrent : m.current = (namesOf d.bound).program) :
    (m.after (setupCalls d names shaders)).current = m.current ∧
      (m.after (setupCalls d names shaders)).live = m.live ∧
      ∀ p l i, (p = names.program → ¬SetupPlace d.driver p l) →
        (m.after (setupCalls d names shaders)).cells p l i = m.cells p l i := by
  unfold setupCalls
  split_ifs
  · have hsets : UniformMemory.Sets (SetupPlace d.driver names.program) (shaders.flatMap fun s =>
        constantCalls d names.program s ++ samplerCalls d names.program s) := by
      intro c hc
      obtain ⟨s, -, hc⟩ := mem_flatMap.mp hc
      rcases mem_append.mp hc with hc | hc
      · exact sets_constantCalls d _ s c hc
      · exact sets_samplerCalls d _ s c hc
    obtain ⟨-, hlive, hcells⟩ := hsets.after (m.step (.useProgram names.program))
    rw [UniformMemory.after_append, UniformMemory.after_append]
    refine ⟨hcurrent.symm, hlive, fun p l i hp => hcells p l i fun heq => ?_⟩
    obtain rfl : p = names.program := heq
    exact hp rfl
  · exact ⟨rfl, rfl, fun _ _ _ _ => rfl⟩

end ShaderPipeline.Device
