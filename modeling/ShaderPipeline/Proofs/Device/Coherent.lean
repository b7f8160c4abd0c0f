import ShaderPipeline.Proofs.Device.ArrayMirror
import ShaderPipeline.Proofs.Layout.Slots

/-!
# Coherence of registers, shadows and the driver's memory

Between the registers and the driver stand the shadows of programs. A device is `Coherent` for a
list of references to programs if the driver's memory mirrors the shadow of each of them, and if the
shadow holds the registers whenever it is of the present generation. Every step of an operation of
a device keeps this, with a reference more or less where the step takes or gives one.
-/

namespace ShaderPipeline.Device

open StageUniforms List.Subset List UniformMemory LinkedProgram Array Option Store

variable {stage : Stage} {e : Stage × Uniform} {s : CompiledShader} {u : Uniform}
  {values : PerStage StageUniforms} {files : RegisterFiles} {q : LinkedProgram}

/-! ### Well-formed programs -/

def fedUniforms (stage : Stage) (us : List Uniform) : List (Stage × Uniform) :=
  (us.filter (!·.constant)).map fun u => (stage, u)

theorem fst_of_mem_fedUniforms {us : List Uniform} (h : e ∈ fedUniforms stage us) :
    e.1 = stage := by
  obtain ⟨u, -, rfl⟩ := mem_map.mp h
  rfl

theorem slotsBefore_fedUniforms (stage : Stage) (us : List Uniform) (kind : ValueKind) :
    slotsBefore (fedUniforms stage us) stage kind = slotCount (us.filter (·.kind == kind)) := by
  unfold fedUniforms
  induction us with
  | nil => simp [slotCount]
  | cons u rest ih =>
    cases hc : u.constant
    · rw [filter_cons_of_pos (by simp [hc]), map_cons, slotsBefore_cons, ih]
      by_cases hk : u.kind = kind <;> simp [hk, slotCount, Uniform.slots, hc]
    · rw [filter_cons_of_neg (by simp [hc]), ih]
      by_cases hk : u.kind = kind <;> simp [hk, slotCount, Uniform.slots, hc]

theorem slotsBefore_of_other {us : List (Stage × Uniform)} (h : ∀ e ∈ us, e.1 ≠ stage)
    (kind : ValueKind) : slotsBefore us stage kind = 0 := by
  have hnone : us.filter (fun e => e.1 = stage ∧ e.2.kind = kind) = [] := by
    rw [filter_eq_nil_iff]
    intro e he
    simp [h e he]
  rw [slotsBefore, hnone]
  rfl

namespace LinkedProgram

def shader (p : LinkedProgram) : Stage → Option CompiledShader
  | .vertex => p.vertex
  | .pixel => p.pixel

/-- A program whose shaders are of the stages they are used for. -/
structure WellFormed (p : LinkedProgram) : Prop where
  staged : ∀ stage, ∀ s ∈ p.shader stage, s.stage = stage
  uniforms : p.uniforms = (p.vertex.toList ++ p.pixel.toList).flatMap fun s =>
    fedUniforms s.stage s.code.uniforms
  bumpCount : p.bumpCount = p.pixel.elim 0 (·.code.bumpCount)

def Located (driver : Driver) (p : LinkedProgram) : Prop :=
  ∀ stage kind, (p.locations.get stage).at kind =
    driver.uniformLocation p.names.program (UniformName.array stage kind).text

theorem Located.arraysApart {driver : Driver} {p : LinkedProgram} (h : p.Located driver)
    (hsep : driver.SeparatesUniforms) : ArraysApart p.locations := by
  intro stage kind stage' kind' hplace heq
  rw [h stage kind] at hplace heq
  rw [h stage' kind'] at heq
  exact UniformName.text_array_inj (hsep _ _ _ hplace heq)

namespace WellFormed

variable {p : LinkedProgram}

theorem mem_uniforms (h : p.WellFormed) (he : e ∈ p.uniforms) : ∃ s, p.shader e.1 = some s := by
  rw [h.uniforms] at he
  obtain ⟨s, hs, he⟩ := mem_flatMap.mp he
  rw [fst_of_mem_fedUniforms he]
  rcases mem_append.mp hs with hs | hs
  · have hs' : p.shader .vertex = some s := mem_toList.mp hs
    exact ⟨s, by rw [h.staged .vertex s hs', hs']⟩
  · have hs' : p.shader .pixel = some s := mem_toList.mp hs
    exact ⟨s, by rw [h.staged .pixel s hs', hs']⟩

/-- The fed uniforms of a stage stand together, with none of that stage around them. -/
theorem split_uniforms (h : p.WellFormed) (hs : p.shader stage = some s) :
    ∃ first last, p.uniforms = first ++ fedUniforms stage s.code.uniforms ++ last ∧
      (∀ e ∈ first, e.1 ≠ stage) ∧ ∀ e ∈ last, e.1 ≠ stage := by
  have hother : ∀ stage' ≠ stage, ∀ e ∈ (p.shader stage').toList.flatMap (fun s =>
      fedUniforms s.stage s.code.uniforms), e.1 ≠ stage := by
    intro stage' hne e he
    obtain ⟨x, hx, he⟩ := mem_flatMap.mp he
    rw [fst_of_mem_fedUniforms he, h.staged stage' x (mem_toList.mp hx)]
    exact hne
  have hstage := h.staged stage s hs
  cases stage with
  | vertex =>
    have hv : p.vertex = some s := hs
    refine ⟨[], _, ?_, by simp, hother .pixel (by decide)⟩
    simp [h.uniforms, hv, hstage, shader]
  | pixel =>
    have hp : p.pixel = some s := hs
    refine ⟨_, [], ?_, hother .vertex (by decide), by simp⟩
    simp [h.uniforms, hp, hstage, shader]

theorem split_at (h : p.WellFormed) (hs : p.shader stage = some s) {before after : List Uniform}
    (hu : s.code.uniforms = before ++ u :: after) (hfed : u.constant = false) :
    ∃ first last, p.uniforms = (first ++ fedUniforms stage before) ++
        (stage, u) :: (fedUniforms stage after ++ last) ∧
      (∀ e ∈ first, e.1 ≠ stage) ∧ ∀ e ∈ last, e.1 ≠ stage := by
  obtain ⟨first, last, huniforms, hfirst, hlast⟩ := h.split_uniforms hs
  refine ⟨first, last, ?_, hfirst, hlast⟩
  have hsplit : fedUniforms stage s.code.uniforms =
      fedUniforms stage before ++ (stage, u) :: fedUniforms stage after := by
    rw [hu, fedUniforms, List.filter_append, filter_cons_of_pos (by simp [hfed])]
    simp [fedUniforms]
  rw [huniforms, hsplit]
  simp

theorem slotsBefore_uniforms (h : p.WellFormed) (stage : Stage) (kind : ValueKind) :
    slotsBefore p.uniforms stage kind = (p.shader stage).elim 0 (·.code.slots kind) := by
  cases hs : p.shader stage with
  | some s =>
    obtain ⟨first, last, huniforms, hfirst, hlast⟩ := h.split_uniforms hs
    rw [huniforms, slotsBefore_append, slotsBefore_append, slotsBefore_of_other hfirst,
      slotsBefore_of_other hlast, slotsBefore_fedUniforms]
    simp [LoweredShader.slots]
  | none =>
    refine slotsBefore_of_other (fun e he heq => ?_) kind
    obtain ⟨s, hs'⟩ := h.mem_uniforms he
    rw [heq, hs] at hs'
    simp at hs'

theorem hasRoom (h : p.WellFormed)
    (hsize : ∀ stage kind, ((values.get stage).words kind).length =
      ((ofShader? (p.shader stage)).words kind).length) : p.HasRoom values where
  fits stage kind := by
    rw [hsize, h.slotsBefore_uniforms]
    cases p.shader stage with
    | none => simp
    | some s =>
      cases kind <;>
        simp [ofShader?, ofShader, words, ValueKind.lanes]
  bump := by
    have hfloats := hsize .pixel .float
    have hshader : p.shader .pixel = p.pixel := rfl
    rw [h.slotsBefore_uniforms, h.bumpCount, bumpBase]
    simp only [words, length_map, Array.length_toList] at hfloats
    rw [hfloats, hshader]
    cases p.pixel with
    | none => simp
    | some s =>
      simp only [ofShader?, ofShader, size_replicate, elim_some]
      omega

theorem split_packed (h : p.WellFormed) (hs : p.shader stage = some s) {k slot : Nat}
    (hpacked : PackedAt s.code.uniforms u k slot) :
    ∃ before after, p.uniforms = before ++ (stage, u) :: after ∧
      slotsBefore before stage u.kind + k = slot ∧ k < u.width := by
  obtain ⟨hfed, hk, before, after, hu, rfl⟩ := hpacked
  obtain ⟨first, last, huniforms, hfirst, -⟩ := h.split_at hs hu hfed
  refine ⟨_, _, huniforms, ?_, hk⟩
  rw [slotsBefore_append, slotsBefore_of_other hfirst, slotsBefore_fedUniforms, Nat.zero_add]

theorem wordsAgree_packed (h : p.WellFormed) (hs : p.shader stage = some s) {k slot : Nat}
    (hpacked : PackedAt s.code.uniforms u k slot) (hsynced : Synced p.uniforms files values)
    (hfile : u.InFile) {lane : Nat} (hlane : lane < u.kind.lanes) :
    WordsAgree u.kind ((values.get stage).word u.kind (u.kind.lanes * slot + lane))
      ((files.stage stage).word u.kind (u.kind.lanes * (u.index + k) + lane)) := by
  obtain ⟨before, after, huniforms, rfl, hk⟩ := h.split_packed hs hpacked
  have hreach : u.kind.lanes * k + lane < u.kind.lanes * u.width :=
    calc u.kind.lanes * k + lane < u.kind.lanes * (k + 1) := by rw [Nat.mul_succ]; omega
      _ ≤ u.kind.lanes * u.width := Nat.mul_le_mul_left _ hk
  have hwords := hsynced before stage u after huniforms hfile _ hreach
  rwa [← Nat.add_assoc, ← Nat.mul_add, ← Nat.add_assoc, ← Nat.mul_add] at hwords

end WellFormed

end LinkedProgram

/-! ### The invariant -/

/-- What the driver holds after the calls of a device. -/
def memory (d : Device) : UniformMemory := .replay d.calls.toList

@[simp] theorem memory_say (d : Device) (cs : List Call) :
    (d.say cs).memory = d.memory.after cs := by
  simp [memory]

@[simp] theorem memory_withStore (d : Device) (s : Store) : (d.withStore s).memory = d.memory := rfl

/-- The shadow of a program has the sizes that its shaders ask for, and holds the registers if none
has been written since. The latter is `timely`: it holds until generations repeat. -/
structure Tracked (timely : Prop) (files : RegisterFiles) (g : UInt64) (p : LinkedProgram)
    (shadow : Shadow) : Prop where
  size : ∀ stage kind, ((shadow.values.get stage).words kind).length =
    ((StageUniforms.ofShader? (p.shader stage)).words kind).length
  synced : timely → shadow.generation = g → Synced p.uniforms files shadow.values
  /-- A program that has not been sent yet may be of the generation before the first. -/
  past : timely → shadow.generation = -1 ∨ shadow.generation ≤ g
  /-- What reaches past the end of the file is never brought up. -/
  skipped : Skipped p.uniforms ⟨.ofShader? p.vertex, .ofShader? p.pixel⟩ shadow.values

/-- What the driver's memory has to do with the references of a device of the shading language. -/
structure InDriver (d : Device) (refs : List LinkedProgram) : Prop where
  separate : d.driver.SeparatesUniforms
  named : Named d.memory d.store.released refs
  current : d.memory.current = (namesOf d.bound).program
  located : ∀ p ∈ refs, p.Located d.driver
  mirrored : ∀ p ∈ refs, ∀ shadow, d.store.shadows[p.id]? = some shadow →
    Mirrors d.memory p.names.program p.locations shadow.values

/-- The invariant of a device, for a list of references to programs. -/
structure Coherent (timely : Prop) (d : Device) (refs : List LinkedProgram) : Prop where
  sized : d.registers.Sized
  counts : d.store.Counts refs
  shadows : d.store.shadows.size = d.store.programHolders.size
  wellFormed : ∀ p ∈ refs, p.WellFormed
  tracked : ∀ p ∈ refs, ∃ shadow, d.store.shadows[p.id]? = some shadow ∧
    Tracked timely d.registers d.generation p shadow
  inDriver : d.profile.isGlsl = true → InDriver d refs

/-! ### New programs -/

theorem after_createCalls (m : UniformMemory) (n : Nat) (shaders : List CompiledShader) :
    m.after (createCalls n shaders) = m.step (.createProgram n) := by
  have hsilent : ∀ c ∈ shaders.map (fun s => Call.attachShader n s.name) ++ [.linkProgram n],
      UniformMemory.Silent c := by
    intro c hc
    rcases mem_append.mp hc with hc | hc
    · obtain ⟨s, -, rfl⟩ := mem_map.mp hc
      exact fun _ => rfl
    · rw [mem_singleton.mp hc]
      exact fun _ => rfl
  exact after_of_silent hsilent _

theorem word_ofShader? (s : Option CompiledShader) (kind : ValueKind) (i : Nat) :
    (ofShader? s).word kind i = 0 := by
  cases s with
  | none => cases kind <;> simp [ofShader?, StageUniforms.empty, word, words]
  | some s =>
    cases kind <;>
      simp only [ofShader?, ofShader, word, words, toList_replicate, List.map_replicate,
        getD_eq_getElem?_getD, List.getElem?_replicate] <;>
      split_ifs <;> rfl

/-- The arrays of a new program are zero, and not of the present generation. -/
theorem tracked_new (timely : Prop) (files : RegisterFiles) (g : UInt64) (p : LinkedProgram) :
    Tracked timely files g p ⟨g - 1, ⟨.ofShader? p.vertex, .ofShader? p.pixel⟩⟩ where
  size stage kind := by cases stage <;> rfl
  synced _ hsame := by
    grind
  past _ := by
    by_cases hzero : g = 0
    · exact Or.inl (by rw [hzero]; rfl)
    · have hone : 1 ≤ g := by
        have : g.toNat ≠ 0 := fun h => hzero (UInt64.toNat_inj.mp h)
        exact Nat.one_le_iff_ne_zero.mpr this
      refine Or.inr (UInt64.le_iff_toNat_le.mpr ?_)
      rw [UInt64.toNat_sub_of_le _ _ hone]
      exact Nat.sub_le _ _
  skipped := .refl _ _

theorem mirrors_new (m : UniformMemory) (n : Nat) (locations : PerStage ArrayLocations)
    (vertex pixel : Option CompiledShader) :
    Mirrors (m.step (.createProgram n)) n locations
      ⟨.ofShader? vertex, .ofShader? pixel⟩ := by
  intro stage kind _ i
  have hword : ((PerStage.mk (ofShader? vertex)
      (ofShader? pixel)).get stage).word kind i = 0 := by
    cases stage <;> exact word_ofShader? _ kind i
  rw [hword]
  simp [step]

section Draft

variable {d : Device} {vertex pixel : Option CompiledShader}

theorem id_draft (n : Nat) : (d.draft n vertex pixel).id = d.store.programHolders.size := by
  simp [draft, programOf, addProgram]

theorem wellFormed_draft (hvertex : ∀ s ∈ vertex, s.stage = .vertex)
    (hpixel : ∀ s ∈ pixel, s.stage = .pixel) (n : Nat) (attributes : List (Semantic × Int)) :
    LinkedProgram.WellFormed { d.draft n vertex pixel with attributes } where
  staged stage s hs := by
    cases stage with
    | vertex => exact hvertex s hs
    | pixel => exact hpixel s hs
  uniforms := rfl
  bumpCount := by
    cases vertex <;> cases pixel <;> simp_all [draft, programOf]

theorem located_draft (hg : d.profile.isGlsl = true) (n : Nat)
    (attributes : List (Semantic × Int)) :
    LinkedProgram.Located d.driver { d.draft n vertex pixel with attributes } := by
  intro stage kind
  cases stage <;> exact at_findArrays hg n _ kind

end Draft

/-- A device that has kept its registers and shadows. -/
structure Keeps (d d' : Device) : Prop where
  driver : d'.driver = d.driver
  profile : d'.profile = d.profile
  registers : d'.registers = d.registers
  generation : d'.generation = d.generation
  shadows : d'.store.shadows = d.store.shadows

section Moves

variable {timely : Prop} {d d' : Device} {refs refs' : List LinkedProgram} {p : LinkedProgram}

/-- A step that keeps shadows, and the driver's words of the arrays of all programs that are still
referred to. -/
theorem InDriver.frame (h : InDriver d refs) (hkeep : Keeps d d') (hsub : refs' ⊆ refs)
    (hnamed : Named d'.memory d'.store.released refs')
    (hcurrent : d'.memory.current = (namesOf d'.bound).program)
    (hcells : ∀ p ∈ refs', ∀ stage kind i,
      d'.memory.cells p.names.program ((p.locations.get stage).at kind) i =
        d.memory.cells p.names.program ((p.locations.get stage).at kind) i) :
    InDriver d' refs' where
  separate := by rw [hkeep.driver]; exact h.separate
  named := hnamed
  current := hcurrent
  located p hp := by rw [hkeep.driver]; exact h.located p (hsub hp)
  mirrored p hp shadow hshadow stage kind hplace i := by
    rw [hkeep.shadows] at hshadow
    rw [hcells p hp]
    exact h.mirrored p (hsub hp) shadow hshadow stage kind hplace i

/-! ### Added programs -/

theorem shadows_addProgram (s : Store) (vertex pixel : Option CompiledShader) (g : UInt64) :
    (s.addProgram vertex pixel g).2.shadows =
      s.shadows.push ⟨g, ⟨.ofShader? vertex, .ofShader? pixel⟩⟩ := by
  simp [addProgram]

theorem getElem?_shadows_addProgram_size (s : Store) (vertex pixel : Option CompiledShader)
    (g : UInt64) : (s.addProgram vertex pixel g).2.shadows[s.shadows.size]? =
      some ⟨g, ⟨.ofShader? vertex, .ofShader? pixel⟩⟩ := by
  rw [shadows_addProgram, getElem?_push_size]

theorem getElem?_shadows_addProgram {s : Store} {vertex pixel : Option CompiledShader} {g : UInt64}
    {i : Nat} (hi : i < s.shadows.size) :
    (s.addProgram vertex pixel g).2.shadows[i]? = s.shadows[i]? := by
  rw [shadows_addProgram, getElem?_push, if_neg hi.ne]

theorem InDriver.add (h : InDriver d refs) {g : UInt64} (hdriver : d'.driver = d.driver)
    (hbound : d'.bound = d.bound) (hlt : ∀ p ∈ refs, p.id < d.store.shadows.size)
    (hid : q.id = d.store.shadows.size) (hlocated : q.Located d.driver)
    (hfresh : q.names.program ∉ d.memory.live)
    (hmemory : d'.memory = d.memory.step (.createProgram q.names.program)) :
    InDriver (d'.withStore (d.store.addProgram q.vertex q.pixel g).2) (q :: refs) where
  separate := hdriver.symm ▸ h.separate
  named := by
    have hreleased : (d.store.addProgram q.vertex q.pixel g).2.released = d.store.released := by
      simp [addProgram]
    rw [store_withStore, hreleased, memory_withStore, hmemory]
    exact h.named.add hfresh
  current := by
    rw [memory_withStore, hmemory, bound_withStore, hbound]
    exact h.current
  located := by
    rw [driver_withStore, hdriver]
    exact forall_mem_cons.mpr ⟨hlocated, h.located⟩
  mirrored := by
    rw [store_withStore, memory_withStore, hmemory]
    refine forall_mem_cons.mpr ⟨fun shadow hshadow => ?_, fun p hp shadow hshadow => ?_⟩
    · rw [hid, getElem?_shadows_addProgram_size] at hshadow
      obtain rfl := some.inj hshadow
      exact mirrors_new _ _ _ _ _
    · rw [getElem?_shadows_addProgram (hlt p hp)] at hshadow
      have hne : p.names.program ≠ q.names.program :=
        fun heq => hfresh (heq ▸ h.named.live p hp)
      intro stage kind hplace i
      simp only [step, hne, if_false]
      exact h.mirrored p hp shadow hshadow stage kind hplace i

namespace Coherent

section Steps

variable (h : Coherent timely d refs)

include h

theorem frame (hkeep : Keeps d d') (hsub : refs' ⊆ refs)
    (hcounts : d'.store.Counts refs')
    (hholders : d'.store.programHolders.size = d.store.programHolders.size)
    (hdriver : d.profile.isGlsl = true → InDriver d refs → InDriver d' refs') :
    Coherent timely d' refs' where
  sized := by rw [hkeep.registers]; exact h.sized
  counts := hcounts
  shadows := by rw [hkeep.shadows, hholders, h.shadows]
  wellFormed p hp := h.wellFormed p (hsub hp)
  tracked p hp := by
    rw [hkeep.shadows, hkeep.registers, hkeep.generation]
    exact h.tracked p (hsub hp)
  inDriver hg := by
    rw [hkeep.profile] at hg
    exact hdriver hg (h.inDriver hg)

theorem perm (hp : refs.Perm refs') : Coherent timely d refs' :=
  h.frame ⟨rfl, rfl, rfl, rfl, rfl⟩ hp.symm.subset (h.counts.perm hp) rfl fun _ hin =>
    hin.frame ⟨rfl, rfl, rfl, rfl, rfl⟩ hp.symm.subset (hin.named.of_subset hp.symm.subset)
      hin.current fun _ _ _ _ _ => rfl

/-- A step that touches neither the store nor the driver's memory of uniforms. -/
theorem quiet (hkeep : Keeps d d') (hstore : d'.store = d.store) (hbound : d'.bound = d.bound)
    (hmemory : d.profile.isGlsl = true → d'.memory = d.memory) : Coherent timely d' refs :=
  h.frame hkeep (refl _) (hstore ▸ h.counts) (by rw [hstore]) fun hg hin =>
    hin.frame hkeep (refl _) (by rw [hstore, hmemory hg]; exact hin.named)
      (by rw [hmemory hg, hbound]; exact hin.current) fun _ _ _ _ _ => by rw [hmemory hg]

/-- Calls that do not touch the driver's memory of uniforms. -/
theorem say (cs : List Call) (hcs : d.profile.isGlsl = true → ∀ c ∈ cs, UniformMemory.Silent c) :
    Coherent timely (d.say cs) refs :=
  h.quiet ⟨rfl, rfl, rfl, rfl, rfl⟩ rfl rfl fun hg =>
    (memory_say d cs).trans (after_of_silent (hcs hg) _)

/-- A change of the store that concerns shaders only. -/
theorem restore {s : Store} (hholders : s.programHolders = d.store.programHolders)
    (hshadows : s.shadows = d.store.shadows)
    (hreleased : ∀ n, Released.program n ∈ s.released ↔ Released.program n ∈ d.store.released) :
    Coherent timely (d.withStore s) refs :=
  h.frame ⟨rfl, rfl, rfl, rfl, hshadows⟩ (refl _) (h.counts.of_eq hholders)
    (congrArg size hholders) fun _ hin =>
      hin.frame ⟨rfl, rfl, rfl, rfl, hshadows⟩ (refl _)
        (hin.named.of_released hreleased) hin.current fun _ _ _ _ _ => rfl

theorem hold (hp : p ∈ refs) :
    Coherent timely (d.withStore (d.store.holdProgram p)) (p :: refs) :=
  have hsub : p :: refs ⊆ refs := cons_subset.mpr ⟨hp, refl _⟩
  h.frame ⟨rfl, rfl, rfl, rfl, rfl⟩ hsub (h.counts.hold hp) (by simp [holdProgram])
    fun _ hin => hin.frame ⟨rfl, rfl, rfl, rfl, rfl⟩ hsub (hin.named.of_subset hsub) hin.current
      fun _ _ _ _ _ => rfl

theorem collect : Coherent timely d.collected refs := by
  refine h.frame ⟨rfl, rfl, rfl, rfl, rfl⟩ (refl _) (h.counts.of_eq rfl) rfl
    fun hg hin => ?_
  have hmemory : d.collected.memory = d.memory.after (deletions true d.store.released) := by
    rw [collected, memory_say, hg]
    rfl
  obtain ⟨hcurrent, hcells, -⟩ := after_deletions d.store.released d.memory
  refine hin.frame ⟨rfl, rfl, rfl, rfl, rfl⟩ (refl _) ?_ ?_ ?_
  · rw [hmemory]
    exact hin.named.collect
  · rw [hmemory, hcurrent]
    exact hin.current
  · intro p _ stage kind i
    rw [hmemory, hcells]

theorem use (q : Option LinkedProgram) :
    Coherent timely { d.say (useCalls d.profile.isGlsl (namesOf q)) with bound := q } refs := by
  refine h.frame ⟨rfl, rfl, rfl, rfl, rfl⟩ (refl _) h.counts rfl fun hg hin => ?_
  have hmemory : Device.memory { d.say (useCalls d.profile.isGlsl (namesOf q)) with bound := q } =
      d.memory.step (.useProgram (namesOf q).program) := by
    rw [hg]
    exact memory_say d _
  refine hin.frame ⟨rfl, rfl, rfl, rfl, rfl⟩ (refl _) ?_ ?_ ?_
  · rw [hmemory]
    exact hin.named.of_live rfl
  · rw [hmemory]
    rfl
  · intro p _ stage kind i
    rw [hmemory]
    rfl

theorem write (hfiles : files.Sized) (hg : timely → d.generation.toNat + 1 < 2 ^ 64 - 1) :
    Coherent timely (d.written files) refs where
  sized := hfiles
  counts := h.counts
  shadows := h.shadows
  wellFormed := h.wellFormed
  tracked p hp := by
    obtain ⟨shadow, hshadow, htracked⟩ := h.tracked p hp
    have hnext : timely → (d.generation + 1).toNat = d.generation.toNat + 1 := by
      intro htimely
      have := hg htimely
      rw [UInt64.toNat_add, UInt64.toNat_one, Nat.mod_eq_of_lt (by omega)]
    refine ⟨shadow, hshadow, htracked.size, fun htimely hsame => ?_, fun htimely => ?_,
      htracked.skipped⟩
    · have hsame' : shadow.generation.toNat = d.generation.toNat + 1 :=
        (congrArg UInt64.toNat hsame).trans (hnext htimely)
      rcases htracked.past htimely with hpast | hpast
      · have := hg htimely
        rw [hpast] at hsame'
        simp at hsame'
        omega
      · have := UInt64.le_iff_toNat_le.mp hpast
        omega
    · refine (htracked.past htimely).imp_right fun hpast => UInt64.le_iff_toNat_le.mpr ?_
      have := UInt64.le_iff_toNat_le.mp hpast
      exact this.trans (by rw [written, hnext htimely]; omega)
  inDriver hglsl :=
    have hin := h.inDriver hglsl
    ⟨hin.separate, hin.named, hin.current, hin.located, hin.mirrored⟩

/-- What is sent once goes to no array. -/
theorem setup {e : Device} (hdriver : e.driver = d.driver) (hbound : e.bound = d.bound)
    (names : ProgramNames) (shaders : List CompiledShader) :
    Coherent timely (d.say (setupCalls e names shaders)) refs := by
  refine h.frame ⟨rfl, rfl, rfl, rfl, rfl⟩ (refl _) h.counts rfl fun _ hin => ?_
  obtain ⟨hcurrent, hlive, hcells⟩ :=
    after_setupCalls names shaders (d := e) (m := d.memory) (by rw [hbound]; exact hin.current)
  refine hin.frame ⟨rfl, rfl, rfl, rfl, rfl⟩ (refl _) ?_ ?_ ?_
  · rw [memory_say]
    exact hin.named.of_live hlive
  · rw [memory_say, hcurrent]
    exact hin.current
  · intro p hp stage kind i
    rw [memory_say]
    refine hcells _ _ _ fun _ => ?_
    rw [hdriver, hin.located p hp stage kind]
    exact not_setupPlace hin.separate _ _ _

/-- A program that was refused leaves no trace. -/
theorem refuse {n : Nat} (hfresh : n ∉ d.memory.live) (shaders : List CompiledShader) :
    Coherent timely (d.say (createCalls n shaders ++ [.deleteProgram n])) refs := by
  have hmemory : (d.say (createCalls n shaders ++ [.deleteProgram n])).memory =
      (d.memory.step (.createProgram n)).step (.deleteProgram n) := by
    rw [memory_say, after_append, after_createCalls]
    rfl
  refine h.frame ⟨rfl, rfl, rfl, rfl, rfl⟩ (refl _) h.counts rfl fun _ hin => ?_
  refine hin.frame ⟨rfl, rfl, rfl, rfl, rfl⟩ (refl _) ?_ ?_ ?_
  · rw [hmemory]
    exact hin.named.delete hfresh
  · rw [hmemory]
    exact hin.current
  · intro p hp stage kind i
    have hne : p.names.program ≠ n := fun heq => hfresh (heq ▸ hin.named.live p hp)
    rw [hmemory]
    simp [step, hne]

theorem add (hkeep : Keeps d d') (hbound : d'.bound = d.bound)
    (hid : q.id = d.store.programHolders.size) (hwell : q.WellFormed)
    (hcreated : d.profile.isGlsl = true → q.Located d.driver ∧ q.names.program ∉ d.memory.live ∧
      d'.memory = d.memory.step (.createProgram q.names.program)) :
    Coherent timely (d'.withStore (d.store.addProgram q.vertex q.pixel (d.generation - 1)).2)
      (q :: refs) := by
  have hlt : ∀ p ∈ refs, p.id < d.store.shadows.size := fun p hp => h.shadows ▸ h.counts.id_lt hp
  have hsize : q.id = d.store.shadows.size := hid.trans h.shadows.symm
  refine ⟨hkeep.registers ▸ h.sized, h.counts.add (by simp [addProgram, hid]), ?_,
    forall_mem_cons.mpr ⟨hwell, h.wellFormed⟩, forall_mem_cons.mpr ⟨?_, ?_⟩, ?_⟩
  · rw [store_withStore, shadows_addProgram, size_push, h.shadows]
    simp [addProgram]
  · rw [store_withStore, hsize, generation_withStore, hkeep.generation]
    exact ⟨_, getElem?_shadows_addProgram_size .., tracked_new _ _ _ _⟩
  · intro p hp
    rw [store_withStore, getElem?_shadows_addProgram (hlt p hp), generation_withStore,
      registers_withStore, hkeep.generation, hkeep.registers]
    exact h.tracked p hp
  · intro hg
    rw [profile_withStore, hkeep.profile] at hg
    obtain ⟨hlocated, hfresh, hmemory⟩ := hcreated hg
    exact (h.inDriver hg).add hkeep.driver hbound hlt hsize hlocated hfresh hmemory

/-- The shadow of a program is replaced by arrays that hold the registers. In the shading language
the program is the one in use, and the driver holds the arrays. -/
theorem bringUp (hp : p ∈ refs) {cs : List Call}
    (hsize : ∀ stage kind, ((values.get stage).words kind).length =
      ((ofShader? (p.shader stage)).words kind).length)
    (hsynced : Synced p.uniforms d.registers values)
    (hskipped : Skipped p.uniforms ⟨.ofShader? p.vertex, .ofShader? p.pixel⟩ values)
    (hsent : d.profile.isGlsl = true → UniformMemory.Sets (fun _ => True) cs ∧
      d.memory.current = p.names.program ∧
      Mirrors (d.memory.after cs) p.names.program p.locations values) :
    Coherent timely ((d.withStore { d.store with
      shadows := d.store.shadows.setIfInBounds p.id ⟨d.generation, values⟩ }).say cs) refs := by
  have hlt : p.id < d.store.shadows.size := h.shadows ▸ h.counts.id_lt hp
  have hself : (d.store.shadows.setIfInBounds p.id ⟨d.generation, values⟩)[p.id]? =
      some ⟨d.generation, values⟩ := getElem?_setIfInBounds_self_of_lt hlt
  refine ⟨h.sized, h.counts.of_eq rfl, size_setIfInBounds.trans h.shadows, h.wellFormed, ?_, ?_⟩
  · intro q hq
    by_cases hid : q.id = p.id
    · obtain rfl : q = p := h.counts.unique q hq p hp hid
      exact ⟨_, hself, hsize, fun _ _ => hsynced, fun _ => Or.inr (UInt64.le_refl _), hskipped⟩
    · obtain ⟨shadow, hshadow, htracked⟩ := h.tracked q hq
      exact ⟨shadow, (getElem?_setIfInBounds_ne (Ne.symm hid)).trans hshadow, htracked⟩
  · intro hg
    obtain ⟨hcs, hcurrent, hmirrored⟩ := hsent hg
    have hin := h.inDriver hg
    obtain ⟨hused, hlive, hcells⟩ := hcs.after d.memory
    refine ⟨hin.separate, ?_, ?_, hin.located, ?_⟩
    · rw [memory_say]
      exact hin.named.of_live hlive
    · rw [memory_say, memory_withStore, hused]
      exact hin.current
    · intro q hq shadow hshadow
      rw [memory_say, memory_withStore]
      by_cases hid : q.id = p.id
      · obtain rfl : q = p := h.counts.unique q hq p hp hid
        obtain rfl := some.inj (hself.symm.trans hshadow)
        exact hmirrored
      · have hshadow' := (getElem?_setIfInBounds_ne (Ne.symm hid)).symm.trans hshadow
        intro stage kind hplace i
        rw [hcells _ _ _ fun heq => absurd (hin.named.apart q hq p hp (heq.trans hcurrent)) hid]
        exact hin.mirrored q hq shadow hshadow' stage kind hplace i

/-- Before a draw the shadow of the bound program is brought up to the registers, and the driver of
the shading language with it. -/
theorem update (hp : p ∈ refs) (hbound : d.bound = some p) :
    Coherent timely ((updateUniforms p).run d).2 refs ∧
      ∃ shadow, ((updateUniforms p).run d).2.store.shadows[p.id]? = some shadow ∧
        (timely → Synced p.uniforms d.registers shadow.values) := by
  obtain ⟨shadow, hshadow, htracked⟩ := h.tracked p hp
  have hroom := (h.wellFormed p hp).hasRoom htracked.size
  have hlength := p.length_words_refresh d.registers shadow.values
  have hsame : (p.refresh d.registers shadow.values).2 = false → _ :=
    refresh_eq_of_unchanged
  have hsynced := synced_refresh h.sized hroom
  have hskipped := htracked.skipped.trans (skipped_refresh h.sized hroom)
  rcases hrefresh : p.refresh d.registers shadow.values with ⟨values, changed⟩
  rw [hrefresh] at hlength hsame hsynced hskipped
  rw [updateUniforms_run hshadow hrefresh]
  by_cases hstale : (p.hasUniforms && shadow.generation != d.generation) = true
  · rw [if_pos hstale]
    have hsize := fun stage kind => (hlength stage kind).trans (htracked.size stage kind)
    refine ⟨h.bringUp hp hsize hsynced hskipped fun hg => ?_,
      ⟨d.generation, values⟩, ?_, fun _ => hsynced⟩
    · have hin := h.inDriver hg
      have hcurrent : d.memory.current = p.names.program := by rw [hin.current, hbound]; rfl
      have hmirrored := hin.mirrored p hp shadow hshadow
      cases changed with
      | false =>
        have hvalues : values = shadow.values := hsame rfl
        exact ⟨nofun, hcurrent, hvalues ▸ hmirrored⟩
      | true =>
        simp only [if_true, uploads, hg]
        exact ⟨sets_glslUploads p values, hcurrent, hmirrored.upload hcurrent
          ((hin.located p hp).arraysApart hin.separate) hlength⟩
    · exact getElem?_setIfInBounds_self_of_lt (h.shadows ▸ h.counts.id_lt hp)
  · rw [if_neg hstale]
    refine ⟨h, shadow, hshadow, fun htimely => ?_⟩
    -- Nothing is fed from registers, or none has been written since.
    rcases Bool.and_eq_false_iff.mp (Bool.not_eq_true _ ▸ hstale) with hnone | hgen
    · have hempty : p.uniforms = [] := by
        simp only [hasUniforms, Bool.or_eq_false_iff, Bool.not_eq_false', List.isEmpty_iff] at hnone
        exact hnone.1
      intro before stage u after hsplit
      rw [hempty] at hsplit
      simp at hsplit
    · exact htracked.synced htimely (by simpa using hgen)

end Steps

theorem drop (h : Coherent timely d (p :: refs)) :
    Coherent timely (d.withStore (d.store.dropProgram p)) refs :=
  have hkeep : Keeps d (d.withStore (d.store.dropProgram p)) :=
    ⟨rfl, rfl, rfl, rfl, d.store.shadows_dropProgram p⟩
  h.frame hkeep (subset_cons_self p refs) h.counts.drop (by simp) fun _ hin =>
    hin.frame hkeep (subset_cons_self p refs) (hin.named.drop h.counts) hin.current
      fun _ _ _ _ _ => rfl

theorem drops (ps : List LinkedProgram) (h : Coherent timely d (ps ++ refs)) :
    Coherent timely (d.withStore (dropPrograms d.store ps)) refs := by
  induction ps generalizing d with
  | nil => exact h
  | cons p ps ih => exact ih (d := d.withStore (d.store.dropProgram p)) h.drop

end Coherent

end Moves

end ShaderPipeline.Device
