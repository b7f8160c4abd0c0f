import ShaderPipeline.Proofs.Device.Feeds
import ShaderPipeline.Proofs.Device.RegisterLimits
import ShaderPipeline.Proofs.Device.UniformCoherence

/-!
# When uniforms are sent

A device that gets ready sends the arrays of the bound program if registers were written since and
a refresh changes something. Floats are compared as numbers: a register that is no number is sent
after every write, and one that only changes the sign of a zero is not sent. Apart from these, what
is sent follows the bits of the registers.
-/

namespace ShaderPipeline.Device

open List LinkedProgram Client

/-! ### Bits -/

namespace Feed

variable {files : RegisterFiles} {values : PerStage StageUniforms} {f : Feed}
  (old new : RegisterFiles)

def Stale (files : RegisterFiles) (values : PerStage StageUniforms) (f : Feed) : Prop :=
  ∃ i < f.size, f.held values i ≠ f.word files i

/-- The registers have a word for the window that is no number. -/
def HasNaN (files : RegisterFiles) (f : Feed) : Prop :=
  ∃ i < f.size, NotANumber f.kind (f.word files i)

def Changes (f : Feed) : Prop :=
  ∃ i < f.size, ¬SameNumber f.kind (f.word old i) (f.word new i)

def Restored (f : Feed) : Prop :=
  ∀ i < f.size, f.word new i = f.word old i

/-- Where no bit has changed, only what is no number differs. -/
theorem Restored.changes_iff {old new : RegisterFiles} (h : f.Restored old new) :
    f.Changes old new ↔ f.HasNaN old := by
  refine exists_congr fun i => and_congr_right fun hi => ?_
  rw [h i hi, SameNumber.self_iff, not_not]

theorem sameNumber_of_not_differs (h : ¬f.Differs files values) {i : Nat} (hi : i < f.size) :
    SameNumber f.kind (f.held values i) (f.word files i) :=
  not_not.mp fun hne => h ⟨i, hi, hne⟩

theorem held_of_not_stale (h : ¬f.Stale files values) {i : Nat} (hi : i < f.size) :
    f.held values i = f.word files i :=
  not_not.mp fun hne => h ⟨i, hi, hne⟩

/-- Whatever is held for it, a word that is no number differs. -/
theorem HasNaN.differs (h : f.HasNaN files) : f.Differs files values := by
  obtain ⟨i, hi, hnan⟩ := h
  exact ⟨i, hi, fun hsame => SameNumber.self_iff.mp (hsame.symm.trans hsame) hnan⟩

/-- A window with the bits of its registers differs from them exactly if one is no number. -/
theorem differs_iff_of_not_stale (h : ¬f.Stale files values) :
    f.Differs files values ↔ f.HasNaN files := by
  refine exists_congr fun i => and_congr_right fun hi => ?_
  rw [held_of_not_stale h hi, SameNumber.self_iff, not_not]

end Feed

namespace LinkedProgram

def Linked (p : LinkedProgram) : Prop :=
  ∃ (d d' : Device) (vertex pixel : Option CompiledShader),
    (link vertex pixel).run.run d = (.ok p, d') ∧ (∀ s ∈ vertex, s.stage = .vertex) ∧
      ∀ s ∈ pixel, s.stage = .pixel

theorem Linked.wellFormed {p : LinkedProgram} (h : p.Linked) : p.WellFormed := by
  obtain ⟨d, d', vertex, pixel, hlink, hvertex, hpixel⟩ := h
  exact wellFormed_of_link hlink hvertex hpixel

/-- A refresh reports a change exactly if a word has other bits than its register, and leaves the
bits of the registers in all windows. -/
def ComparesBits (p : LinkedProgram) (files : RegisterFiles) (values : PerStage StageUniforms) :
    Prop :=
  ((p.refresh files values).2 = true ↔ ∃ f, p.Feeds f ∧ f.Stale files values) ∧
    ∀ f, p.Feeds f → ∀ i < f.size, f.held (p.refresh files values).1 i = f.word files i

section

variable {p : LinkedProgram} {files : RegisterFiles} {values : PerStage StageUniforms}
  (h : p.WellFormed) (hfiles : files.Full) (hvalues : p.Shapes values)

include hvalues

theorem shapes_refresh : p.Shapes (p.refresh files values).1 := fun stage kind =>
  (p.length_words_refresh files values stage kind).trans (hvalues stage kind)

include h hfiles

variable (hin : ∀ e ∈ p.uniforms, e.2.InFile)

include hin

/-- A refresh goes by bits exactly if every window with other bits also differs as numbers, and, if
no window has other bits, no register of the program is no number. -/
theorem comparesBits_iff :
    p.ComparesBits files values ↔
      (∀ f, p.Feeds f → f.Stale files values → f.Differs files values) ∧
        ((∀ f, p.Feeds f → ¬f.Stale files values) → ∀ f, p.Feeds f → ¬f.HasNaN files) := by
  have hchanged := changed_refresh_iff h hfiles hvalues hin
  constructor
  · rintro ⟨hflag, hheld⟩
    refine ⟨fun f hf hstale => ?_, fun hfresh f hf hnan => ?_⟩
    · by_contra hsame
      obtain ⟨i, hi, hne⟩ := hstale
      refine hne (Eq.trans ?_ (hheld f hf i hi))
      rw [held_refresh h hfiles hvalues hin hf hi, if_neg hsame]
    · have hdiffers := (Feed.differs_iff_of_not_stale (hfresh f hf)).mpr hnan
      obtain ⟨g, hg, hstale⟩ := hflag.mp (hchanged.mpr ⟨f, hf, hdiffers⟩)
      exact hfresh g hg hstale
  · rintro ⟨hnumbers, hnan⟩
    refine ⟨hchanged.trans ⟨?_, ?_⟩, fun f hf i hi => ?_⟩
    · rintro ⟨f, hf, hdiffers⟩
      by_contra hfresh
      have hfresh' : ∀ g, p.Feeds g → ¬g.Stale files values :=
        fun g hg hstale => hfresh ⟨g, hg, hstale⟩
      exact hnan hfresh' f hf ((Feed.differs_iff_of_not_stale (hfresh' f hf)).mp hdiffers)
    · rintro ⟨f, hf, hstale⟩
      exact ⟨f, hf, hnumbers f hf hstale⟩
    · rw [held_refresh h hfiles hvalues hin hf hi]
      split_ifs with hdiffers
      · rfl
      · exact Feed.held_of_not_stale (fun hstale => hdiffers (hnumbers f hf hstale)) hi

/-- What a window holds after a refresh compares with any word as its register does. -/
theorem sameNumber_held_refresh_iff {f : Feed} (hf : p.Feeds f) {i : Nat} (hi : i < f.size)
    (b : UInt32) :
    SameNumber f.kind (f.held (p.refresh files values).1 i) b ↔
      SameNumber f.kind (f.word files i) b := by
  rw [held_refresh h hfiles hvalues hin hf hi]
  split_ifs with hdiffers
  · rfl
  · have hsame := Feed.sameNumber_of_not_differs hdiffers hi
    exact ⟨hsame.symm.trans, hsame.trans⟩

end

end LinkedProgram

/-! ### Getting ready -/

/-- A device with a bound program, its shadow with arrays for it, and all registers. -/
structure Serves (d : Device) (p : LinkedProgram) (shadow : Shadow) : Prop where
  bound : d.bound = some p
  lookup : d.store.shadows[p.id]? = some shadow
  shapes : p.Shapes shadow.values
  full : d.registers.Full

def uniformCalls (since now : Device) : List Call :=
  (now.calls.toList.drop since.calls.size).filter (·.subject = .value)

section Ready

variable {d : Device} {p : LinkedProgram} {shadow : Shadow}

theorem uniformCalls_of_append {now : Device} {drawing values : List Call}
    (hcalls : now.calls.toList = d.calls.toList ++ (drawing ++ values))
    (hdrawing : About [.drawing] drawing) (hvalues : About [.value] values) :
    uniformCalls d now = values := by
  have hnone : drawing.filter (·.subject = .value) = [] := by
    rw [filter_eq_nil_iff]
    intro c hc
    simp [mem_singleton.mp (hdrawing c hc)]
  have hall : values.filter (·.subject = .value) = values := by
    rw [filter_eq_self]
    intro c hc
    simp [mem_singleton.mp (hvalues c hc)]
  rw [uniformCalls, hcalls, ← Array.length_toList, drop_left, filter_append, hnone, hall,
    nil_append]

theorem Serves.sends_eq (h : d.Serves p shadow) :
    d.sends p = (p.hasUniforms && shadow.generation != d.generation &&
      (p.refresh d.registers shadow.values).2) := by
  rw [sends, h.lookup]

theorem Serves.uniformCalls_ready (h : d.Serves p shadow) :
    uniformCalls d (ready.run d).2 =
      if d.sends p then d.uploads p (p.refresh d.registers shadow.values).1 else [] := by
  obtain ⟨drawing, hdrawing, hcalls, -⟩ := ready_cases h.bound h.lookup
  refine uniformCalls_of_append hcalls hdrawing ?_
  split_ifs
  · exact about_uploads _ _ _
  · exact .nil _

theorem Serves.uniformCalls_values (h : d.Serves p shadow) :
    ∃ values, (Device.ready.run d).2.uniformValues? p = some values ∧
      uniformCalls d (Device.ready.run d).2 =
        if d.sends p then d.uploads p values else [] := by
  obtain ⟨-, -, -, hshadow⟩ := ready_cases h.bound h.lookup
  refine ⟨_, by rw [uniformValues?, hshadow, Option.map_some], ?_⟩
  rw [h.uniformCalls_ready]
  cases hsends : d.sends p with
  | false => rfl
  | true =>
    rw [h.sends_eq, Bool.and_eq_true] at hsends
    simp only [if_pos hsends.1]

theorem Serves.ready (h : d.Serves p shadow) (hsends : d.sends p = true) :
    (Device.ready.run d).2.Serves p ⟨d.generation, (p.refresh d.registers shadow.values).1⟩ where
  bound := (speaks_ready d).bound.trans h.bound
  lookup := by
    obtain ⟨-, -, -, hshadow⟩ := ready_cases h.bound h.lookup
    rw [h.sends_eq, Bool.and_eq_true] at hsends
    rwa [if_pos hsends.1] at hshadow
  shapes := shapes_refresh h.shapes
  full := (speaks_ready d).registers ▸ h.full

end Ready

/-! ### Writing registers -/

theorem RegisterFiles.size_bump_setBump (files : RegisterFiles) (unit : Nat)
    (values : List Binary32) : (files.setBump unit values).bump.size = files.bump.size :=
  size_overwrite _ _ _

namespace Client

/-- Answers requests one after the other. -/
def performAll (c : Client) (requests : List Request) : Client := requests.foldl perform c

variable {c : Client} {p : LinkedProgram} {shadow : Shadow}

theorem size_bump_perform {r : Request} (hr : r.isWrite = true) :
    (c.perform r).device.registers.bump.size = c.device.registers.bump.size := by
  cases r with
  | setFloats stage start values => rw [perform, setFloats_run]; rfl
  | setInts stage start values => rw [perform, setInts_run]; rfl
  | setBools stage start values => rw [perform, setBools_run]; rfl
  | setBump unit matrix scale offset =>
    simp only [perform, setBump_run]
    rw [if_pos (by simpa [Request.isWrite] using hr)]
    exact RegisterFiles.size_bump_setBump _ _ _
  | _ => simp [Request.isWrite] at hr

theorem serves_perform (h : c.device.Serves p shadow) {r : Request} (hr : r.isWrite = true) :
    (c.perform r).device.Serves p shadow := by
  have hsized := sized_perform h.full.sized hr
  have hbump := size_bump_perform (c := c) hr
  obtain ⟨files, hperform⟩ := c.perform_write r hr
  rw [hperform] at hsized hbump ⊢
  exact ⟨h.bound, h.lookup, h.shapes, hsized, hbump.trans h.full.bump⟩

theorem serves_performAll (h : c.device.Serves p shadow) {writes : List Request}
    (hwrites : ∀ r ∈ writes, r.isWrite = true) :
    (c.performAll writes).device.Serves p shadow ∧
      (c.performAll writes).device.generation =
        c.device.generation + UInt64.ofNat writes.length := by
  induction writes generalizing c with
  | nil => exact ⟨h, (UInt64.add_zero _).symm⟩
  | cons r writes ih =>
    have hr := hwrites r mem_cons_self
    obtain ⟨hserves, hgeneration⟩ :=
      ih (serves_perform h hr) fun x hx => hwrites x (mem_cons_of_mem _ hx)
    refine ⟨hserves, hgeneration.trans ?_⟩
    rw [generation_perform, hr, if_pos rfl, UInt64.add_assoc, length_cons,
      Nat.add_comm writes.length, UInt64.ofNat_add]
    rfl

/-- A generation repeats after as many writes as there are generations. -/
theorem generation_ne_iff (g : UInt64) (n : Nat) : g ≠ g + UInt64.ofNat n ↔ ¬2 ^ 64 ∣ n := by
  rw [ne_eq, UInt64.left_eq_add, ← UInt64.toNat_inj, UInt64.toNat_ofNat', Nat.dvd_iff_mod_eq_zero]
  rfl

section

variable (hwell : p.WellFormed) (hin : ∀ e ∈ p.uniforms, e.2.InFile)
  (h : c.device.Serves p shadow) (hsends : c.device.sends p = true) {writes : List Request}
  (hwrites : ∀ r ∈ writes, r.isWrite = true)

include hwell hin h hsends hwrites

/-- A device that has sent the bound program sends it again after some writes exactly if they are
noticed and a word that the program reads has changed as a number. -/
theorem sends_performAll_iff :
    ((c.perform .ready).performAll writes).device.sends p = true ↔
      ¬2 ^ 64 ∣ writes.length ∧ ∃ f, p.Feeds f ∧ f.Changes c.device.registers
        ((c.perform .ready).performAll writes).device.registers := by
  have hready : (c.perform .ready).device.Serves p _ := h.ready hsends
  have hgeneration : (c.perform .ready).device.generation = c.device.generation :=
    (speaks_ready c.device).generation
  obtain ⟨hserves, hcount⟩ := serves_performAll hready hwrites
  have huniforms : p.hasUniforms = true := by
    rw [h.sends_eq, Bool.and_eq_true, Bool.and_eq_true] at hsends
    exact hsends.1.1
  rw [hserves.sends_eq, huniforms, Bool.true_and, Bool.and_eq_true, bne_iff_ne, hcount, hgeneration,
    generation_ne_iff, changed_refresh_iff hwell hserves.full hserves.shapes hin]
  refine and_congr_right fun _ => exists_congr fun f => and_congr_right fun hf =>
    exists_congr fun i => and_congr_right fun hi => not_congr ?_
  exact sameNumber_held_refresh_iff hwell h.full h.shapes hin hf hi _

end

end Client

/-- For every linked program whose uniforms are all in the register files:

* A refresh reports a change exactly if a window of the program differs, as numbers, from its
  registers. It copies the windows that differ and leaves the others as they are.
* It goes by bits exactly if every window with other bits also differs as numbers, and, where no
  window has other bits, no register of the program is no number.
* After the program was sent, it is sent again after some writes exactly if a word that it reads has
  changed as a number, and the writes are not so many that generations repeat. Registers that have
  all their bits again are sent exactly if one of them is no number. What is sent are the arrays of
  the program. -/
theorem LinkedProgram.uploads_follow_numbers {p : LinkedProgram} (hlinked : p.Linked)
    (hin : ∀ e ∈ p.uniforms, e.2.InFile) :
    (∀ files values, RegisterFiles.Full files → p.Shapes values →
      ((p.refresh files values).2 = true ↔ ∃ f, p.Feeds f ∧ f.Differs files values) ∧
      (∀ f, p.Feeds f → ∀ i < f.size, f.held (p.refresh files values).1 i =
        if f.Differs files values then f.word files i else f.held values i) ∧
      (p.ComparesBits files values ↔
        (∀ f, p.Feeds f → f.Stale files values → f.Differs files values) ∧
          ((∀ f, p.Feeds f → ¬f.Stale files values) → ∀ f, p.Feeds f → ¬f.HasNaN files))) ∧
    ∀ (c : Client) shadow writes, c.device.Serves p shadow → c.device.sends p = true →
      (∀ r ∈ writes, r.isWrite = true) →
      let d := ((c.perform .ready).performAll writes).device
      (d.sends p = true ↔ ¬2 ^ 64 ∣ writes.length ∧
        ∃ f, p.Feeds f ∧ f.Changes c.device.registers d.registers) ∧
      ((∀ f, p.Feeds f → f.Restored c.device.registers d.registers) →
        (d.sends p = true ↔ ¬2 ^ 64 ∣ writes.length ∧
          ∃ f, p.Feeds f ∧ f.HasNaN c.device.registers)) ∧
      ∃ values, (ready.run d).2.uniformValues? p = some values ∧
        uniformCalls d (ready.run d).2 = if d.sends p then d.uploads p values else [] := by
  have hwell := hlinked.wellFormed
  refine ⟨fun files values hfiles hvalues => ⟨changed_refresh_iff hwell hfiles hvalues hin,
    fun f hf i hi => held_refresh hwell hfiles hvalues hin hf hi,
    comparesBits_iff hwell hfiles hvalues hin⟩, ?_⟩
  intro c shadow writes hserves hsends hwrites
  have hagain := Client.sends_performAll_iff hwell hin hserves hsends hwrites
  have hlater := (Client.serves_performAll (c := c.perform .ready) (hserves.ready hsends)
    hwrites).1
  refine ⟨hagain, fun hrestored => ?_, ?_⟩
  · rw [hagain]
    refine and_congr_right fun _ => exists_congr fun f => and_congr_right fun hf => ?_
    exact (hrestored f hf).changes_iff
  · exact hlater.uniformCalls_values

/-! ### A register that is no number -/

theorem writeRegisters_writeRegisters {α : Type} (width : Nat) (file : Array α) (start : Nat)
    (values : List α) :
    writeRegisters width (writeRegisters width file start values) start values =
      writeRegisters width file start values := by
  unfold writeRegisters
  rw [size_overwrite]
  refine overwrite_eq_self fun i hi hbound => ?_
  rw [size_overwrite] at hbound
  rw [getElem?_overwrite, if_pos (by omega), Nat.add_sub_cancel_left]

/-- A write of a register that the program is fed, with a word that is no number. -/
def writeNaN : Request := .setFloats .vertex 5 [⟨0x7FC00000⟩, ⟨0⟩, ⟨0⟩, ⟨0⟩]

theorem registers_writeNaN (c : Client) :
    (c.perform writeNaN).device.registers = c.device.registers.modifyStage .vertex fun r =>
      { r with floats := writeRegisters 4 r.floats 5 [⟨0x7FC00000⟩, ⟨0⟩, ⟨0⟩, ⟨0⟩] } := by
  rw [writeNaN, perform, setFloats_run]
  rfl

/-- The same write after a draw leaves the registers as they are. -/
theorem registers_writeNaN_again (c : Client) :
    (((c.perform writeNaN).perform .ready).performAll [writeNaN]).device.registers =
      (c.perform writeNaN).device.registers := by
  have hready : ((c.perform writeNaN).perform .ready).device.registers =
      (c.perform writeNaN).device.registers :=
    (speaks_ready (c.perform writeNaN).device).registers
  rw [performAll, foldl_cons, foldl_nil, registers_writeNaN, hready, registers_writeNaN]
  simp only [RegisterFiles.modifyStage, PerStage.get_set, writeRegisters_writeRegisters]
  rfl

theorem hasNaN_writeNaN {c : Client} (hzero : c.device.registers = .zero) :
    (Feed.uniform .vertex 0 ⟨.float, 5, 0, false⟩).HasNaN
      (c.perform writeNaN).device.registers := by
  refine ⟨0, by decide, ?_⟩
  rw [registers_writeNaN, hzero]
  exact (congrArg (NotANumber .float) (word_of_written_zero _ _ _ _)).mpr (by decide)

theorem linked_fedProgram : fedProgram.Linked := by
  obtain ⟨d, hd⟩ : ∃ d, Device.create twoArrayDriver (.ofProfile .glsl120) = .ok d := ⟨_, rfl⟩
  obtain ⟨d', hlink⟩ : ∃ d', (link (some fedCompiled) none).run.run
      ((new d).perform (.compileLowered fedShader)).device = (.ok fedProgram, d') := by
    cases hd
    exact ⟨_, rfl⟩
  exact ⟨_, d', _, _, hlink, by simp [fedCompiled], by simp⟩

/-- A client that has bound the program, and has written no register yet. -/
theorem exists_serves_fedProgram : ∃ c : Client,
    c.device.Serves fedProgram ⟨-1, fedProgram.blank⟩ ∧ c.device.registers = .zero ∧
      c.device.generation = 0 := by
  obtain ⟨d, hd⟩ : ∃ d, Device.create twoArrayDriver (.ofProfile .glsl120) = .ok d := ⟨_, rfl⟩
  obtain ⟨c, hc⟩ : ∃ c, ((new d).perform (.compileLowered fedShader)).perform
      (.bindShaders (some fedCompiled) none) = c := ⟨_, rfl⟩
  obtain ⟨hbound, hshadow, hregisters, hgeneration⟩ : c.device.bound = some fedProgram ∧
      c.device.store.shadows[fedProgram.id]? = some ⟨-1, fedProgram.blank⟩ ∧ c.device.registers = .zero ∧
      c.device.generation = 0 := by
    subst hc
    cases hd
    exact ⟨rfl, rfl, rfl, rfl⟩
  refine ⟨c, ⟨hbound, hshadow, fedProgram.shapes_blank, ?_⟩, hregisters, hgeneration⟩
  rw [hregisters]
  exact ⟨RegisterFiles.sized_zero, Array.size_replicate⟩

/-- A program that has been sent is sent again after its registers were written with the bits that
they had, as one of them is no number. -/
theorem LinkedProgram.uploads_follow_numbers_nan :
    fedProgram.Linked ∧ (∀ e ∈ fedProgram.uniforms, e.2.InFile) ∧
    ∃ (c : Client) (shadow : Shadow), c.device.Serves fedProgram shadow ∧
      c.device.sends fedProgram = true ∧
      (∀ f, fedProgram.Feeds f → f.Restored c.device.registers
        ((c.perform .ready).performAll [writeNaN]).device.registers) ∧
      ((c.perform .ready).performAll [writeNaN]).device.sends fedProgram = true := by
  have hin : ∀ e ∈ fedProgram.uniforms, e.2.InFile := by decide
  obtain ⟨c, hserves, hzero, hgeneration⟩ := exists_serves_fedProgram
  have hwritten := Client.serves_perform hserves (r := writeNaN) rfl
  have hfeeds : fedProgram.Feeds (.uniform .vertex 0 ⟨.float, 5, 0, false⟩) :=
    .uniform ⟨[], .vertex, _, _, rfl, rfl⟩
  have hnan := hasNaN_writeNaN hzero
  have hsends : (c.perform writeNaN).device.sends fedProgram = true := by
    have hstale : (c.perform writeNaN).device.generation = 1 := by
      rw [Client.generation_perform, hgeneration]
      rfl
    have hchanged := (LinkedProgram.changed_refresh_iff linked_fedProgram.wellFormed hwritten.full
      hwritten.shapes hin).mpr ⟨_, hfeeds, hnan.differs⟩
    rw [hwritten.sends_eq, hchanged, hstale]
    rfl
  have hrestored : ∀ f, fedProgram.Feeds f → f.Restored (c.perform writeNaN).device.registers
      (((c.perform writeNaN).perform .ready).performAll [writeNaN]).device.registers := by
    intro f _ i _
    rw [registers_writeNaN_again]
  have hagain := (LinkedProgram.uploads_follow_numbers linked_fedProgram hin).2 _ _ [writeNaN]
    hwritten hsends (by simp [writeNaN, Request.isWrite])
  exact ⟨linked_fedProgram, hin, c.perform writeNaN, _, hwritten, hsends, hrestored,
    (hagain.2.1 hrestored).mpr ⟨by decide, _, hfeeds, hnan⟩⟩

end ShaderPipeline.Device
