import ShaderPipeline.Proofs.Device.CoherentRuns

/-!
# The driver's memory of local parameters

An assembly program has local parameters of its own, which belong to its name. They are zero when
the name is generated, and the calls that set them reach the program bound to their target.
`ParameterMemory.replay` gives the memory that a record of calls leaves.
-/

namespace ShaderPipeline.Device

open List SlotCursor

variable {stage : Stage} {cs : List Call} {excluded : Stage → Nat → Prop}
  {us : List (Stage × Uniform)} {values : PerStage StageUniforms}

/-- The memory of a driver of assembly programs: the program bound to the target of each stage, and
the words of each parameter of a program, by target, name, index and lane. -/
structure ParameterMemory where
  bound : PerStage Nat
  cells : Stage → Nat → Nat → Nat → UInt32

def stageOfTarget? (target : Nat) : Option Stage :=
  if target = programTarget .vertex then some .vertex
  else if target = programTarget .pixel then some .pixel
  else none

@[simp] theorem stageOfTarget?_programTarget (stage : Stage) :
    stageOfTarget? (programTarget stage) = some stage := by
  cases stage <;> rfl

def parameter? : Call → Option (Stage × Nat × Quad UInt32)
  | .localParameter4fv target index v =>
    (stageOfTarget? target).map fun s => (s, index, v.map (·.bits))
  | .localParameterI4iv target index v =>
    (stageOfTarget? target).map fun s => (s, index, v.map (·.toUInt32))
  | _ => none

namespace ParameterMemory

/-- Before any call. -/
def start : ParameterMemory := ⟨.both 0, fun _ _ _ _ => 0⟩

def write (m : ParameterMemory) (stage : Stage) (index : Nat) (v : Quad UInt32) :
    ParameterMemory :=
  { m with
    cells := fun s p i lane =>
      if s = stage ∧ p = m.bound.get stage ∧ i = index then v.toList.getD lane 0
      else m.cells s p i lane }

variable (m : ParameterMemory)

/-- The memory after a call. A program that is deleted is no longer bound. -/
def step (c : Call) : ParameterMemory :=
  match c with
  | .genProgramArb n =>
    { m with cells := fun s p => if p = n then fun _ _ => 0 else m.cells s p }
  | .bindProgramArb target n =>
    match stageOfTarget? target with
    | some stage => { m with bound := m.bound.set stage n }
    | none => m
  | .deleteProgramArb n =>
    { m with
      bound := ⟨if m.bound.vertex = n then 0 else m.bound.vertex,
        if m.bound.pixel = n then 0 else m.bound.pixel⟩ }
  | c =>
    match parameter? c with
    | some (stage, index, v) => m.write stage index v
    | none => m

/-- The memory after calls. -/
def after (m : ParameterMemory) (cs : List Call) : ParameterMemory := cs.foldl step m

def replay (cs : List Call) : ParameterMemory := start.after cs

@[simp] theorem after_nil : m.after [] = m := rfl

@[simp] theorem after_cons (c : Call) (cs : List Call) :
    m.after (c :: cs) = (m.step c).after cs := rfl

@[simp] theorem after_append (cs cs' : List Call) :
    m.after (cs ++ cs') = (m.after cs).after cs' := foldl_append

@[simp] theorem replay_append (cs cs' : List Call) :
    replay (cs ++ cs') = (replay cs).after cs' := after_append _ _ _

theorem step_of_parameter? {c : Call} {index : Nat} {v : Quad UInt32}
    (h : parameter? c = some (stage, index, v)) (m : ParameterMemory) :
    m.step c = m.write stage index v := by
  cases c <;> simp_all [parameter?, step]

/-- A call that does not touch the memory. -/
def Silent (c : Call) : Prop := ∀ m : ParameterMemory, m.step c = m

theorem after_of_silent (h : ∀ c ∈ cs, Silent c) (m : ParameterMemory) : m.after cs = m :=
  foldl_eq_self fun c hc => h c hc m

/-- Every call of a list sets a parameter, and none of them one that satisfies a condition. -/
def Avoids (excluded : Stage → Nat → Prop) (cs : List Call) : Prop :=
  ∀ c ∈ cs, ∃ stage index v, parameter? c = some (stage, index, v) ∧ ¬excluded stage index

theorem Avoids.after (h : Avoids excluded cs) (m : ParameterMemory) :
    (m.after cs).bound = m.bound ∧ ∀ stage p i lane, (p = m.bound.get stage → excluded stage i) →
      (m.after cs).cells stage p i lane = m.cells stage p i lane := by
  induction cs generalizing m with
  | nil => exact ⟨rfl, fun _ _ _ _ _ => rfl⟩
  | cons c cs ih =>
    obtain ⟨⟨stage', index, v, hc, hfree⟩, hrest⟩ := forall_mem_cons.mp h
    rw [after_cons, step_of_parameter? hc]
    obtain ⟨hbound, hcells⟩ := ih hrest (m.write stage' index v)
    refine ⟨hbound, fun stage p i lane hp => ?_⟩
    rw [hcells stage p i lane hp]
    refine if_neg ?_
    rintro ⟨rfl, rfl, rfl⟩
    exact hfree (hp rfl)

/-- A parameter of a bound program holds what the last call for it has set. -/
theorem cells_after_last {cs' : List Call} {c : Call} {index : Nat} {v : Quad UInt32}
    (hc : parameter? c = some (stage, index, v)) (hbefore : Avoids (fun _ _ => False) cs)
    (hafter : Avoids (fun s i => s = stage ∧ i = index) cs') (m : ParameterMemory) (lane : Nat) :
    (m.after (cs ++ c :: cs')).cells stage (m.bound.get stage) index lane =
      v.toList.getD lane 0 := by
  obtain ⟨hbound, -⟩ := hbefore.after m
  rw [after_append, after_cons, step_of_parameter? hc]
  obtain ⟨-, hcells⟩ := hafter.after ((m.after cs).write stage index v)
  rw [hcells _ _ _ _ fun _ => ⟨rfl, rfl⟩]
  simp [write, hbound]

end ParameterMemory

/-! ### The walk of the uploads -/

@[simp] theorem SlotCursor.advance_zero (c : SlotCursor) (kind : ValueKind) :
    c.advance kind 0 = c := by
  cases kind <;> rfl

theorem SlotCursor.advance_advance (c : SlotCursor) (kind : ValueKind) (m n : Nat) :
    (c.advance kind m).advance kind n = c.advance kind (m + n) := by
  cases kind <;> simp [advance, Nat.add_assoc]

/-- How far the uploads of a program have come: the stage, its next parameter and its next slots. -/
structure UploadCursor where
  stage : Option Stage
  index : Nat
  slots : SlotCursor

namespace UploadCursor

/-- Before the first uniform. -/
def start : UploadCursor := ⟨none, 0, .start⟩

variable (s : UploadCursor)

/-- The next parameter of a stage and its next slots; a stage that is new starts from the first. -/
def enter (stage : Stage) : Nat × SlotCursor :=
  if s.stage = some stage then (s.index, s.slots) else (0, .start)

def advance (s : UploadCursor) (e : Stage × Uniform) : UploadCursor :=
  ⟨some e.1, (s.enter e.1).1 + e.2.width, (s.enter e.1).2.advance e.2.kind e.2.width⟩

theorem enter_advance_self (stage : Stage) (u : Uniform) :
    (s.advance (stage, u)).enter stage =
      ((s.enter stage).1 + u.width, (s.enter stage).2.advance u.kind u.width) := by
  simp [enter, advance]

theorem enter_advance_of_ne {stage' : Stage} (u : Uniform) (h : stage' ≠ stage) :
    (s.advance (stage', u)).enter stage = (0, .start) := by
  simp [enter, advance, h]

theorem enter_foldl_of_other (h : ∀ e ∈ us, e.1 ≠ stage) {s : UploadCursor}
    (hs : s.enter stage = (0, .start)) : (us.foldl advance s).enter stage = (0, .start) := by
  induction us generalizing s with
  | nil => exact hs
  | cons e us ih =>
    obtain ⟨hfirst, hrest⟩ := forall_mem_cons.mp h
    exact ih hrest (enter_advance_of_ne s e.2 hfirst)

theorem enter_foldl_of_same (stage : Stage) (us : List Uniform) (s : UploadCursor) :
    (((us.map fun u => (stage, u)).foldl advance s).enter stage).1 =
        (s.enter stage).1 + (us.map (·.width)).sum ∧
      ∀ kind, (((us.map fun u => (stage, u)).foldl advance s).enter stage).2.next kind =
        (s.enter stage).2.next kind + slotsBefore (us.map fun u => (stage, u)) stage kind := by
  induction us generalizing s with
  | nil => exact ⟨rfl, fun _ => rfl⟩
  | cons u us ih =>
    obtain ⟨hindex, hslots⟩ := ih (s.advance (stage, u))
    rw [enter_advance_self] at hindex hslots
    refine ⟨?_, fun kind => ?_⟩
    · rw [map_cons, map_cons, foldl_cons, hindex, sum_cons]
      omega
    · rw [map_cons, foldl_cons, hslots kind, next_advance, slotsBefore_cons]
      simp only [true_and]
      omega

end UploadCursor

section Uploads

variable (integers : Bool) (values : PerStage StageUniforms) (s : UploadCursor)

def uploadsFrom (us : List (Stage × Uniform)) : List Call :=
  uniformUploads integers values s.stage s.index s.slots us

theorem uploadsFrom_cons (e : Stage × Uniform) (us : List (Stage × Uniform)) :
    uploadsFrom integers values s (e :: us) =
      parameterUploads integers (programTarget e.1) (values.get e.1) e.2.kind e.2.width
          (s.enter e.1).1 (s.enter e.1).2 ++
        uploadsFrom integers values (s.advance e) us := by
  obtain ⟨stage, u⟩ := e
  simp [uploadsFrom, uniformUploads, UploadCursor.advance, UploadCursor.enter]

theorem uploadsFrom_append (us vs : List (Stage × Uniform)) :
    uploadsFrom integers values s (us ++ vs) =
      uploadsFrom integers values s us ++
        uploadsFrom integers values (us.foldl UploadCursor.advance s) vs := by
  induction us generalizing s with
  | nil => rfl
  | cons e us ih =>
    rw [cons_append, uploadsFrom_cons, ih, uploadsFrom_cons, append_assoc]
    rfl

theorem parameter?_float (stage : Stage) (index : Nat) (v : Quad Binary32) :
    parameter? (.localParameter4fv (programTarget stage) index v) =
      some (stage, index, v.map (·.bits)) := by
  simp [parameter?]

theorem parameter?_parameterUpload (stage : Stage) (index : Nat) (v : StageUniforms)
    (c : SlotCursor) (kind : ValueKind) :
    ∃ q, parameter? (parameterUpload integers (programTarget stage) index v c kind) =
      some (stage, index, q) := by
  cases kind <;> cases integers <;> simp [parameterUpload, intParameter, parameter?]

theorem avoids_parameterUploads (v : StageUniforms) (kind : ValueKind) (count index : Nat)
    (c : SlotCursor) (h : ∀ i, index ≤ i → ¬excluded stage i) :
    ParameterMemory.Avoids excluded
      (parameterUploads integers (programTarget stage) v kind count index c) := by
  induction count generalizing index c with
  | zero => nofun
  | succ n ih =>
    obtain ⟨q, hq⟩ := parameter?_parameterUpload integers stage index v c kind
    exact forall_mem_cons.mpr ⟨⟨stage, index, q, hq, h index (le_refl _)⟩,
      ih (index + 1) _ fun i hi => h i (by omega)⟩

/-- Uploads of other stages set no parameter of a stage. -/
theorem avoids_uploadsFrom_of_other (h : ∀ e ∈ us, ∀ i, ¬excluded e.1 i) (s : UploadCursor) :
    ParameterMemory.Avoids excluded (uploadsFrom integers values s us) := by
  induction us generalizing s with
  | nil => nofun
  | cons e us ih =>
    obtain ⟨hfirst, hrest⟩ := forall_mem_cons.mp h
    rw [uploadsFrom_cons]
    exact forall_mem_append.mpr
      ⟨avoids_parameterUploads integers _ _ _ _ _ fun i _ => hfirst i, ih hrest _⟩

/-- Uploads of a stage set no parameter before its next one. -/
theorem avoids_uploadsFrom_of_same (us : List Uniform) (s : UploadCursor)
    (h : ∀ i, (s.enter stage).1 ≤ i → ¬excluded stage i) :
    ParameterMemory.Avoids excluded
      (uploadsFrom integers values s (us.map fun u => (stage, u))) := by
  induction us generalizing s with
  | nil => nofun
  | cons u us ih =>
    rw [map_cons, uploadsFrom_cons]
    refine forall_mem_append.mpr ⟨avoids_parameterUploads integers _ _ _ _ _ h,
      ih (s.advance (stage, u)) fun i hi => h i ?_⟩
    rw [UploadCursor.enter_advance_self] at hi
    exact le_trans (Nat.le_add_right _ _) hi

theorem parameterUploads_split (stage : Stage) (v : StageUniforms) (kind : ValueKind)
    (k n index : Nat) (c : SlotCursor) :
    parameterUploads integers (programTarget stage) v kind (k + (n + 1)) index c =
      parameterUploads integers (programTarget stage) v kind k index c ++
        parameterUpload integers (programTarget stage) (index + k) v (c.advance kind k) kind ::
          parameterUploads integers (programTarget stage) v kind n (index + k + 1)
            (c.advance kind (k + 1)) := by
  induction k generalizing index c with
  | zero => rw [Nat.zero_add, parameterUploads, advance_zero, Nat.add_zero]; rfl
  | succ k ih =>
    have hcount : k + 1 + (n + 1) = k + (n + 1) + 1 := by omega
    rw [hcount, parameterUploads, ih, parameterUploads, advance_advance, advance_advance]
    simp only [cons_append, Nat.add_comm 1, Nat.add_assoc]

theorem uploadsFrom_float (stage : Stage) {u : Uniform} (hkind : u.kind = .float) {k : Nat}
    (hk : k < u.width) (us : List (Stage × Uniform)) :
    ∃ first last, uploadsFrom integers values s ((stage, u) :: us) = first ++
        .localParameter4fv (programTarget stage) ((s.enter stage).1 + k)
          (quadAt .zero (values.get stage).floats (4 * ((s.enter stage).2.next .float + k))) ::
            (last ++ uploadsFrom integers values (s.advance (stage, u)) us) ∧
      ParameterMemory.Avoids (fun t i => t = stage ∧ i = (s.enter stage).1 + k) last := by
  refine ⟨parameterUploads integers (programTarget stage) (values.get stage) .float k
      (s.enter stage).1 (s.enter stage).2,
    parameterUploads integers (programTarget stage) (values.get stage) .float (u.width - k - 1)
      ((s.enter stage).1 + k + 1) ((s.enter stage).2.advance .float (k + 1)), ?_,
    avoids_parameterUploads integers _ _ _ _ _ fun i hi => by omega⟩
  obtain ⟨n, hn⟩ : ∃ n, u.width = k + (n + 1) := ⟨u.width - k - 1, by omega⟩
  rw [uploadsFrom_cons, hkind, hn, parameterUploads_split, show k + (n + 1) - k - 1 = n by omega,
    append_assoc]
  rfl

theorem word_quadAt (v : StageUniforms) {n lane : Nat} (hlane : lane < 4)
    (hroom : 4 * (n + 1) ≤ (v.words .float).length) :
    ((quadAt .zero v.floats (4 * n)).map (·.bits)).toList.getD lane 0 =
      v.word .float (4 * n + lane) := by
  have hsize : 4 * n + 4 ≤ v.floats.size := by
    simpa [StageUniforms.words, Nat.mul_add] using hroom
  have hcells := cells?_eq_some v.floats (4 * n) hsize
  have hvalue : ∀ i < 4, (v.floats.extract (4 * n) (4 * n + 4)).toList[i]? =
      v.floats[4 * n + i]? := fun i hi =>
    getElem?_of_cells? hcells (by omega)
  have hword : ∀ i < 4, ((v.floats.extract (4 * n) (4 * n + 4)).toList.getD i .zero).bits =
      v.word .float (4 * n + i) := by
    intro i hi
    obtain ⟨b, hb⟩ : ∃ b, v.floats[4 * n + i]? = some b :=
      ⟨_, Array.getElem?_eq_getElem (by omega)⟩
    simp only [getD_eq_getElem?_getD, hvalue i hi, StageUniforms.word, StageUniforms.words,
      getElem?_map, Array.getElem?_toList, hb]
    rfl
  rw [quadAt, hcells]
  interval_cases lane
  · exact hword 0 (by omega)
  · exact hword 1 (by omega)
  · exact hword 2 (by omega)
  · exact hword 3 (by omega)

end Uploads

/-! ### The uploads of a program -/

theorem sum_width_fed (us : List Uniform) :
    ((us.filter (!·.constant)).map (·.width)).sum = slotCount us := by
  induction us with
  | nil => rfl
  | cons u us ih =>
    cases hc : u.constant
    · rw [filter_cons_of_pos (by simp [hc]), map_cons, sum_cons, ih, slotCount_cons]
      simp [Uniform.slots, hc]
    · rw [filter_cons_of_neg (by simp [hc]), ih, slotCount_cons]
      simp [Uniform.slots, hc]

theorem UploadCursor.enter_at {first : List (Stage × Uniform)} (hfirst : ∀ e ∈ first, e.1 ≠ stage)
    (before : List Uniform) :
    (((first ++ fedUniforms stage before).foldl advance start).enter stage).1 =
        slotCount before ∧
      ∀ kind, (((first ++ fedUniforms stage before).foldl advance start).enter stage).2.next kind =
        slotCount (before.filter (·.kind == kind)) := by
  have hstart := enter_foldl_of_other hfirst (s := start) (by simp [enter, start])
  obtain ⟨hindex, hslots⟩ :=
    enter_foldl_of_same stage (before.filter (!·.constant)) (first.foldl advance start)
  rw [foldl_append]
  refine ⟨?_, fun kind => ?_⟩
  · rw [fedUniforms, hindex, hstart, Nat.zero_add, sum_width_fed]
  · rw [fedUniforms, hslots, hstart, next_start, Nat.zero_add]
    exact slotsBefore_fedUniforms stage before kind

theorem avoids_bumpUploads (v : StageUniforms) (bumpCount : Nat)
    (h : ∀ i, v.bumpBase bumpCount ≤ i → ¬excluded .pixel i) :
    ParameterMemory.Avoids excluded (bumpUploads v bumpCount) := by
  intro c hc
  obtain ⟨slot, hslot, rfl⟩ := mem_map.mp hc
  exact ⟨.pixel, slot, _, parameter?_float .pixel slot _, h slot (mem_range'_1.mp hslot).1⟩

namespace LinkedProgram

variable {p : LinkedProgram} {stage : Stage} {s : CompiledShader} {u : Uniform} {k slot : Nat}

theorem avoids_assemblyUploads (p : LinkedProgram) (integers : Bool)
    (values : PerStage StageUniforms) :
    ParameterMemory.Avoids (fun _ _ => False) (p.assemblyUploads integers values) := by
  refine forall_mem_append.mpr
    ⟨avoids_uploadsFrom_of_other integers values (fun _ _ _ => not_false) .start, ?_⟩
  split_ifs
  · exact avoids_bumpUploads _ _ fun _ _ => not_false
  · nofun

/-- One call of the uploads sends a float, and those after it leave its parameter alone. -/
theorem assemblyUploads_split (h : p.WellFormed) (hs : p.shader stage = some s)
    (hfloats : s.code.FloatsFirst) (hkind : u.kind = .float)
    (hpacked : PackedAt s.code.uniforms u k slot) (integers : Bool) (hroom : p.HasRoom values) :
    ∃ first last, p.assemblyUploads integers values = first ++
        .localParameter4fv (programTarget stage) slot
          (quadAt .zero (values.get stage).floats (4 * slot)) :: last ∧
      ParameterMemory.Avoids (fun s i => s = stage ∧ i = slot) last := by
  have hlt : slot < slotsBefore p.uniforms stage .float := by
    rw [h.slotsBefore_uniforms, hs, ← hkind]
    exact hpacked.lt
  obtain ⟨hfed, hk, before, after, hu, hslot⟩ := hpacked
  obtain ⟨first, last, huniforms, hfirst, hlast⟩ := h.split_at hs hu hfed
  obtain ⟨hindex, hslots⟩ := UploadCursor.enter_at hfirst before
  -- Only floats stand before the uniform, so its parameters are its slots.
  have hfilter : before.filter (·.kind == u.kind) = before := by
    rw [filter_eq_self]
    intro v hv
    simp [hfloats.before hu hkind v hv, hkind]
  have hnext := hslots u.kind
  rw [hfilter] at hslot hnext
  obtain ⟨own, later, hown, hlater⟩ := uploadsFrom_float integers values
    ((first ++ fedUniforms stage before).foldl UploadCursor.advance .start) stage hkind hk
    (fedUniforms stage after ++ last)
  rw [hindex, ← hkind, hnext, ← hslot] at hown
  rw [hindex, ← hslot] at hlater
  have hbehind := UploadCursor.enter_advance_self
    ((first ++ fedUniforms stage before).foldl UploadCursor.advance .start) stage u
  generalize hcursor : (first ++ fedUniforms stage before).foldl UploadCursor.advance .start =
    cursor at hindex hown hbehind
  refine ⟨uploadsFrom integers values .start (first ++ fedUniforms stage before) ++ own, later ++
    uploadsFrom integers values (cursor.advance (stage, u)) (fedUniforms stage after ++ last) ++
    if 0 < p.bumpCount then bumpUploads values.pixel p.bumpCount else [], ?_, ?_⟩
  · rw [assemblyUploads]
    change uploadsFrom integers values .start p.uniforms ++ _ = _
    rw [huniforms, uploadsFrom_append, hcursor, hown]
    simp
  · intro c hc
    rw [uploadsFrom_append] at hc
    simp only [mem_append] at hc
    rcases hc with (hc | hc | hc) | hc
    · exact hlater c hc
    · refine avoids_uploadsFrom_of_same integers values _ _ (fun i hi hex => ?_) c hc
      rw [hbehind] at hi
      omega
    · exact avoids_uploadsFrom_of_other integers values (fun e he i hex => hlast e he hex.1) _ c hc
    · split_ifs at hc
      · refine avoids_bumpUploads _ _ (fun i hi hex => ?_) c hc
        rw [← hex.1] at hlt
        exact absurd (hlt.trans_le (hroom.bump.trans hi)) (by omega)
      · cases hc

/-- What the uploads of a program leave at the slot of a float: the word of its array, if they reach
the program that is asked about. -/
theorem cells_assemblyUploads (h : p.WellFormed) (hs : p.shader stage = some s)
    (hfloats : s.code.FloatsFirst) (hkind : u.kind = .float)
    (hpacked : PackedAt s.code.uniforms u k slot) (integers : Bool) (hroom : p.HasRoom values)
    (m : ParameterMemory) (n : Nat) {lane : Nat} (hlane : lane < 4) :
    (m.after (p.assemblyUploads integers values)).cells stage n slot lane =
      if n = m.bound.get stage then (values.get stage).word .float (4 * slot + lane)
      else m.cells stage n slot lane := by
  have hall := p.avoids_assemblyUploads integers values
  split_ifs with hn
  · obtain ⟨first, last, hsplit, hlast⟩ :=
      assemblyUploads_split h hs hfloats hkind hpacked integers hroom
    have hfirst : ParameterMemory.Avoids (fun _ _ => False) first :=
      fun c hc => hall c (by rw [hsplit]; exact mem_append_left _ hc)
    have hfits := hroom.fits stage .float
    rw [h.slotsBefore_uniforms, hs, ← hkind] at hfits
    have hlt : slot < s.code.slots u.kind := hpacked.lt
    rw [hn, hsplit, ParameterMemory.cells_after_last (parameter?_float stage slot _) hfirst hlast,
      word_quadAt _ hlane]
    rw [hkind] at hlt hfits
    exact (Nat.mul_le_mul_left 4 hlt).trans hfits
  · exact (hall.after m).2 stage n slot lane fun heq => absurd heq hn

end LinkedProgram

end ShaderPipeline.Device
