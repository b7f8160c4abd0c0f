import ShaderPipeline.Proofs.Device.Moves

/-!
# Linked pairs

A device keeps the program that it linked for a pair of shaders, by the names of the two. Names
may be given again once their objects are deleted. A pair that is kept stays right all the same,
since its program refers to its shaders, and so their names are not given to others.
-/

namespace ShaderPipeline.Device

open List Multiset

open Books

variable {q : LinkedProgram} {vertex pixel : Option CompiledShader}

def Call.builds : Call → Bool
  | .createShader .. | .createProgram .. | .genProgramArb .. => true
  | .attachShader .. | .linkProgram .. => true
  | _ => false

/-! ### Names of shaders that are referred to -/

namespace Books.Ledger

variable {b : Books}

theorem eq_of_name_eq (h : Ledger b) (hnames : Registry.Distinct b.calls) {x y : CompiledShader}
    (hx : x ∈ b.shaderRefs) (hy : y ∈ b.shaderRefs) (hxy : x.name = y.name) : x = y := by
  have hnodup := hnames.nodup_after
  rw [h.accounts.balanced, Store.owed] at hnodup
  have hobjects := (nodup_add.mp (nodup_add.mp hnodup).1).2.1
  exact inj_on_of_nodup_map hobjects x (mem_dedup.mpr hx) y
    (mem_dedup.mpr hy) (congrArg (ObjectName.ofShader b.glsl) hxy)

theorem name_ne_zero (h : Ledger b) (hnames : Registry.Distinct b.calls) {x : CompiledShader}
    (hx : x ∈ b.shaderRefs) : x.name ≠ 0 := by
  have hnumber := hnames.number_ne_zero (h.mem_of_shader hx)
  rw [CompiledShader.object, ObjectName.ofShader] at hnumber
  split_ifs at hnumber <;> exact hnumber

/-- A name tells which shader is at a stage, if any. -/
theorem eq_of_nameOf_eq (h : Ledger b) (hnames : Registry.Distinct b.calls)
    {x y : Option CompiledShader} (hx : ∀ s ∈ x, s ∈ b.shaderRefs) (hy : ∀ s ∈ y, s ∈ b.shaderRefs)
    (hxy : nameOf x = nameOf y) : x = y := by
  cases x with
  | none =>
    cases y with
    | none => rfl
    | some y => exact absurd hxy.symm (h.name_ne_zero hnames (hy y rfl))
  | some x =>
    cases y with
    | none => exact absurd hxy (h.name_ne_zero hnames (hx x rfl))
    | some y => exact congrArg some (h.eq_of_name_eq hnames (hx x rfl) (hy y rfl) hxy)

end Books.Ledger

/-! ### Binding -/

section Binding

variable {d : Device} {shaders : Multiset CompiledShader} {programs : Multiset LinkedProgram}

/-- A program that is kept for a pair is bound and stays kept. -/
theorem bound_bind (h : (((bind (some q)).run d).2.books shaders programs).Ledger)
    (hcached : d.cached? vertex pixel = some q) :
    ((bind (some q)).run d).2.bound = some q ∧
      ((bind (some q)).run d).2.cached? vertex pixel = some q := by
  have hkept : ((bind (some q)).run d).2.cached? vertex pixel = some q := by
    rw [cached?, linkCache_bind, ← cached?, hcached]
  have hcases : ((bind (some q)).run d).2.bound = some q ∨
      sameProgram (some q) ((bind (some q)).run d).2.bound = true := by
    rw [bind_run, bindHeld_run]
    split_ifs with hsame
    · exact Or.inr hsame
    · exact Or.inl rfl
  refine ⟨hcases.elim id fun hsame => ?_, hkept⟩
  cases hbound : ((bind (some q)).run d).2.bound with
  | none => simp [hbound, sameProgram] at hsame
  | some p =>
    rw [hbound] at hsame
    have hp := @mem_programRefs_of_bound _ _ shaders programs hbound
    have hq := @mem_programRefs_of_links _ _ shaders programs
      (mem_map_of_mem (mem_linkCache_of_cached hkept))
    exact congrArg some (h.accounts.programCounts.unique p hp q hq (eq_of_beq hsame).symm)

/-- If a pair is bound without failure, a program of these shaders is, which is kept for them. -/
theorem exists_bound_of_bindShaders (h : (d.books shaders programs).Ledger)
    (hnames : Registry.Distinct d.calls.toList) (hvertex : ∀ s ∈ vertex, s ∈ shaders)
    (hpixel : ∀ s ∈ pixel, s ∈ shaders) (hsome : ¬(vertex.isNone = true ∧ pixel.isNone = true))
    (hok : ((bindShaders vertex pixel).run.run d).1 = .ok ()) :
    ∃ q, ((bindShaders vertex pixel).run.run d).2.bound = some q ∧
      q.vertex = vertex ∧ q.pixel = pixel ∧
      ((bindShaders vertex pixel).run.run d).2.cached? vertex pixel = some q := by
  have hledger := h.reaches (reaches_bindShaders d hvertex hpixel)
  have hrun := bindShaders_run hsome d
  cases hcached : d.cached? vertex pixel with
  | some q =>
    rw [hcached] at hrun
    rw [hrun] at hledger ⊢
    obtain ⟨hbound, hkept⟩ := bound_bind hledger hcached
    -- The names of the pair that was found are those of the pair that was asked for.
    have hmem := mem_linkCache_of_cached hcached
    obtain ⟨hv, hp⟩ := Prod.mk.inj (h.keyed _ hmem)
    obtain ⟨hvertex', hpixel'⟩ := mem_shaderRefs_of_program
      (mem_programRefs_of_links d (mem_map_of_mem hmem))
    exact ⟨q, hbound, h.eq_of_nameOf_eq hnames hvertex'
        (fun s hs => mem_shaderRefs_of_shaders _ (hvertex s hs)) hv.symm,
      h.eq_of_nameOf_eq hnames hpixel'
        (fun s hs => mem_shaderRefs_of_shaders _ (hpixel s hs)) hp.symm, hkept⟩
  | none =>
    have hlinks := (speaks_link d vertex pixel).linkCache
    rw [hcached] at hrun
    rcases hlink : (link vertex pixel).run.run d with ⟨r, d'⟩
    rw [hlink] at hrun hlinks
    cases r with
    | error e =>
      rw [hrun] at hok
      simp at hok
    | ok q =>
      have hnew : ({ d' with
          linkCache := d'.linkCache ++ [((nameOf vertex, nameOf pixel), q)] } : Device).cached?
            vertex pixel = some q := by
        rw [cached?, lookup_append, hlinks, ← cached?, hcached]
        simp
      rw [hrun] at hledger ⊢
      obtain ⟨hbound, hkept⟩ := bound_bind hledger hnew
      obtain ⟨hv, hp⟩ := shaders_of_link hlink
      exact ⟨q, hbound, hv, hp, hkept⟩

theorem builds_of_about {cs : List Call} (h : About [.binding, .value, .drawing] cs) :
    ∀ c ∈ cs, c.builds = false := by
  intro c hc
  have hmem := h c hc
  cases c <;> first | rfl | simp [Call.subject] at hmem

theorem builds_deletions (glsl : Bool) (rs : List Released) :
    ∀ c ∈ deletions glsl rs, c.builds = false := by
  intro c hc
  obtain ⟨r, -, hc⟩ := mem_flatMap.mp hc
  cases r <;> cases glsl <;> simp at hc <;> simp [hc, Call.builds]

/-- Binding a program makes it current and deletes what is queued, if it does anything. -/
theorem callsSince_bindHeld (d : Device) (q : LinkedProgram) :
    callsSince d ((bindHeld (some q)).run d).2 = [] ∨ ∃ glsl rs,
      callsSince d ((bindHeld (some q)).run d).2 = useCalls glsl q.names ++ deletions glsl rs := by
  have hcollected : ∀ (d : Device) (s : Store), (d.withStore s).collected.calls.toList =
      d.calls.toList ++ deletions d.profile.isGlsl s.released := fun _ _ => calls_say _ _
  have hswitched : (d.switched (some q)).calls.toList =
      d.calls.toList ++ useCalls d.profile.isGlsl q.names := calls_say d.cleared _
  have hprofile := (grows_switched d (some q)).profile
  rw [bindHeld_run]
  split_ifs
  · exact Or.inl (callsSince_self d)
  · generalize d.switched (some q) = d' at *
    have hcalls := hcollected d' (d'.store.dropProgram? d.bound)
    rw [hswitched, hprofile, append_assoc] at hcalls
    exact Or.inr ⟨_, _, callsSince_of_append hcalls⟩

theorem builds_bind (d : Device) (q : LinkedProgram) :
    ∀ c ∈ callsSince d ((bind (some q)).run d).2, c.builds = false := by
  intro c hc
  rcases callsSince_bindHeld (d.withStore (d.store.holdProgram? (some q))) q with
    hcalls | ⟨glsl, rs, hcalls⟩
  · exact absurd (hcalls ▸ hc) not_mem_nil
  · rcases mem_append.mp (hcalls ▸ hc) with hc | hc
    · exact builds_of_about ((about_useCalls _ _).mono (by simp)) c hc
    · exact builds_deletions _ _ c hc

end Binding

/-! ### The linked pairs of a client -/

namespace Client

variable (c : Client)

/-- The linked pairs are only added to, unless a shader is deleted. -/
theorem linkCache_perform {r : Request} (hr : ∀ s, r ≠ .deleteShader s) :
    c.device.linkCache <+: (c.perform r).device.linkCache := by
  have hkept : ∀ {d : Device}, d.linkCache = c.device.linkCache →
      c.device.linkCache <+: d.linkCache := fun h => h ▸ prefix_refl _
  cases hw : r.isWrite with
  | true =>
    obtain ⟨files, hperform⟩ := c.perform_write r hw
    rw [hperform]
    exact prefix_refl _
  | false =>
    cases hbinds : r.rebinds with
    | false =>
      have hspeaks := c.speaks_perform r hw hbinds
      exact hkept hspeaks.linkCache
    | true =>
      cases r with
      | bind p => exact hkept (linkCache_bind _ p)
      | bindShaders vertex pixel =>
        have hlink := (speaks_link c.device vertex pixel).linkCache
        refine bindShaders_induct (P := fun d => c.device.linkCache <+: d.linkCache)
          (hkept (linkCache_bind c.device none)) (fun p _ => hkept (linkCache_bind _ _))
          (fun e d hrun => ?_) fun p d hrun => ?_ <;> rw [hrun] at hlink
        · exact hkept hlink
        · rw [linkCache_bind, ← hlink]
          exact prefix_append _ _
      | deleteShader s => exact absurd rfl (hr s)
      | _ => exact absurd hbinds Bool.false_ne_true

theorem linkCache_deleteShader (s : CompiledShader) :
    (c.perform (.deleteShader s)).device.linkCache =
      c.device.linkCache.filter fun e => !e.2.uses s := by
  rw [perform, deleteShader_run]
  rfl

def Refers (s : CompiledShader) : Prop :=
  s ∈ c.shaders ∨ ∃ p ∈ c.references, p.vertex = some s ∨ p.pixel = some s

/-- A name is that of a stage of a pair, zero if the stage is missing, and of no other shader that
is referred to. -/
structure NamesStage (c : Client) (name : Nat) (stage : Option CompiledShader) : Prop where
  eq_nameOf : name = nameOf stage
  eq_none : name = 0 → stage = none
  unique : ∀ s, c.Refers s → s.name = name → stage = some s

/-- A pair of shaders, at least one of them given, is bound, and a program with it. -/
structure Serves (c : Client) (vertex pixel : Option CompiledShader) (q : LinkedProgram) :
    Prop where
  allowed : c.Allows (.bindShaders vertex pixel)
  given : ¬(vertex.isNone = true ∧ pixel.isNone = true)
  succeeds : ((Device.bindShaders vertex pixel).run.run c.device).1 = .ok ()
  bound : (c.perform (.bindShaders vertex pixel)).device.bound = some q

section Ledger

variable {c : Client}

theorem mem_links (hcached : c.device.cached? vertex pixel = some q) :
    q ∈ (c.books 0 0).programRefs :=
  mem_programRefs_of_links _ (mem_map_of_mem (mem_linkCache_of_cached hcached))

variable (h : (c.books 0 0).Ledger)
include h

theorem uses_iff {p : LinkedProgram} (hp : p ∈ (c.books 0 0).programRefs) {s : CompiledShader}
    (hs : c.Refers s) : p.uses s = true ↔ p.vertex = some s ∨ p.pixel = some s := by
  have hrefs := mem_shaderRefs_of_allows 0 0 hs
  obtain ⟨hvertex, hpixel⟩ := mem_shaderRefs_of_program hp
  have hstage : ∀ {x : Option CompiledShader}, (∀ y ∈ x, y ∈ (c.books 0 0).shaderRefs) →
      (x.any (·.id == s.id) = true ↔ x = some s) := by
    intro x hx
    cases x with
    | none => simp
    | some y =>
      rw [Option.any_some, beq_iff_eq, Option.some_inj]
      exact ⟨h.accounts.shaderCounts.unique y (hx y rfl) s hrefs, congrArg _⟩
  rw [LinkedProgram.uses, Bool.or_eq_true, hstage hvertex, hstage hpixel]

theorem cached?_perform {r : Request} (hcached : c.device.cached? vertex pixel = some q)
    (hallowed : c.Allows r)
    (hkept : ∀ s, r = .deleteShader s → q.vertex ≠ some s ∧ q.pixel ≠ some s) :
    (c.perform r).device.cached? vertex pixel = some q := by
  by_cases hr : ∀ s, r ≠ .deleteShader s
  · obtain ⟨more, hmore⟩ := c.linkCache_perform hr
    rw [cached?, ← hmore, lookup_append, ← cached?, hcached]
    rfl
  · obtain ⟨s, hs⟩ := not_forall_not.mp hr
    subst hs
    obtain ⟨first, last, hlinks, hfirst⟩ := lookup_eq_some_iff.mp hcached
    have huses : q.uses s = false := by
      rw [Bool.eq_false_iff, ne_eq, uses_iff h (mem_links hcached) (Or.inl hallowed), not_or]
      exact hkept s rfl
    rw [cached?, linkCache_deleteShader, hlinks]
    refine lookup_eq_some_iff.mpr ⟨first.filter fun e => !e.2.uses s,
      last.filter fun e => !e.2.uses s, ?_, fun e he => hfirst e (mem_of_mem_filter he)⟩
    rw [filter_append, List.filter_cons_of_pos (by simp [huses])]

section Pairs

variable {vertex pixel : Option CompiledShader} {q : LinkedProgram}
  (hallowed : c.Allows (.bindShaders vertex pixel))
  (hsome : ¬(vertex.isNone = true ∧ pixel.isNone = true))
include hallowed hsome

theorem serves_of_cached (hcached : c.device.cached? vertex pixel = some q) :
    c.Serves vertex pixel q ∧ ∀ call ∈ callsSince c.device
      (c.perform (.bindShaders vertex pixel)).device, call.builds = false := by
  have hrun := bindShaders_run hsome c.device
  rw [hcached] at hrun
  have hledger := h.reaches (reaches_perform c 0 0 hallowed)
  have hdevice : (c.perform (.bindShaders vertex pixel)).device =
      ((Device.bind (some q)).run c.device).2 := by rw [perform, hrun]
  rw [books, hdevice] at hledger
  rw [hdevice]
  exact ⟨⟨hallowed, hsome, by rw [hrun], hdevice ▸ (bound_bind hledger hcached).1⟩,
    builds_bind c.device q⟩

/-- If a pair is bound without failure, a program of these shaders is, which is kept for them. -/
theorem exists_serves (hnames : Registry.Distinct c.device.calls.toList)
    (hok : ((Device.bindShaders vertex pixel).run.run c.device).1 = .ok ()) :
    ∃ q, c.Serves vertex pixel q ∧ q.vertex = vertex ∧ q.pixel = pixel ∧
      (c.perform (.bindShaders vertex pixel)).device.cached? vertex pixel = some q := by
  have hheld : ∀ {x : Option CompiledShader}, (∀ s ∈ x, s ∈ c.shaders) →
      ∀ s ∈ x, s ∈ (↑c.shaders + 0 : Multiset CompiledShader) :=
    fun hx s hs => mem_add.mpr (Or.inl (hx s hs))
  obtain ⟨q, hbound, hvertex, hpixel, hkept⟩ :=
    exists_bound_of_bindShaders h hnames (hheld hallowed.1) (hheld hallowed.2) hsome hok
  exact ⟨q, ⟨hallowed, hsome, hok, hbound⟩, hvertex, hpixel, hkept⟩

end Pairs

theorem Serves.program_eq (hnames : Registry.Distinct c.device.calls.toList)
    (hserves : c.Serves vertex pixel q) :
    q.vertex = vertex ∧ q.pixel = pixel ∧
      (c.perform (.bindShaders vertex pixel)).device.cached? vertex pixel = some q := by
  obtain ⟨p, hp, hprogram⟩ :=
    exists_serves h hserves.allowed hserves.given hnames hserves.succeeds
  obtain rfl := Option.some.inj (hp.bound.symm.trans hserves.bound)
  exact hprogram

end Ledger

/-- Along a course a pair that is kept stays, unless one of its shaders is deleted. -/
theorem Leads.cached? {c c' : Client} {requests : List Request} (hrun : Leads c requests c')
    (h : (c.books 0 0).Ledger) (hcached : c.device.cached? vertex pixel = some q)
    (hkept : ∀ s, .deleteShader s ∈ requests → q.vertex ≠ some s ∧ q.pixel ≠ some s) :
    c'.device.cached? vertex pixel = some q := by
  induction hrun with
  | start => exact hcached
  | step before r hallowed ih =>
    refine cached?_perform (h.reaches before.reaches) (ih fun s hs => ?_) hallowed fun s hs => ?_
    · exact hkept s (mem_append_left _ hs)
    · exact hkept s (mem_append_right _ (List.mem_singleton.mpr hs.symm))
  | answer _ _ ih => exact ih hkept

theorem namesStage_of_ledger {c : Client} (h : (c.books 0 0).Ledger)
    (hnames : Registry.Distinct c.device.calls.toList) {name : Nat} {stage : Option CompiledShader}
    (hname : name = nameOf stage) (hstage : ∀ s ∈ stage, s ∈ (c.books 0 0).shaderRefs) :
    c.NamesStage name stage where
  eq_nameOf := hname
  eq_none hzero := h.eq_of_nameOf_eq hnames hstage (by simp) (hname.symm.trans hzero)
  unique s hs hsname := by
    refine h.eq_of_nameOf_eq hnames hstage (fun x hx => ?_) (hname.symm.trans hsname.symm)
    obtain rfl := Option.some.inj hx
    exact mem_shaderRefs_of_allows 0 0 hs

/-- The linked pairs, along every course on which objects that exist at one time have different
names. Every pair is kept by the names of its shaders, which no other shader has. Once a shader is
deleted, no pair has it. A pair that is bound without failure is served by a program of its
shaders; that program is never served for another pair, and is served for this one again, with
nothing built, until one of the two shaders is deleted. -/
theorem linked_pairs {driver : Driver} {config : Config} {d : Device} {requests : List Request}
    {c : Client} (hcreate : Device.create driver config = .ok d)
    (hrun : Leads (.new d) requests c) (hnames : Registry.Distinct c.device.calls.toList) :
    (∀ e ∈ c.device.linkCache, c.NamesStage e.1.1 e.2.vertex ∧ c.NamesStage e.1.2 e.2.pixel) ∧
    (∀ s, ∀ e ∈ (c.perform (.deleteShader s)).device.linkCache,
      e.2.vertex ≠ some s ∧ e.2.pixel ≠ some s) ∧
    (∀ vertex pixel, c.Allows (.bindShaders vertex pixel) →
      ¬(vertex.isNone = true ∧ pixel.isNone = true) →
      ((Device.bindShaders vertex pixel).run.run c.device).1 = .ok () →
      ∃ q, c.Serves vertex pixel q) ∧
    ∀ vertex pixel q, c.Serves vertex pixel q → q.vertex = vertex ∧ q.pixel = pixel ∧
      ∀ later c', Leads (c.perform (.bindShaders vertex pixel)) later c' →
        (Registry.Distinct c'.device.calls.toList → ∀ vertex' pixel' q',
          c'.Serves vertex' pixel' q' → q'.id = q.id → vertex' = vertex ∧ pixel' = pixel) ∧
        ((∀ s, .deleteShader s ∈ later → vertex ≠ some s ∧ pixel ≠ some s) →
          c'.Allows (.bindShaders vertex pixel) →
          c'.Serves vertex pixel q ∧ ∀ call ∈ callsSince c'.device
            (c'.perform (.bindShaders vertex pixel)).device, call.builds = false) := by
  have h := ledger_of_leads hcreate hrun
  refine ⟨fun e he => ?_, fun s e he => ?_, fun vertex pixel hallowed hsome hok => ?_,
    fun vertex pixel q hserves => ?_⟩
  · obtain ⟨hvertex, hpixel⟩ := mem_shaderRefs_of_program
      (mem_programRefs_of_links c.device (List.mem_map_of_mem he))
    obtain ⟨hv, hp⟩ := Prod.mk.inj (h.keyed e he)
    exact ⟨namesStage_of_ledger h hnames hv hvertex, namesStage_of_ledger h hnames hp hpixel⟩
  · rw [linkCache_deleteShader] at he
    have huses : e.2.uses s = false := by simpa using (List.mem_filter.mp he).2
    constructor <;> intro hs <;> simp [LinkedProgram.uses, hs] at huses
  · obtain ⟨q, hserves, -⟩ := exists_serves h hallowed hsome hnames hok
    exact ⟨q, hserves⟩
  · obtain ⟨hvertex, hpixel, hcached⟩ := hserves.program_eq h hnames
    refine ⟨hvertex, hpixel, fun later c' hlater =>
      ⟨fun hnames' vertex' pixel' q' hserves' hid => ?_, fun hkept hallowed => ?_⟩⟩
    · have hbound := reaches_perform c 0 0 hserves.allowed
      have hafter : Reaches ((c.perform (.bindShaders vertex pixel)).books 0 0) (c'.books 0 0) :=
        hlater.reaches
      obtain ⟨hvertex', hpixel', -⟩ := hserves'.program_eq (h.reaches (hbound.trans hafter)) hnames'
      have hq := Reaches.eq_of_id_eq (hafter.trans (reaches_perform c' 0 0 hserves'.allowed))
        (h.reaches hbound) (mem_programRefs_of_bound _ hserves.bound)
        (mem_programRefs_of_bound _ hserves'.bound) hid.symm
      subst hq
      exact ⟨hvertex'.symm.trans hvertex, hpixel'.symm.trans hpixel⟩
    · have hledger := h.reaches (reaches_perform c 0 0 hserves.allowed)
      have hcached' := hlater.cached? hledger hcached (hvertex.symm ▸ hpixel.symm ▸ hkept)
      exact serves_of_cached (hledger.reaches hlater.reaches) hallowed hserves.given hcached'

end Client

/-! ### A run -/

def plainVertex : CompiledShader :=
  ⟨0, 1, .vertex, { LoweredShader.blank .glsl120 default with version := some ⟨.vertex, 2, 0⟩ }⟩

/-- A pixel shader once it is compiled, after the vertex shader. -/
def plainPixel : CompiledShader :=
  ⟨1, 2, .pixel, { LoweredShader.blank .glsl120 default with version := some ⟨.pixel, 2, 0⟩ }⟩

/-- A pair is bound, then nothing, then the pair again: the same program serves it, and nothing is
built for that. -/
theorem linked_pairs_rebound : ∃ d c c' q,
    Device.create .second (.ofProfile .glsl120) = .ok d ∧
    Client.Leads (.new d) [.compileLowered plainVertex.code, .compileLowered plainPixel.code] c ∧
    Registry.Distinct c.device.calls.toList ∧
    c.Serves (some plainVertex) (some plainPixel) q ∧
    Client.Leads (c.perform (.bindShaders (some plainVertex) (some plainPixel))) [.bind none] c' ∧
    c'.device.bound = none ∧
    c'.Serves (some plainVertex) (some plainPixel) q ∧
    ∀ call ∈ callsSince c'.device
      (c'.perform (.bindShaders (some plainVertex) (some plainPixel))).device,
      call.builds = false := by
  obtain ⟨d, hd⟩ : ∃ d, Device.create .second (.ofProfile .glsl120) = .ok d := ⟨_, rfl⟩
  obtain ⟨c, hc⟩ : ∃ c, c = ((Client.new d).perform (.compileLowered plainVertex.code)).perform
    (.compileLowered plainPixel.code) := ⟨_, rfl⟩
  have hrun : Client.Leads (.new d)
      ([.compileLowered plainVertex.code] ++ [.compileLowered plainPixel.code]) c := by
    have hfirst : Client.Leads (.new d) ([] ++ [.compileLowered plainVertex.code]) _ :=
      .step .start _ trivial
    exact hc ▸ .step hfirst _ trivial
  obtain ⟨m, hm⟩ : ∃ m, m = c.perform (.bindShaders (some plainVertex) (some plainPixel)) :=
    ⟨_, rfl⟩
  obtain ⟨hshaders, hcreated, hok, hnone⟩ : c.shaders = [plainPixel, plainVertex] ∧
      createdBy c.device.calls.toList = [.shader 1, .shader 2] ∧
      ((bindShaders (some plainVertex) (some plainPixel)).run.run c.device).1 = .ok () ∧
      (m.perform (.bind none)).device.bound = none := by
    subst hm hc
    cases hd
    exact ⟨rfl, rfl, rfl, rfl⟩
  have hnames : Registry.Distinct c.device.calls.toList :=
    .of_nodup (by rw [hcreated]; decide) (by rw [hcreated]; decide)
  have hallowed : c.Allows (.bindShaders (some plainVertex) (some plainPixel)) :=
    ⟨by simp [hshaders], by simp [hshaders]⟩
  have hlater : Client.Leads m ([] ++ [.bind none]) (m.perform (.bind none)) :=
    .step .start (.bind none) (by simp [Client.Allows])
  have hallowed' : (m.perform (.bind none)).Allows
      (.bindShaders (some plainVertex) (some plainPixel)) := by
    subst hm
    exact hallowed
  obtain ⟨-, -, hserved, hagain⟩ := Client.linked_pairs hd hrun hnames
  obtain ⟨q, hq⟩ := hserved _ _ hallowed (by simp) hok
  obtain ⟨-, -, hafter⟩ := hagain _ _ q hq
  rw [← hm] at hafter
  obtain ⟨hserves, hbuilds⟩ := (hafter _ _ hlater).2 (by simp) hallowed'
  refine ⟨d, c, m.perform (.bind none), q, hd, hrun, hnames, hq, ?_, hnone, hserves, hbuilds⟩
  rw [← hm]
  exact hlater

end ShaderPipeline.Device
