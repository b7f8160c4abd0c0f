import ShaderPipeline.Proofs.Device.Books
import ShaderPipeline.Proofs.Device.Courses

/-!
# Operations as moves

Every operation of a device is a sequence of moves on its books. Each lemma says which references
from outside an operation takes over, and which it gives.
-/

namespace ShaderPipeline.Device

open Multiset Option ProgramNames Call List

open Books

variable {cs : List Call} {x : CompiledShader} {p : LinkedProgram}
  {vertex pixel : Option CompiledShader} {d' : Device} {requests : List Request}
  {P : LoweredShader → Prop}

/-- What an operation gives, if it does not fail. -/
def won {α : Type} : Except DeviceError α → Multiset α
  | .ok a => {a}
  | .error _ => 0

/-! ### Calls -/

theorem leaves_of_about (h : About [.binding, .value, .drawing] cs) : ∀ c ∈ cs, c.Leaves := by
  intro c hc
  have hmem := h c hc
  cases c <;> first | exact ⟨rfl, rfl⟩ | simp [subject] at hmem

theorem names_of_about (h : About [.value, .drawing] cs) : ∀ c ∈ cs, c.names = [] := by
  intro c hc
  have hmem := h c hc
  cases c <;> simp_all [subject, names]

theorem names_useCalls (glsl : Bool) (names : ProgramNames) {c : Call}
    (hc : c ∈ useCalls glsl names) {x : ObjectName} (hx : x ∈ c.names) :
    x ∈ names.objects glsl := by
  have hswitch : ∀ n target x, x ∉ (if n = 0 then disable target else .enable target).names := by
    intro n target x
    by_cases hn : n = 0 <;> simp [hn, Call.names]
  cases glsl with
  | true =>
    obtain rfl := List.mem_singleton.mp hc
    obtain ⟨hn, rfl⟩ := mem_names_useProgram.mp hx
    simp [objects, hn]
  | false =>
    simp only [useCalls, Bool.false_eq_true, if_false, mem_append, List.mem_cons,
      not_mem_nil, or_false] at hc
    rcases hc with (rfl | rfl) | (rfl | rfl)
    · exact absurd hx (hswitch _ _ x)
    · obtain ⟨hn, rfl⟩ := mem_names_bindProgramArb.mp hx
      simp [objects, hn]
    · exact absurd hx (hswitch _ _ x)
    · obtain ⟨hn, rfl⟩ := mem_names_bindProgramArb.mp hx
      simp [objects, hn]

theorem exists_of_namesOf {glsl : Bool} {p : Option LinkedProgram} {x : ObjectName}
    (hx : x ∈ (namesOf p).objects glsl) : ∃ q ∈ p, x ∈ q.names.objects glsl := by
  cases p with
  | none => cases glsl <;> simp [namesOf, objects] at hx
  | some p => exact ⟨p, rfl, hx⟩

theorem names_setupCalls (d : Device) (names : ProgramNames) (shaders : List CompiledShader)
    {c : Call} (hc : c ∈ setupCalls d names shaders) {x : ObjectName} (hx : x ∈ c.names) :
    x ∈ names.objects d.profile.isGlsl ∨ x ∈ (namesOf d.bound).objects d.profile.isGlsl := by
  unfold setupCalls at hc
  split_ifs at hc with hg
  · rw [(Bool.and_eq_true_iff.mp hg).1]
    rcases mem_append.mp hc with hc | hc
    · rcases mem_append.mp hc with hc | hc
      · exact Or.inl (names_useCalls true names hc hx)
      · have hvalues : About [.value, .drawing] (shaders.flatMap fun s =>
            constantCalls d names.program s ++ samplerCalls d names.program s) :=
          .flatMap fun s _ => (about_constantCalls d names.program s).mono (by simp)
        rw [names_of_about hvalues c hc] at hx
        cases hx
    · exact Or.inr (names_useCalls true _ hc hx)
  · cases hc

/-! ### Letting go and holding -/

section Holding

variable (d : Device) {shaders : Multiset CompiledShader} {programs : Multiset LinkedProgram}

theorem reaches_dropShader (hx : x ∈ shaders) :
    Proceeds P (d.books shaders programs)
      ((d.withStore (d.store.dropShader x)).books (shaders.erase x) programs) :=
  .single (.dropShader x hx)

theorem reaches_dropProgram (hp : p ∈ programs) :
    Proceeds P (d.books shaders programs)
      ((d.withStore (d.store.dropProgram p)).books shaders (programs.erase p)) :=
  .single (.dropProgram p hp)

theorem reaches_dropProgram_cons (p : LinkedProgram) :
    Proceeds P (d.books shaders (p ::ₘ programs))
      ((d.withStore (d.store.dropProgram p)).books shaders programs) := by
  have hdrop := @reaches_dropProgram p P d shaders _ (mem_cons_self p programs)
  rwa [Multiset.erase_cons_head] at hdrop

theorem reaches_dropShader? (x : Option CompiledShader) :
    Proceeds P (d.books (↑x.toList + shaders) programs)
      ((d.withStore (d.store.dropShader? x)).books shaders programs) := by
  cases x with
  | none =>
    rw [toList_none, coe_nil, zero_add]
    exact .refl
  | some x =>
    have hdrop := @reaches_dropShader x P d _ programs (mem_cons_self x shaders)
    rwa [Multiset.erase_cons_head] at hdrop

theorem reaches_dropProgram? (p : Option LinkedProgram) :
    Proceeds P (d.books shaders (↑p.toList + programs))
      ((d.withStore (d.store.dropProgram? p)).books shaders programs) := by
  cases p with
  | none =>
    rw [toList_none, coe_nil, zero_add]
    exact .refl
  | some p => exact reaches_dropProgram_cons d p

theorem reaches_holdShader? (x : Option CompiledShader)
    (held : ∀ a ∈ x, a ∈ (d.books shaders programs).shaderRefs) :
    Proceeds P (d.books shaders programs)
      ((d.withStore (d.store.holdShader? x)).books (↑x.toList + shaders) programs) := by
  cases x with
  | none =>
    rw [toList_none, coe_nil, zero_add]
    exact .refl
  | some x => exact .single (.holdShader x (held x rfl))

theorem reaches_holdProgram? (p : Option LinkedProgram)
    (held : ∀ q ∈ p, q ∈ (d.books shaders programs).programRefs) :
    Proceeds P (d.books shaders programs)
      ((d.withStore (d.store.holdProgram? p)).books shaders (↑p.toList + programs)) := by
  cases p with
  | none =>
    rw [toList_none, coe_nil, zero_add]
    exact .refl
  | some p => exact .single (.holdProgram p (held p rfl))

theorem reaches_dropPrograms (ps : List LinkedProgram) :
    Proceeds P (d.books shaders (↑ps + programs))
      ((d.withStore (dropPrograms d.store ps)).books shaders programs) := by
  induction ps generalizing d with
  | nil =>
    rw [coe_nil, zero_add]
    exact .refl
  | cons p ps ih =>
    rw [← cons_coe, cons_add]
    exact (reaches_dropProgram_cons d p).trans (ih (d.withStore (d.store.dropProgram p)))

end Holding

/-! ### Operations -/

section Operations

variable (d : Device) {shaders : Multiset CompiledShader} {programs : Multiset LinkedProgram}

theorem mem_programRefs_of_programs (hp : p ∈ programs) :
    p ∈ (d.books shaders programs).programRefs :=
  mem_add.mpr (Or.inl (mem_add.mpr (Or.inl hp)))

theorem mem_programRefs_of_bound (hp : p ∈ d.bound) : p ∈ (d.books shaders programs).programRefs :=
  mem_add.mpr (Or.inr (mem_toList.mpr hp))

theorem mem_programRefs_of_links (hp : p ∈ d.linkCache.map (·.2)) :
    p ∈ (d.books shaders programs).programRefs :=
  mem_add.mpr (Or.inl (mem_add.mpr (Or.inr hp)))

variable {d} in
theorem mem_linkCache_of_cached (h : d.cached? vertex pixel = some p) :
    ((nameOf vertex, nameOf pixel), p) ∈ d.linkCache := by
  obtain ⟨first, last, hlinks, -⟩ := List.lookup_eq_some_iff.mp h
  rw [hlinks]
  exact List.mem_append_right _ List.mem_cons_self

theorem mem_shaderRefs_of_shaders (hx : x ∈ shaders) : x ∈ (d.books shaders programs).shaderRefs :=
  mem_add.mpr (Or.inl hx)

theorem books_of_calls (h : d'.calls = (d.say cs).calls) :
    d'.books shaders programs = ⟨d'.profile.isGlsl, d'.store, d'.bound, d'.linkCache,
      d.calls.toList ++ cs, shaders, programs⟩ := by
  rw [books, h, calls_say]

variable {d} in
theorem reaches_of_move {shaders' : Multiset CompiledShader} {programs' : Multiset LinkedProgram}
    {b : Books} (hmove : Move P (d.books shaders programs) b)
    (hbooks : d'.books shaders' programs' = b) :
    Proceeds P (d.books shaders programs) (d'.books shaders' programs') :=
  hbooks ▸ .single hmove

theorem reaches_say (leaves : ∀ c ∈ cs, c.Leaves)
    (refers : ∀ c ∈ cs, ∀ x ∈ c.names,
      ∃ p ∈ (d.books shaders programs).programRefs, x ∈ p.names.objects d.profile.isGlsl) :
    Proceeds P (d.books shaders programs) ((d.say cs).books shaders programs) :=
  reaches_of_move (.say cs leaves refers) (books_of_calls d rfl)

theorem reaches_quiet (h : About [.value, .drawing] cs) :
    Proceeds P (d.books shaders programs) ((d.say cs).books shaders programs) := by
  refine reaches_say d (leaves_of_about (h.mono (by simp))) fun c hc x hx => ?_
  rw [names_of_about h c hc] at hx
  cases hx

theorem reaches_drawStep (h : DrawStep d d') :
    Proceeds P (d.books shaders programs) (d'.books shaders programs) := by
  obtain ⟨cs, hcs, habout⟩ := h.calls
  have hbooks : d'.books shaders programs = (d.say cs).books shaders programs := by
    rw [books, h.profile, h.store, h.bound, h.linkCache, hcs, ← calls_say]
    rfl
  rw [hbooks]
  exact reaches_quiet d (habout.mono (by simp))

theorem reaches_collected :
    Proceeds P (d.books shaders programs) (d.collected.books shaders programs) :=
  reaches_of_move .collect (books_of_calls d rfl)

theorem reaches_compileLowered {code : LoweredShader} (hcode : P code) :
    Proceeds P (d.books shaders programs)
      (((compileLowered code).run.run d).2.books
        (won ((compileLowered code).run.run d).1 + shaders) programs) := by
  refine (reaches_collected d).trans ?_
  rcases compileLowered_cases code d with ⟨e, -, hrun⟩ | ⟨stage, -, -, ⟨e, -, hrun⟩ | ⟨-, hrun⟩⟩
  · rw [hrun, won, zero_add]
    exact .refl
  · rw [hrun, won, zero_add]
    exact reaches_of_move (.refuse _ stage code) (books_of_calls d.collected rfl)
  · rw [hrun, won, singleton_add]
    exact reaches_of_move (.compile _ stage code hcode) (books_of_calls d.collected rfl)

theorem reaches_compile (bytes : Bytes) (options : Options)
    (hcode : P (d.cache.get d.profile options bytes).2.1) :
    Proceeds P (d.books shaders programs)
      (((compile bytes options).run.run d).2.books
        (won ((compile bytes options).run.run d).1 + shaders) programs) := by
  exact reaches_compileLowered { d with cache := (d.cache.get d.profile options bytes).2.2 } hcode

theorem calls_joined (vertex pixel : Option CompiledShader) : (d.joined vertex pixel).2.calls =
    (d.say (if d.profile.isGlsl then
      createCalls (d.joined vertex pixel).1 (vertex.toList ++ pixel.toList) else [])).calls := by
  unfold joined
  split_ifs <;> rfl

theorem store_joined (vertex pixel : Option CompiledShader) :
    (d.joined vertex pixel).2.store = d.store := by
  unfold joined
  split_ifs <;> rfl

theorem reaches_linked {generation : UInt64}
    (hid : p.id = (d.store.addProgram p.vertex p.pixel generation).1)
    (hnamed : p.names.vertex = nameOf p.vertex ∧ p.names.pixel = nameOf p.pixel)
    (hheld : ∀ x ∈ p.shaders, x ∈ (d.books shaders programs).shaderRefs) (hsteady : Steady d d')
    (hstore : d'.store = (d.store.addProgram p.vertex p.pixel generation).2)
    (hcalls : d'.calls = (d.say (if d.profile.isGlsl then
      createCalls p.names.program (p.vertex.toList ++ p.pixel.toList) else [])).calls) :
    Proceeds P (d.books shaders programs) (d'.books shaders (p ::ₘ programs)) := by
  refine reaches_of_move (.link p generation hid hnamed hheld) ?_
  rw [books_of_calls d hcalls, hsteady.profile, hstore, hsteady.bound, hsteady.linkCache]
  rfl

theorem reaches_link (hvertex : ∀ x ∈ vertex, x ∈ shaders) (hpixel : ∀ x ∈ pixel, x ∈ shaders) :
    Proceeds P (d.books shaders programs)
      (((link vertex pixel).run.run d).2.books shaders
        (won ((link vertex pixel).run.run d).1 + programs)) := by
  have hheld : ∀ x ∈ vertex.toList ++ pixel.toList, x ∈ (d.books shaders programs).shaderRefs := by
    intro x hx
    refine mem_shaderRefs_of_shaders d ?_
    rcases mem_append.mp hx with hx | hx
    · exact hvertex x (mem_toList.mp hx)
    · exact hpixel x (mem_toList.mp hx)
  rcases link_cases vertex pixel d with ⟨-, -, hrun⟩ | ⟨hg, log, -, hrun⟩ |
      ⟨name, d', hjoined, hrun⟩
  · rw [hrun, won, zero_add]
    exact .refl
  · rw [hrun, won, zero_add]
    exact reaches_of_move (.refuseLink _ _ hg hheld) (books_of_calls d rfl)
  · have hstore := store_joined d vertex pixel
    have hcalls := calls_joined d vertex pixel
    have hsteady := (speaks_joined d vertex pixel).steady
    rw [hjoined] at hstore hcalls hsteady
    have hlinked : ∀ attributes, Proceeds P (d.books shaders programs)
        ((d'.withStore (d'.store.addProgram vertex pixel (d'.generation - 1)).2).books shaders
          ({ d'.draft name vertex pixel with attributes } ::ₘ programs)) := fun attributes =>
      reaches_linked d (by rw [draft, hstore]; rfl) ⟨rfl, rfl⟩ hheld
        (hsteady.trans (.of_eq rfl rfl rfl rfl rfl rfl)) (by rw [hstore]; rfl) hcalls
    rcases hrun with ⟨e, hrun⟩ | ⟨attributes, hrun⟩
    · rw [hrun, won, zero_add]
      exact (hlinked []).trans (reaches_dropProgram_cons _ _)
    · rw [hrun, won, singleton_add]
      refine (hlinked attributes).trans (reaches_say _
        (leaves_of_about ((about_setupCalls _ _ _).mono (by simp))) fun c hc x hx => ?_)
      rcases names_setupCalls d' _ _ hc hx with hx | hx
      · exact ⟨_, mem_programRefs_of_programs _ (mem_cons_self _ _), hx⟩
      · obtain ⟨q, hq, hx⟩ := exists_of_namesOf hx
        exact ⟨q, mem_programRefs_of_bound _ hq, hx⟩

theorem reaches_switched {p : Option LinkedProgram} (hp : ∀ q ∈ p, q ∈ programs) :
    Proceeds P (d.books shaders programs)
      ((d.switched p).books shaders (↑d.bound.toList + (programs - ↑p.toList))) := by
  have hcleared : Proceeds P (d.books shaders programs)
      ((if p.isNone then d.cleared.arranged else d.cleared).books shaders programs) := by
    split_ifs
    · exact reaches_quiet d.cleared ((about_enablingCalls _).mono (by simp))
    · exact .refl
  refine hcleared.trans ?_
  have hsteady : Steady d (if p.isNone then d.cleared.arranged else d.cleared) := by
    have hclear : Steady d d.cleared := .of_eq rfl rfl rfl rfl rfl rfl
    split_ifs
    · exact hclear.trans (drawStep_arranged d.cleared).steady
    · exact hclear
  unfold switched
  generalize (if p.isNone then d.cleared.arranged else d.cleared) = d' at *
  have huse : Proceeds P (d'.books shaders programs)
      ((d'.say (useCalls d.profile.isGlsl (namesOf p))).books shaders programs) := by
    rw [← hsteady.profile]
    refine reaches_say d' (leaves_of_about ((about_useCalls _ _).mono (by simp)))
      fun c hc x hx => ?_
    obtain ⟨q, hq, hx⟩ := exists_of_namesOf (names_useCalls _ _ hc hx)
    exact ⟨q, mem_programRefs_of_programs _ (hp q hq), hx⟩
  refine huse.trans ?_
  rw [← hsteady.bound]
  exact .single (.rebind p hp)

theorem reaches_bindHeld {p : Option LinkedProgram} (hp : ∀ q ∈ p, q ∈ programs) :
    Proceeds P (d.books shaders programs)
      (((bindHeld p).run d).2.books shaders (programs - ↑p.toList)) := by
  have hle : (↑p.toList : Multiset LinkedProgram) ≤ programs := by
    cases p with
    | none => exact zero_le _
    | some q => exact singleton_le.mpr (hp q rfl)
  rw [bindHeld_run]
  split_ifs
  · have hdrop := @reaches_dropProgram? P d shaders (programs - ↑p.toList) p
    rwa [add_tsub_cancel_of_le hle] at hdrop
  · exact ((reaches_switched d hp).trans
      (reaches_dropProgram? _ d.bound)).trans (reaches_collected _)

theorem reaches_bindHeld_none : Proceeds P (d.books shaders programs)
    (((bindHeld none).run d).2.books shaders programs) := by
  have hbind := @reaches_bindHeld P d shaders programs none (by simp)
  rwa [toList_none, coe_nil, tsub_zero] at hbind

theorem reaches_bind {p : Option LinkedProgram}
    (hp : ∀ q ∈ p, q ∈ (d.books shaders programs).programRefs) :
    Proceeds P (d.books shaders programs) (((bind p).run d).2.books shaders programs) := by
  have hbind := @reaches_bindHeld P (d.withStore (d.store.holdProgram? p)) shaders
    (↑p.toList + programs) p fun q hq => mem_add.mpr (Or.inl (mem_toList.mpr hq))
  rw [add_tsub_cancel_left] at hbind
  exact (reaches_holdProgram? d p hp).trans hbind

theorem reaches_bindShaders (hvertex : ∀ x ∈ vertex, x ∈ shaders)
    (hpixel : ∀ x ∈ pixel, x ∈ shaders) :
    Proceeds P (d.books shaders programs)
      (((bindShaders vertex pixel).run.run d).2.books shaders programs) := by
  have hlink := @reaches_link _ _ P d shaders programs hvertex hpixel
  refine bindShaders_induct
    (P := fun d' => Proceeds P (d.books shaders programs) (d'.books shaders programs))
    (reaches_bindHeld_none d) (fun p hcached => ?_) (fun e d' hrun => ?_) fun p d' hrun => ?_
  · refine reaches_bind d fun q hq => ?_
    obtain rfl := some.inj hq
    exact mem_programRefs_of_links d (mem_map_of_mem (mem_linkCache_of_cached hcached))
  · rwa [hrun, won, zero_add] at hlink
  · obtain ⟨rfl, rfl⟩ := shaders_of_link hrun
    rw [hrun] at hlink
    have hkeep := Move.keepPair (P := P) (b := d'.books shaders (p ::ₘ programs)) p
      (mem_cons_self p programs)
    simp only [books, Multiset.erase_cons_head] at hkeep
    refine (hlink.tail hkeep).trans (reaches_bind { d' with
      linkCache := d'.linkCache ++ [((nameOf p.vertex, nameOf p.pixel), p)] } fun q hq => ?_)
    obtain rfl := some.inj hq
    exact mem_programRefs_of_links _ (by simp)

theorem reaches_deleteShader (hx : x ∈ shaders) :
    Proceeds P (d.books shaders programs)
      (((deleteShader x).run d).2.books (shaders.erase x) programs) := by
  rw [deleteShader_run]
  have hevict := Move.evict (P := P) (b := d.books shaders programs) fun e => !e.2.uses x
  simp only [Bool.not_not] at hevict
  exact (((Relation.ReflTransGen.single hevict).trans (reaches_dropPrograms
    { d with linkCache := d.linkCache.filter fun e => !e.2.uses x } _)).trans
      (reaches_dropShader _ hx)).trans (reaches_collected _)

theorem reaches_deleteProgram (hp : p ∈ programs) :
    Proceeds P (d.books shaders programs)
      (((deleteProgram p).run d).2.books shaders (programs.erase p)) := by
  rw [deleteProgram_run]
  exact (reaches_dropProgram d hp).trans (reaches_collected _)

theorem reaches_updateUniforms (p : LinkedProgram) :
    Proceeds P (d.books shaders programs) (((updateUniforms p).run d).2.books shaders programs) := by
  cases hs : d.store.shadows[p.id]? with
  | none =>
    rw [updateUniforms_of_missing hs]
  | some shadow =>
    rcases hr : p.refresh d.registers shadow.values with ⟨values, changed⟩
    rw [updateUniforms_run hs hr]
    have hstored : Proceeds P (d.books shaders programs) ((d.withStore { d.store with
        shadows := d.store.shadows.setIfInBounds p.id ⟨d.generation, values⟩ }).books shaders
          programs) := .single (.remember _)
    split_ifs
    · exact hstored.trans (reaches_quiet _
        ((about_uploads d p values).mono (by simp)))
    · exact hstored
    · exact .refl

theorem reaches_ready :
    Proceeds P (d.books shaders programs) ((ready.run d).2.books shaders programs) := by
  rw [ready_run]
  cases d.bound with
  | none => exact .refl
  | some p =>
    exact (reaches_drawStep d (drawStep_arranged_sized d p)).trans (reaches_updateUniforms _ p)

theorem close_run : close.run d =
    ((), ({ ((bindHeld none).run d).2 with
      linkCache := []
      store := dropPrograms ((bindHeld none).run d).2.store
        (((bindHeld none).run d).2.linkCache.map (·.2)) } : Device).collected) := by
  simp only [close, run_bind, run_modify, collect_run]

theorem reaches_close :
    Proceeds P (d.books shaders programs) ((close.run d).2.books shaders programs) := by
  rw [close_run]
  have hbind : Proceeds P (d.books shaders programs) _ := reaches_bindHeld_none d
  generalize ((bindHeld none).run d).2 = d' at *
  have hevict : Move P (d'.books shaders programs) (({ d' with linkCache := [] } : Device).books
      shaders (↑(d'.linkCache.map (·.2)) + programs)) := by
    simpa [books] using Move.evict (P := P) (b := d'.books shaders programs) fun _ => false
  exact ((hbind.tail hevict).trans (reaches_dropPrograms { d' with linkCache := [] } _)).trans
    (reaches_collected _)

end Operations

/-! ### Requests -/

namespace Client

def books (c : Client) (shaders : Multiset CompiledShader) (programs : Multiset LinkedProgram) :
    Books :=
  c.device.books (↑c.shaders + shaders) (↑c.programs + programs)

variable (c : Client) (shaders : Multiset CompiledShader) (programs : Multiset LinkedProgram)

theorem books_keepShader (x : Except DeviceError CompiledShader × Device) :
    (c.keepShader x).books shaders programs =
      x.2.books (won x.1 + (↑c.shaders + shaders)) (↑c.programs + programs) := by
  obtain ⟨r, d⟩ := x
  cases r with
  | error e => rw [won, zero_add]; rfl
  | ok s => rw [won, ← add_assoc]; rfl

theorem books_keepProgram (x : Except DeviceError LinkedProgram × Device) :
    (c.keepProgram x).books shaders programs =
      x.2.books (↑c.shaders + shaders) (won x.1 + (↑c.programs + programs)) := by
  obtain ⟨r, d⟩ := x
  cases r with
  | error e => rw [won, zero_add]; rfl
  | ok p => rw [won, ← add_assoc]; rfl

variable {c} in
theorem mem_programRefs_of_references (hp : p ∈ c.references) :
    p ∈ (c.books shaders programs).programRefs := by
  rcases List.mem_append.mp hp with hp | hp
  · rcases List.mem_append.mp hp with hp | hp
    · exact mem_programRefs_of_programs _ (Multiset.mem_add.mpr (Or.inl hp))
    · exact mem_programRefs_of_links _ hp
  · exact mem_programRefs_of_bound _ (Option.mem_toList.mp hp)

variable {c} in
theorem mem_shaderRefs_of_allows {s : CompiledShader} (hs : c.Allows (.shareShader s)) :
    s ∈ (c.books shaders programs).shaderRefs := by
  rcases hs with hs | ⟨p, hp, hs⟩
  · exact mem_shaderRefs_of_shaders _ (Multiset.mem_add.mpr (Or.inl hs))
  · obtain ⟨hvertex, hpixel⟩ :=
      mem_shaderRefs_of_program (mem_programRefs_of_references shaders programs hp)
    exact hs.elim (hvertex s) (hpixel s)

/-- The code that a request has compiled, if it is one to compile. -/
def compiledBy? : Request → Option LoweredShader
  | .compile bytes options => (c.device.cache.get c.device.profile options bytes).2.1
  | .compileLowered code => code
  | _ => none

theorem proceeds_perform {r : Request} (h : c.Allows r) (hcodes : ∀ code ∈ c.compiledBy? r, P code) :
    Proceeds P (c.books shaders programs) ((c.perform r).books shaders programs) := by
  have hshaders : ∀ {s : Option CompiledShader}, (∀ x ∈ s, x ∈ c.shaders) →
      ∀ x ∈ s, x ∈ (↑c.shaders + shaders : Multiset CompiledShader) :=
    fun hs x hx => mem_add.mpr (Or.inl (hs x hx))
  have herased : ∀ {s : CompiledShader}, s ∈ c.shaders →
      (↑c.shaders + shaders : Multiset CompiledShader).erase s =
        ↑(c.shaders.erase s) + shaders := fun hs => erase_add_left_pos _ hs
  have herased' : ∀ {p : LinkedProgram}, p ∈ c.programs →
      (↑c.programs + programs : Multiset LinkedProgram).erase p =
        ↑(c.programs.erase p) + programs := fun hp => erase_add_left_pos _ hp
  cases hr : r.isWrite with
  | true =>
    obtain ⟨files, hperform⟩ := c.perform_write r hr
    rw [hperform]
    exact .refl
  | false =>
    cases r with
    | compile bytes options =>
      rw [perform, books_keepShader]
      exact reaches_compile _ _ _ (hcodes _ rfl)
    | compileLowered code =>
      rw [perform, books_keepShader]
      exact reaches_compileLowered _ (hcodes _ rfl)
    | link vertex pixel =>
      rw [perform, books_keepProgram]
      exact reaches_link _ (hshaders h.1) (hshaders h.2)
    | bind p =>
      exact reaches_bind _ fun q hq =>
        mem_programRefs_of_programs _ (mem_add.mpr (Or.inl (h q hq)))
    | bindShaders vertex pixel =>
      exact reaches_bindShaders _ (hshaders h.1) (hshaders h.2)
    | deleteShader s =>
      change Proceeds P _ (Device.books _ (↑(c.shaders.erase s) + shaders) _)
      rw [← herased h]
      exact reaches_deleteShader _ (mem_add.mpr (Or.inl h))
    | deleteProgram p =>
      change Proceeds P _ (Device.books _ _ (↑(c.programs.erase p) + programs))
      rw [← herased' h]
      exact reaches_deleteProgram _ (mem_add.mpr (Or.inl h))
    | setFloats | setInts | setBools => simp [Request.isWrite] at hr
    | setBump unit matrix scale offset =>
      simp only [perform, setBump_run]
      rw [if_neg (by simpa [Request.isWrite] using hr)]
    | setAttribute s f => exact reaches_drawStep _ (drawStep_setAttribute _ s f)
    | setDivisor s n => exact reaches_drawStep _ (drawStep_setDivisor _ s n)
    | ready => exact reaches_ready _
    | shareShader s =>
      refine reaches_of_move (.holdShader s (mem_shaderRefs_of_allows shaders programs h)) ?_
      rw [perform, ← cons_coe, cons_add]
      rfl
    | shareProgram p =>
      refine reaches_of_move (.holdProgram p (mem_programRefs_of_references shaders programs h)) ?_
      rw [perform, ← cons_coe, cons_add]
      rfl
    | dropShader s =>
      change Proceeds P _ (Device.books _ (↑(c.shaders.erase s) + shaders) _)
      rw [← herased h]
      exact reaches_dropShader _ (mem_add.mpr (Or.inl h))
    | dropProgram p =>
      change Proceeds P _ (Device.books _ _ (↑(c.programs.erase p) + programs))
      rw [← herased' h]
      exact reaches_dropProgram _ (mem_add.mpr (Or.inl h))

theorem reaches_perform {r : Request} (h : c.Allows r) :
    Reaches (c.books shaders programs) ((c.perform r).books shaders programs) :=
  c.proceeds_perform shaders programs h fun _ _ => trivial

variable {c shaders programs} in
theorem Leads.reaches {c' : Client} (h : Leads c requests c') :
    Reaches (c.books shaders programs) (c'.books shaders programs) := by
  induction h with
  | start => exact .refl
  | step _ r hallowed ih => exact ih.trans (reaches_perform _ shaders programs hallowed)
  | answer _ driver ih => exact ih

end Client

theorem ledger_create {driver : Driver} {config : Config} {d : Device}
    (h : Device.create driver config = .ok d) : (d.books 0 0).Ledger := by
  obtain rfl := eq_of_create h
  refine (Ledger.initial config.profile.isGlsl).reaches (reaches_say (blank driver config)
    (leaves_of_about ((about_useCalls _ _).mono (by simp))) fun c hc x hx => ?_)
  obtain ⟨q, hq, -⟩ := exists_of_namesOf (names_useCalls _ _ hc hx)
  exact absurd hq (not_mem_none q)

theorem Client.ledger_of_leads {driver : Driver} {config : Config} {d : Device} {c : Client}
    (hcreate : Device.create driver config = .ok d) (hrun : Leads (.new d) requests c) :
    (c.books 0 0).Ledger := by
  have hnew : ((Client.new d).books 0 0).Ledger := ledger_create hcreate
  exact hnew.reaches hrun.reaches

end ShaderPipeline.Device
