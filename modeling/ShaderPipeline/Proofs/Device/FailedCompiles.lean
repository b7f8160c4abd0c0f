import ShaderPipeline.Proofs.Device.Lifetimes

/-!
# Effects that fail to compile

The shaders of an effect are compiled one after another. If one is refused, those before it are
deleted again. They are newer than anything that is linked, so that no linked pair goes with them.
-/

namespace ShaderPipeline.Device

open Registry

/-- A device after a failure. It has the message and no objects left to delete, and no more was done
than to make and delete objects. -/
structure Withdrawn (e : DeviceError) (d d' : Device) : Prop where
  speaks : Speaks [.object, .binding] d d'
  lastError : d'.lastError = e.message
  released : d'.store.released = []

theorem not_uses_of_lt {p : LinkedProgram} {s : CompiledShader}
    (h : ∀ x ∈ p.shaders, x.id < s.id) : p.uses s = false := by
  have hstage : ∀ y : Option CompiledShader, (∀ x ∈ y, x ∈ p.shaders) →
      y.any (·.id == s.id) = false := by
    intro y hy
    cases y with
    | none => rfl
    | some x => exact beq_false_of_ne (h x (hy x rfl)).ne
  have hvertex := hstage p.vertex fun x hx =>
    Multiset.mem_add.mpr (Or.inl (Option.mem_toList.mpr hx))
  have hpixel := hstage p.pixel fun x hx =>
    Multiset.mem_add.mpr (Or.inr (Option.mem_toList.mpr hx))
  rw [LinkedProgram.uses, hvertex, hpixel]
  rfl

variable {xs : List (Nat × CompiledShader)}

/-- Deleting shaders that no linked pair uses. -/
theorem withdrawn_deleteShaders {e : DeviceError} {d d' : Device} (h : Withdrawn e d d')
    (hxs : ∀ x ∈ xs, ∀ y ∈ d.linkCache, y.2.uses x.2 = false) :
    Withdrawn e d ((deleteShaders xs).run d').2 := by
  induction xs generalizing d' with
  | nil => exact h
  | cons x xs ih =>
    rw [deleteShaders, run_bind, deleteShader_run]
    refine ih ⟨h.speaks.trans (.trans ?_ ((speaks_collected _).mono (by simp))), h.lastError, rfl⟩
      fun y hy => hxs y (List.mem_cons_of_mem x hy)
    have hkept : d'.linkCache.filter (fun y => !y.2.uses x.2) = d'.linkCache := by
      refine List.filter_eq_self.mpr fun y hy => ?_
      rw [hxs x List.mem_cons_self y (h.speaks.linkCache ▸ hy)]
      rfl
    refine .of_eq ?_ rfl rfl
    unfold core
    rw [hkept]

/-- The shaders compiled so far are numbered from `n` on, and those of linked pairs below. -/
theorem withdrawn_compileObjects {n : Nat} {objects : List Effect.Object} {index : Nat}
    {e : DeviceError} {d d' : Device}
    (h : (compileObjects objects index xs).run.run d = (.error e, d'))
    (hlinks : ∀ y ∈ d.linkCache, ∀ x ∈ y.2.shaders, x.id < n)
    (hsize : n ≤ d.store.shaderHolders.size) (hxs : ∀ x ∈ xs, n ≤ x.2.id) : Withdrawn e d d' := by
  induction objects generalizing index xs d with
  | nil => cases h
  | cons o rest ih =>
    rw [compileObjects] at h
    split at h
    · rename_i code _ _
      have hspeaks := speaks_compileLowered d code
      have hunused : ∀ x ∈ xs, ∀ y ∈ d.linkCache, y.2.uses x.2 = false := fun x hx y hy =>
        not_uses_of_lt fun z hz => (hlinks y hy z hz).trans_le (hxs x hx)
      rw [ExceptT.run_mk, run_bind] at h
      rcases compileLowered_cases code d with ⟨_, -, hrun⟩ | ⟨_, -, -, ⟨_, -, hrun⟩ | ⟨-, hrun⟩⟩
      · rw [hrun] at h hspeaks
        cases h
        exact withdrawn_deleteShaders ⟨hspeaks, rfl, rfl⟩ hunused
      · rw [hrun] at h hspeaks
        cases h
        exact withdrawn_deleteShaders ⟨hspeaks, rfl, rfl⟩ hunused
      · rw [hrun] at h hspeaks
        have hrest := ih h hlinks (hsize.trans (by simp [withStore, Store.addShader, collected]))
          (List.forall_mem_append.mpr ⟨hxs, List.forall_mem_singleton.mpr hsize⟩)
        exact ⟨hspeaks.trans hrest.speaks, hrest.lastError, hrest.released⟩
    · exact ih h hlinks hsize hxs

/-- If the references are those from before and nothing is queued, the calls made since delete what
was queued and what they create. -/
theorem Books.Ledger.deletedBy_perm {b b' : Books} {cs : List Call} (h : b.Ledger) (h' : b'.Ledger)
    (hglsl : b'.glsl = b.glsl) (hshaders : b'.shaders = b.shaders)
    (hprograms : b'.programRefs = b.programRefs) (hreleased : b'.store.released = [])
    (hcs : b'.calls = b.calls ++ cs) :
    (deletedBy cs).Perm (b.store.queued b.glsl ++ createdBy cs) := by
  have hafter : after 0 b.calls =
      after 0 b'.calls + ↑(b.store.queued b.glsl) := by
    rw [h.accounts.balanced, h'.accounts.balanced, hglsl, hshaders, hprograms, Store.owed,
      Store.owed, Store.queued, Store.queued, hreleased, List.filterMap_nil, Multiset.coe_nil,
      zero_add, add_assoc, add_comm]
  have hadmitted := h'.admitted
  rw [hcs, admits_append] at hadmitted
  have hsum := after_add_deleted hadmitted.2
  rw [← after_append, ← hcs, hafter, add_assoc] at hsum
  exact Multiset.coe_eq_coe.mp (add_left_cancel hsum)

/-- An effect that fails to compile leaves nothing behind, whatever the player did before. Besides
the objects that waited for it, the calls delete those that they create: each once if the driver
gives new names. What is linked, bound and kept in registers stays, and the device has the message
of the error. -/
theorem Player.compileEffect_failed {driver : Driver} {config : Config} {d₀ d : Device}
    {orders : List Order} {s : Player} {effect : Effect} {e : DeviceError}
    (hcreate : Device.create driver config = .ok d₀) (hrun : Run d₀ orders s)
    (hfail : (compileEffect effect).run.run s.client.device = (.error e, d)) :
    (∃ cs, d.calls.toList = s.client.device.calls.toList ++ cs ∧
      (deletedBy cs).Perm
        (s.client.device.store.queued s.client.device.profile.isGlsl ++ createdBy cs) ∧
      ((createdBy d.calls.toList).Nodup → ∀ x ∈ createdBy cs, (deletedBy cs).count x = 1)) ∧
    d.linkCache = s.client.device.linkCache ∧ d.bound = s.client.device.bound ∧
    d.registers = s.client.device.registers ∧ d.generation = s.client.device.generation ∧
    d.store.released = [] ∧ d.lastError = e.message := by
  have h := hrun.ledger hcreate
  have hperform : s.perform (.compileEffect effect) = s.withDevice d := by rw [perform, hfail]
  have h' := (hrun.step (.compileEffect effect) trivial).ledger hcreate
  rw [hperform] at h'
  have hwithdrawn : Withdrawn e s.client.device d := by
    rw [compileEffect, op_bind] at hfail
    rcases hobjects : (compileObjects effect.objects.toList 0 []).run.run s.client.device
      with ⟨r, d'⟩
    rw [hobjects] at hfail
    cases r with
    | ok xs => cases hfail
    | error e' =>
      cases hfail
      refine withdrawn_compileObjects hobjects (fun y hy x hx => ?_) le_rfl (by simp)
      refine h.accounts.shaderCounts.id_lt (Multiset.mem_add.mpr (Or.inr (mem_shadersOf.mpr
        ⟨y.2, ?_, hx⟩)))
      exact mem_programRefs_of_links _ (List.mem_map_of_mem hy)
  have hspeaks := hwithdrawn.speaks
  obtain ⟨cs, hcs, -⟩ := hspeaks.calls
  refine ⟨⟨cs, hcs, ?_⟩, hspeaks.linkCache, hspeaks.bound, hspeaks.registers, hspeaks.generation,
    hwithdrawn.released, hwithdrawn.lastError⟩
  have hrefs : (s.withDevice d).books.programRefs = s.books.programRefs := by
    simp [Books.programRefs, books, Client.books, Device.books, withDevice, hspeaks.linkCache,
      hspeaks.bound]
  have hperm := h.deletedBy_perm h' (congrArg Profile.isGlsl hspeaks.profile) rfl hrefs
    hwithdrawn.released hcs
  refine ⟨hperm, fun hfresh x hx => ?_⟩
  have hnodup := Registry.nodup_after_add_deleted h'.admitted hfresh
  have hdeleted := Multiset.coe_nodup.mp (Multiset.nodup_add.mp hnodup).2.1
  change (deletedBy d.calls.toList).Nodup at hdeleted
  rw [hcs, deletedBy, List.filterMap_append] at hdeleted
  exact List.count_eq_one_of_mem hdeleted.of_append_right
    (hperm.mem_iff.mpr (List.mem_append_right _ hx))

def Driver.refusingThird : Driver :=
  { Driver.second with compileFailure := fun n => if n = 3 then some "no" else none }

/-- The second of two shaders is refused while another shader waits to be deleted. -/
theorem Player.compileEffect_failed_second : ∃ (d₀ d : Device) (s : Player) (cs : List Call),
    Run d₀ [.ask (.compileLowered (idleShader .vertex)), .ask (.dropShader idleVertex)] s ∧
    d.calls.toList = s.client.device.calls.toList ++ cs ∧
    createdBy cs = [.shader 2, .shader 3] ∧
    (deletedBy cs).Perm [.shader 1, .shader 2, .shader 3] ∧ d.lastError = "no" := by
  obtain ⟨d₀, hd⟩ : ∃ d, Device.create .refusingThird (.ofProfile .glsl120) = .ok d := ⟨_, rfl⟩
  obtain ⟨compiled, hcompiled⟩ :
    ∃ s, s = (new d₀).perform (.ask (.compileLowered (idleShader .vertex))) := ⟨_, rfl⟩
  obtain ⟨s, hs⟩ : ∃ s, s = compiled.perform (.ask (.dropShader idleVertex)) := ⟨_, rfl⟩
  have hheld : idleVertex ∈ compiled.client.shaders := by
    subst hcompiled
    cases hd
    exact List.mem_singleton.mpr rfl
  have hbegun : Run d₀ [.ask (.compileLowered (idleShader .vertex))] compiled :=
    hcompiled ▸ Run.start.step (.ask (.compileLowered (idleShader .vertex))) trivial
  have hrun : Run d₀ _ s := hs ▸ hbegun.step (.ask (.dropShader idleVertex)) hheld
  obtain ⟨d, hfail, hqueued, hcreated⟩ : ∃ d, (compileEffect { idleEffect with
      objects := idleEffect.objects ++ idleEffect.objects }).run.run s.client.device =
        (.error (.compile "no"), d) ∧
      s.client.device.store.queued s.client.device.profile.isGlsl = [.shader 1] ∧
      createdBy (d.calls.toList.drop s.client.device.calls.toList.length) =
        [.shader 2, .shader 3] := by
    subst hs hcompiled
    cases hd
    exact ⟨_, rfl, rfl, rfl⟩
  obtain ⟨⟨cs, hcs, hperm, -⟩, -, -, -, -, -, hmessage⟩ := compileEffect_failed hd hrun hfail
  rw [hcs, List.drop_left] at hcreated
  rw [hqueued, hcreated] at hperm
  exact ⟨d₀, d, s, cs, hrun, hcs, hcreated, hperm, hmessage⟩

end ShaderPipeline.Device
