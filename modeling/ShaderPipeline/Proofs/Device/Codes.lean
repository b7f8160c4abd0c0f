import ShaderPipeline.Proofs.Device.Moves

/-!
# The codes a client meets

Every shader that a client can reach has a code that the client has asked for, or that was lowered
for it. So a property of all these codes holds along runs.
-/

namespace ShaderPipeline

open List Device Books

variable {P : LoweredShader → Prop}

theorem ShaderCache.get_all (hlowered : ∀ profile options bytes, P (.ofBytes profile options bytes))
    {c : ShaderCache} (h : ∀ e ∈ c.entries, P e.2) (profile : Profile) (options : Options)
    (bytes : Bytes) :
    P (c.get profile options bytes).2.1 ∧
      ∀ e ∈ (c.get profile options bytes).2.2.entries, P e.2 := by
  have hpromote : ∀ key s, P s → ∀ e ∈ (c.promote key s).entries, P e.2 := by
    intro key s hs e he
    rcases mem_cons.mp (mem_of_mem_take he) with rfl | he
    · exact hs
    · exact h e (mem_filter.mp he).1
  unfold ShaderCache.get
  cases hfound : c.entries.lookup (requestKey profile options bytes) with
  | some s =>
    obtain ⟨first, last, hentries, -⟩ := lookup_eq_some_iff.mp hfound
    have hs : P s := h (requestKey profile options bytes, s) (by rw [hentries]; simp)
    simp only [hfound]
    exact ⟨hs, hpromote _ s hs⟩
  | none =>
    simp only [hfound]
    exact ⟨hlowered _ _ _, hpromote _ _ (hlowered _ _ _)⟩

namespace Device.Client

theorem cache_perform (c : Client) (r : Request) : (c.perform r).device.cache = c.cacheAfter r := by
  cases hw : r.isWrite with
  | true =>
    obtain ⟨files, hperform⟩ := c.perform_write r hw
    rw [hperform]
    cases r <;> first | rfl | simp [Request.isWrite] at hw
  | false =>
    cases hbinds : r.rebinds with
    | false => exact (c.speaks_perform r hw hbinds).cache
    | true =>
      cases r with
      | bind p => exact cache_bind _ p
      | bindShaders vertex pixel =>
        have hlink := (speaks_link c.device vertex pixel).cache
        refine bindShaders_induct (P := fun d => d.cache = c.device.cache)
          (cache_bind c.device none) (fun p _ => cache_bind _ _) (fun e d hrun => ?_)
          fun p d hrun => ?_ <;> rw [hrun] at hlink
        · exact hlink
        · rw [cache_bind]
          exact hlink
      | deleteShader s =>
        simp only [perform, deleteShader_run]
        rfl
      | _ => exact absurd hbinds Bool.false_ne_true

theorem Run.codes (hlowered : ∀ profile options bytes, P (.ofBytes profile options bytes))
    {driver : Driver} {config : Config} {d : Device} (hcreate : create driver config = .ok d)
    {requests : List Request} {c : Client} (run : Run d requests c)
    (hrequests : ∀ code, .compileLowered code ∈ requests → P code) :
    (∀ e ∈ c.device.cache.entries, P e.2) ∧ ∀ x ∈ (c.books 0 0).shaderRefs, P x.code := by
  induction run with
  | start =>
    obtain rfl := eq_of_create hcreate
    exact ⟨fun e he => absurd he not_mem_nil, fun x hx => absurd hx (Multiset.notMem_zero x)⟩
  | @step requests c before r allowed ih =>
    obtain ⟨hcached, hcodes⟩ := ih fun code hcode => hrequests code (mem_append_left _ hcode)
    have hasked : (∀ code ∈ c.compiledBy? r, P code) ∧ ∀ e ∈ (c.cacheAfter r).entries, P e.2 := by
      cases r with
      | compile bytes options =>
        obtain ⟨hcode, hcache⟩ :=
          ShaderCache.get_all hlowered hcached c.device.profile options bytes
        exact ⟨fun code h => Option.some.inj h ▸ hcode, hcache⟩
      | compileLowered code =>
        exact ⟨fun code' h => Option.some.inj h ▸ hrequests code (by simp), hcached⟩
      | _ => exact ⟨fun code h => absurd h (by simp [compiledBy?]), hcached⟩
    rw [cache_perform]
    refine ⟨hasked.2, fun x hx => ?_⟩
    exact ((Succeeds.of_proceeds (c.proceeds_perform 0 0 allowed hasked.1)).codes x hx).elim
      (hcodes x) id

end Device.Client

end ShaderPipeline
