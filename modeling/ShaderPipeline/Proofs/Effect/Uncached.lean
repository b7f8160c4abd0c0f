import ShaderPipeline.Proofs.Effect.Linked

/-!
# Effects without a cache

Effects are read with a cache that lowers their shaders. Here the reader is given over the way in
which a shader is found: with the cache it is the reader, and with direct lowering it is the reader
without a cache. Both give the same result or the same error, for a cache of any capacity: a result
may be dropped and found again, but the requests of one effect that share a key are one request.
-/

namespace ShaderPipeline.Effect

open ReaderM

namespace LinkM

/-! ### Ways to find a shader -/

abbrev Lookup := Profile → Options → Bytes → LinkM LoweredShader

def cached : Lookup := fun profile options bytes => do
  let (_, lowered, cache) := (← get).cache.get profile options bytes
  modify fun s => { s with cache }
  return lowered

def direct : Lookup := fun profile options bytes => return .ofBytes profile options bytes

def lowerShaderBy (lookup : Lookup) (c : LinkContext) (bytes : Bytes) (index : Nat)
    (technique pass : Option Nat) : LinkM ShaderObject := do
  let lowered ← lookup c.profile { c.options with entry := entryName index } bytes
  modify fun s => { s with diagnostics := s.diagnostics ++ lowered.diagnostics }
  let params ← linkSymbols c lowered.symbols
  let preshaderParams ←
    match lowered.preshader with
    | some p => linkSymbols c p.symbols
    | none => pure []
  return {
    technique, pass, params, preshaderParams
    code := .shader lowered
    samplers := samplerLinks lowered.symbols params }

def smallObjectBy (lookup : Lookup) (base : Bytes) (c : LinkContext) : LinkM Unit := do
  let what := "small object"
  let index ← next base what
  let len ← next base what
  let bytes ← block base len what
  let type ← objectType index
  if type = .string then
    setText index .string bytes
  else if type.isTexture || type.isSampler then
    setText index .mapping bytes
  else if type.isShader then
    setData index (.shader (← lowerShaderBy lookup c bytes index none none))
  else
    throw (.unexpectedObjectType .small index type)

def largeObjectBy (lookup : Lookup) (base : Bytes) (c : LinkContext) : LinkM Unit := do
  let what := "large object"
  let technique ← next base what
  let index ← next base what
  let _unused ← next base what
  let state ← next base what
  let kind ← next base what
  let len ← next base what
  let bytes ← block base len what
  let object ← owningObject c technique index state
  let owner := if technique = samplerOwned then none else some technique
  let type ← objectType object
  if type.isShader then
    if kind = selectorKind then
      setData object (.shader (← readSelector c bytes owner (some index)))
    else
      setData object (.shader (← lowerShaderBy lookup c bytes object owner (some index)))
  else if type.isTexture || type.isSampler then
    setText object .mapping bytes
  else if type ≠ .void then
    throw (.unexpectedObjectType .large object type)

def objectsBy (lookup : Lookup) (base : Bytes) (c : LinkContext) (small large : Nat) :
    LinkM Unit := do
  times (smallObjectBy lookup base c) small
  times (largeObjectBy lookup base c) large

/-! ### Steps that do not notice the cache -/

variable {c : LinkContext} {α β : Type} (base : Bytes) (index : Nat)

/-- From a state whose cache remembers requests of the linking, the first step does what the second
one does with any other cache, which the second step leaves alone. -/
def Unnoticed (c : LinkContext) (m m' : LinkM α) : Prop :=
  ∀ ⦃s : LinkState⦄, s.cache.Remembers (Asked c) → ∀ cache : ShaderCache,
    (∃ e, m.run s = .error e ∧ m'.run { s with cache } = .error e) ∨
      ∃ a t, m.run s = .ok (a, t) ∧ m'.run { s with cache } = .ok (a, { t with cache }) ∧
        t.cache.Remembers (Asked c)

theorem unnoticed_pure (a : α) : Unnoticed c (pure a) (pure a) :=
  fun s hs _ => .inr ⟨a, s, rfl, rfl, hs⟩

theorem unnoticed_throw (e : EffectError) : Unnoticed (α := α) c (throw e) (throw e) :=
  fun _ _ _ => .inl ⟨e, rfl, rfl⟩

theorem unnoticed_lift (x : Except EffectError α) : Unnoticed c (liftM x) (liftM x) := by
  cases x with
  | error e => exact unnoticed_throw e
  | ok a => exact unnoticed_pure a

theorem unnoticed_modify {f : LinkState → LinkState} (hcache : ∀ s, (f s).cache = s.cache)
    (hswap : ∀ (s : LinkState) (cache : ShaderCache),
      f { s with cache } = { f s with cache }) : Unnoticed c (modify f) (modify f) := by
  intro s hs cache
  have hrun : (modify f : LinkM Unit).run { s with cache } = .ok ((), f { s with cache }) := rfl
  rw [hswap s cache] at hrun
  rw [← hcache s] at hs
  exact .inr ⟨(), f s, rfl, hrun, hs⟩

theorem Unnoticed.bind {m m' : LinkM α} {f f' : α → LinkM β} (hm : Unnoticed c m m')
    (hf : ∀ a, Unnoticed c (f a) (f' a)) : Unnoticed c (m >>= f) (m' >>= f') := by
  intro s hs cache
  simp only [StateT.run_bind]
  rcases hm hs cache with ⟨e, hrun, hrun'⟩ | ⟨a, t, hrun, hrun', ht⟩
  · rw [hrun, hrun']
    exact .inl ⟨e, rfl, rfl⟩
  · rw [hrun, hrun']
    exact hf a ht cache

/-- What is looked at in the state is not the cache. -/
theorem Unnoticed.get_bind {f f' : LinkState → LinkM β}
    (hlook : ∀ (s : LinkState) (cache : ShaderCache), f' { s with cache } = f' s)
    (hf : ∀ s, Unnoticed c (f s) (f' s)) : Unnoticed c (get >>= f) (get >>= f') := by
  intro s hs cache
  rw [run_get_bind, run_get_bind, hlook s cache]
  exact hf s hs cache

theorem Unnoticed.times {m m' : LinkM Unit} (h : Unnoticed c m m') (n : Nat) :
    Unnoticed c (LinkM.times m n) (LinkM.times m' n) := by
  induction n with
  | zero => exact unnoticed_pure ()
  | succ n ih => exact h.bind fun _ => ih

theorem unnoticed_next (what : String) : Unnoticed c (next base what) (next base what) := by
  refine .get_bind (fun _ _ => rfl) fun s => ?_
  refine (unnoticed_lift _).bind fun n => Unnoticed.bind ?_ fun _ => unnoticed_pure _
  exact unnoticed_modify (fun _ => rfl) fun _ _ => rfl

theorem unnoticed_block (len : Nat) (what : String) :
    Unnoticed c (block base len what) (block base len what) := by
  refine .get_bind (fun _ _ => rfl) fun s => ?_
  refine (unnoticed_lift _).bind fun bytes => Unnoticed.bind ?_ fun _ => unnoticed_pure _
  exact unnoticed_modify (fun _ => rfl) fun _ _ => rfl

theorem unnoticed_objectType : Unnoticed c (objectType index) (objectType index) := by
  refine .get_bind (fun _ _ => rfl) fun s => ?_
  dsimp only
  cases s.objects[index]? with
  | none => exact unnoticed_throw _
  | some o => exact unnoticed_pure _

theorem unnoticed_setData (data : ObjectData) :
    Unnoticed c (setData index data) (setData index data) :=
  unnoticed_modify (fun _ => rfl) fun _ _ => rfl

theorem unnoticed_setText (wrap : String → ObjectData) (bytes : Bytes) :
    Unnoticed c (setText index wrap bytes) (setText index wrap bytes) := by
  rw [setText]
  split
  · exact unnoticed_pure ()
  · exact unnoticed_setData _ _

theorem unnoticed_cached (bytes : Bytes) :
    Unnoticed c (cached c.profile { c.options with entry := entryName index } bytes)
      (direct c.profile { c.options with entry := entryName index } bytes) := by
  intro s hs cache
  obtain ⟨hlowered, hremembers⟩ := Linkage.lowered_eq (k := s.linkage) hs index bytes
  have hrun : (direct c.profile { c.options with entry := entryName index } bytes).run
      { s with cache } = .ok ((shaderRequest c index bytes).lowered, { s with cache }) := rfl
  rw [← hlowered] at hrun
  exact .inr ⟨_, _, rfl, hrun, hremembers⟩

theorem unnoticed_lowerShader (bytes : Bytes) (index : Nat) (technique pass : Option Nat) :
    Unnoticed c (lowerShaderBy cached c bytes index technique pass)
      (lowerShaderBy direct c bytes index technique pass) := by
  refine (unnoticed_cached index bytes).bind fun lowered => ?_
  refine Unnoticed.bind (unnoticed_modify (by exact fun _ => rfl) (by exact fun _ _ => rfl))
    fun _ => (unnoticed_lift _).bind fun params => ?_
  cases lowered.preshader with
  | none => exact (unnoticed_pure _).bind fun _ => unnoticed_pure _
  | some p => exact (unnoticed_lift _).bind fun _ => unnoticed_pure _

theorem unnoticed_smallObject :
    Unnoticed c (smallObjectBy cached base c) (smallObjectBy direct base c) := by
  refine (unnoticed_next _ _).bind fun index => (unnoticed_next _ _).bind fun len =>
    (unnoticed_block _ _ _).bind fun bytes => (unnoticed_objectType _).bind fun type => ?_
  split_ifs
  · exact unnoticed_setText _ _ _
  · exact unnoticed_setText _ _ _
  · exact (unnoticed_lowerShader _ _ _ _).bind fun _ => unnoticed_setData _ _
  · exact unnoticed_throw _

theorem unnoticed_largeObject :
    Unnoticed c (largeObjectBy cached base c) (largeObjectBy direct base c) := by
  refine (unnoticed_next _ _).bind fun technique => (unnoticed_next _ _).bind fun index =>
    (unnoticed_next _ _).bind fun _ => (unnoticed_next _ _).bind fun state =>
    (unnoticed_next _ _).bind fun kind => (unnoticed_next _ _).bind fun len =>
    (unnoticed_block _ _ _).bind fun bytes => (unnoticed_lift _).bind fun object => ?_
  generalize (if technique = samplerOwned then none else some technique) = owner
  refine (unnoticed_objectType _).bind fun type => ?_
  split_ifs
  · exact (unnoticed_lift _).bind fun _ => unnoticed_setData _ _
  · exact (unnoticed_lowerShader _ _ _ _).bind fun _ => unnoticed_setData _ _
  · exact unnoticed_setText _ _ _
  · exact unnoticed_throw _
  · exact unnoticed_pure _

theorem unnoticed_objects (small large : Nat) :
    Unnoticed c (objectsBy cached base c small large) (objectsBy direct base c small large) :=
  ((unnoticed_smallObject base).times small).bind fun _ => (unnoticed_largeObject base).times large

end LinkM

variable (lookup : LinkM.Lookup)

def readContentsBy (base : Bytes) (profile : Profile) (options : Options) (cache : ShaderCache) :
    ReaderM (Effect × ShaderCache) := do
  if (← remaining base) < 16 then
    throw (.unexpectedEof "structure counts")
  let paramCount ← next base "parameter count"
  let techniqueCount ← next base "technique count"
  let _unused ← next base "structure counts"
  let objectCount ← next base "object count"
  if maxObjects < objectCount ∨ base.size / 4 < objectCount then
    throw (.outOfMemory (.objects objectCount))
  modify fun s => { s with types := Array.replicate objectCount .void }
  let params ← times (param base) paramCount
  let techniques ← ReaderM.times (ReaderM.technique base) techniqueCount
  if (← remaining base) < 8 then
    throw (.unexpectedEof "object counts")
  let smallCount ← next base "small object count"
  let largeCount ← next base "large object count"
  let s ← get
  let start : LinkState := ⟨s.position, s.types.map fun t => ⟨t, .none⟩, cache, []⟩
  let (_, linked) ← (LinkM.objectsBy lookup base ⟨profile, options, params, techniques⟩
    smallCount largeCount).run start
  let effect : Effect := {
    profile, params, techniques
    diagnostics := linked.diagnostics
    objects := linked.objects
    technique := if techniques.isEmpty then none else some 0
    pass := none }
  return (effect, linked.cache)

/-- Reads an effect, its shaders found by `lookup`. -/
def ofBytesBy (bytes : Bytes) (profile : Profile) (options : Options) (cache : ShaderCache) :
    Except EffectError (Effect × ShaderCache) := do
  let start ← containerStart bytes
  if (← numberAt bytes start "effect header") ≠ magic then
    throw .notAnEffectsFile
  let offset ← numberAt bytes (start + 4) "TOC offset"
  let base := bytes.extract (start + 8) bytes.size
  if base.size < offset then
    throw (.unexpectedEof "TOC offset")
  (readContentsBy lookup base profile options cache).run' ⟨offset, #[]⟩

def ofBytesDirect (bytes : Bytes) (profile : Profile) (options : Options) :
    Except EffectError Effect :=
  Prod.fst <$> ofBytesBy .direct bytes profile options (.empty 0)

/-! ### Effects -/

section Reading

variable {α β : Type} (profile : Profile) (options : Options) (capacity : Nat)

theorem error_bind (e : EffectError) (f : α → Except EffectError β) :
    (throw e >>= f) = throw e := rfl

theorem run_error_bind (e : EffectError) (f : α → ReaderM β) : (throw e >>= f) = throw e := rfl

theorem map_run' (f : α → β) (m : ReaderM α) (s : ReaderState) :
    f <$> m.run' s = (f <$> m).run' s := by
  rw [StateT.run'_eq, StateT.run'_eq, StateT.run_map, Functor.map_map, Functor.map_map]

theorem fst_readContentsBy (base : Bytes) :
    Prod.fst <$> readContentsBy .cached base profile options (.empty capacity) =
      Prod.fst <$> readContentsBy .direct base profile options (.empty 0) := by
  unfold readContentsBy
  simp only [map_bind]
  refine bind_congr fun _ => ?_
  split
  · simp [run_error_bind]
  simp only [map_bind]
  refine bind_congr fun paramCount => bind_congr fun techniqueCount => bind_congr fun _ =>
    bind_congr fun objectCount => ?_
  split
  · simp [run_error_bind]
  simp only [map_bind]
  refine bind_congr fun _ => bind_congr fun params => bind_congr fun techniques =>
    bind_congr fun _ => ?_
  split
  · simp [run_error_bind]
  simp only [map_bind]
  refine bind_congr fun small => bind_congr fun large => bind_congr fun s => ?_
  rcases LinkM.unnoticed_objects (c := ⟨profile, options, params, techniques⟩) base small large
    (s := ⟨s.position, s.types.map fun t => ⟨t, .none⟩, .empty capacity, []⟩)
    (ShaderCache.remembers_empty capacity) (.empty 0) with
    ⟨e, hcached, hdirect⟩ | ⟨_, linked, hcached, hdirect, -⟩
  · rw [hcached, hdirect]
  · rw [hcached, hdirect]
    rfl

theorem fst_ofBytesCached (bytes : Bytes) :
    Prod.fst <$> ofBytesCached bytes profile options (.empty capacity) =
      ofBytesDirect bytes profile options := by
  change Prod.fst <$> ofBytesBy .cached bytes profile options (.empty capacity) = _
  unfold ofBytesDirect ofBytesBy
  simp only [map_bind]
  refine bind_congr fun start => bind_congr fun word => ?_
  split_ifs
  · simp [error_bind]
  simp only [map_bind]
  refine bind_congr fun offset => ?_
  split_ifs
  · simp [error_bind]
  have hread := fst_readContentsBy profile options capacity (bytes.extract (start + 8) bytes.size)
  rw [map_run', map_run', hread]

end Reading

end ShaderPipeline.Effect
