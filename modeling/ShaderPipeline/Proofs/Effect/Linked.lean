import ShaderPipeline.Preshader.Writer
import ShaderPipeline.Proofs.Effect.RoundTrip
import ShaderPipeline.Proofs.Effect.Trailing
import ShaderPipeline.Proofs.Lowering.CacheRuns

/-!
# Links between the parts of an effect

When an effect was read, its objects hold what their types say, its shaders are linked to the
parameters that feed them and to the techniques and passes that own them, and its diagnostics are
those of its shaders in the order of the container.

All of this is kept by every block that fills an object. The shaders of an effect go through a
cache, but differ in the names of their entry functions and in their code only, which the cache
tells apart.
-/

namespace ShaderPipeline.Effect

open ObjectBlock List LinkM Linkage Object

variable {b : ObjectBlock} {object : Nat} {x : Object}

/-! ### Linked objects -/

/-- The sampler registers among some symbols, in order, each with its register and with the first
parameter that has its name. -/
def SamplersFed (params : List Param) (symbols : List Symbol) (links : List SamplerLink) : Prop :=
  List.Forall₂
    (fun y l => l.name = y.name ∧ l.register = y.index ∧ FirstNamed params y.name l.param)
    (symbols.filter (·.registerSet = .sampler)) links

/-- A shader object is linked to the parameters that it names and to the pass that owns it. -/
structure ShaderObject.Linked (params : List Param) (techniques : List Technique)
    (s : ShaderObject) : Prop where
  shader : ∀ l, s.code = .shader l →
    Feeds params l.symbols s.params ∧ SamplersFed params l.symbols s.samplers
  selector : ∀ p, s.code = .selector p → s.params.length = 1 ∧ s.samplers = []
  preshader : Feeds params (s.preshader?.elim [] Preshader.symbols) s.preshaderParams
  inRange : ∀ i ∈ s.params ++ s.preshaderParams ++ s.samplers.map SamplerLink.param,
    i < params.length
  owner : ∀ t, s.technique = some t →
    ∃ technique p, techniques[t]? = some technique ∧ s.pass = some p ∧
      p < technique.passes.length

def Object.Agrees (o : Object) : Prop :=
  match o.data with
  | .none => True
  | .string _ => o.type = .string
  | .mapping _ => (o.type.isTexture || o.type.isSampler) = true
  | .shader _ => o.type.isShader = true

/-- An object holds what its type says, and a shader is linked. -/
structure Object.Sound (params : List Param) (techniques : List Technique) (o : Object) : Prop where
  agrees : o.Agrees
  linked : ∀ s, o.data = .shader s → s.Linked params techniques

/-! ### Links of a block -/

section Links

variable {c : LinkContext} {params : List Param} {symbols : List Symbol} {indices : List Nat}

theorem samplersFed_samplerLinks (h : Feeds params symbols indices) :
    SamplersFed params symbols (samplerLinks symbols indices) := by
  rw [SamplersFed, samplerLinks]
  induction h with
  | nil => exact .nil
  | @cons y i symbols indices hfirst _ ih =>
    rw [zip_cons_cons, filter_cons, filterMap_cons]
    dsimp only
    by_cases hset : y.registerSet = .sampler
    · rw [if_pos (by simpa using hset), if_pos hset]
      exact .cons ⟨rfl, rfl, hfirst⟩ ih
    · rw [if_neg (by simpa using hset), if_neg hset]
      exact ih

theorem SamplersFed.lt {links : List SamplerLink} (h : SamplersFed params symbols links) :
    ∀ i ∈ links.map SamplerLink.param, i < params.length := by
  rw [SamplersFed] at h
  generalize symbols.filter _ = samplers at h
  induction h with
  | nil => exact fun _ hi => nomatch hi
  | cons hfirst _ ih => exact forall_mem_cons.mpr ⟨hfirst.2.2.lt, ih⟩

theorem ObjectBlock.owner (h : b.object c = .ok object) :
    ∀ t, b.technique = some t → ∃ technique p, c.techniques[t]? = some technique ∧
      b.pass = some p ∧ p < technique.passes.length := by
  intro t ht
  cases b with
  | small => exact nomatch ht
  | large owner index state kind bytes =>
    rw [technique] at ht
    split at ht
    case isTrue => exact nomatch ht
    case isFalse howner =>
      cases ht
      rw [ObjectBlock.object, owningObject] at h
      obtain ⟨v, hv, -⟩ := bind_eq_ok.mp h
      rw [owningValue, if_neg howner] at hv
      dsimp only at hv
      split at hv
      case h_1 => exact nomatch hv
      case h_2 hfound =>
        obtain ⟨T, hT, hfound⟩ := Option.bind_eq_some_iff.mp hfound
        obtain ⟨p, hp, -⟩ := Option.bind_eq_some_iff.mp hfound
        exact ⟨T, index, hT, rfl, (List.getElem?_eq_some_iff.mp hp).1⟩

theorem linked_linkedShader {l : LoweredShader} {preshaderParams : List Nat}
    (hobject : b.object c = .ok object) (hfeeds : Feeds c.params l.symbols indices)
    (hpreshader : Feeds c.params (preshaderSymbols l) preshaderParams) :
    (linkedShader l b.technique b.pass indices preshaderParams).Linked c.params c.techniques := by
  have hsamplers := samplersFed_samplerLinks hfeeds
  refine ⟨fun l' hl => ?_, fun p hp => (nomatch hp), hpreshader, ?_, owner hobject⟩
  · cases hl
    exact ⟨hfeeds, hsamplers⟩
  · exact forall_mem_append.mpr
      ⟨forall_mem_append.mpr ⟨hfeeds.lt, hpreshader.lt⟩, hsamplers.lt⟩

theorem linked_of_readSelector {o : ShaderObject} (hobject : b.object c = .ok object)
    (h : readSelector c b.bytes b.technique b.pass = .ok o) :
    o.Linked c.params c.techniques := by
  rw [readSelector] at h
  obtain ⟨name, -, h⟩ := bind_eq_ok.mp h
  split at h
  case h_1 => exact nomatch h
  case h_2 array =>
    obtain ⟨len, -, h⟩ := bind_eq_ok.mp h
    dsimp only at h
    split at h
    case h_1 => exact nomatch h
    case h_2 p _ =>
      obtain ⟨i, hi, h⟩ := bind_eq_ok.mp h
      obtain ⟨preshaderParams, hpreshader, h⟩ := bind_eq_ok.mp h
      cases h
      have hfirst := needParam_eq_ok.mp hi
      have hfeeds := linkSymbols_eq_ok.mp hpreshader
      refine ⟨fun l hl => (nomatch hl), fun p hp => ⟨rfl, rfl⟩, hfeeds, ?_, owner hobject⟩
      rw [map_nil, append_nil]
      exact forall_mem_cons.mpr ⟨hfirst.lt, hfeeds.lt⟩

end Links

/-! ### Objects -/

section Objects

variable {c : LinkContext} {k k' : Linkage} {b : ObjectBlock} {bs : List ObjectBlock}

namespace Linkage

theorem getElem?_fill {i : Nat} {data : ObjectData} :
    (k.fill object data).objects[i]? =
      if object = i then k.objects[i]?.map fun o => { o with data } else k.objects[i]? := by
  rw [fill, Array.getElem?_modify]

theorem fill_self (hx : k.objects[object]? = some x) :
    (k.fill object x.data).objects = k.objects := by
  refine Array.ext_getElem? fun i => ?_
  rw [getElem?_fill]
  split
  case isTrue hi =>
    rw [← hi, hx]
    rfl
  case isFalse => rfl

theorem fillText_cases (hx : k.objects[object]? = some x) (wrap : String → ObjectData)
    (bytes : Bytes) :
    ∃ data, (k.fillText object wrap bytes).objects = (k.fill object data).objects ∧
      (data = x.data ∨ ∃ text, data = wrap text) := by
  rw [fillText]
  split
  · exact ⟨x.data, (fill_self hx).symm, .inl rfl⟩
  · exact ⟨_, rfl, .inr ⟨_, rfl⟩⟩

end Linkage

/-- What a block does to the objects: it writes one of them, with data that are sound for its type.
Only shaders are written to an object for shaders. -/
theorem Fills.writes (h : Fills c k b k') :
    ∃ object x data, b.object c = .ok object ∧ k.objects[object]? = some x ∧
      k'.objects = (k.fill object data).objects ∧
      (x.Sound c.params c.techniques → (Object.mk x.type data).Sound c.params c.techniques) ∧
      (x.type.isShader = true → ∃ s, data = .shader s) := by
  cases h with
  | @string index bytes x block found type =>
    obtain ⟨data, hobjects, hdata⟩ := fillText_cases found .string b.bytes
    refine ⟨index, x, data, by rw [block]; rfl, found, hobjects, fun hx => ?_, fun hshader => ?_⟩
    · rcases hdata with rfl | ⟨text, rfl⟩
      · exact hx
      · exact ⟨type, fun s hs => nomatch hs⟩
    · exact absurd type (ne_of_shader hshader).1
  | @mapping object x isFor found type =>
    obtain ⟨data, hobjects, hdata⟩ := fillText_cases found .mapping b.bytes
    refine ⟨object, x, data, isFor, found, hobjects, fun hx => ?_, fun hshader => ?_⟩
    · rcases hdata with rfl | ⟨text, rfl⟩
      · exact hx
      · exact ⟨type, fun s hs => nomatch hs⟩
    · exact absurd type (ne_of_shader hshader).2
  | @shader object x params preshaderParams isFor found type code feeds preshader =>
    refine ⟨object, x, _, isFor, found, rfl, fun _ => ⟨type, fun s hs => ?_⟩, fun _ => ⟨_, rfl⟩⟩
    cases hs
    exact linked_linkedShader isFor feeds preshader
  | @selector object x o isFor found type code read =>
    refine ⟨object, x, _, isFor, found, rfl, fun _ => ⟨type, fun s hs => ?_⟩, fun _ => ⟨_, rfl⟩⟩
    cases hs
    exact linked_of_readSelector isFor read
  | @void _ _ _ _ object _ x block isFor found type =>
    refine ⟨object, x, x.data, isFor, found, (fill_self found).symm, id, fun hshader => ?_⟩
    rw [type] at hshader
    exact nomatch hshader

theorem Fills.type (h : Fills c k b k') (i : Nat) :
    k'.objects[i]?.map type = k.objects[i]?.map type := by
  obtain ⟨object, x, data, -, -, hobjects, -, -⟩ := h.writes
  rw [hobjects, Linkage.getElem?_fill]
  split
  · rw [Option.map_map]
    rfl
  · rfl

theorem Fills.sound (h : Fills c k b k')
    (hk : ∀ (i : Nat) o, k.objects[i]? = some o → o.Sound c.params c.techniques) :
    ∀ (i : Nat) o, k'.objects[i]? = some o → o.Sound c.params c.techniques := by
  obtain ⟨object, x, data, -, hx, hobjects, hsound, -⟩ := h.writes
  intro i o ho
  rw [hobjects, Linkage.getElem?_fill] at ho
  split at ho
  case isTrue hi =>
    rw [← hi, hx] at ho
    cases ho
    exact hsound (hk object x hx)
  case isFalse => exact hk i o ho

/-- An object that holds a shader if it is for one. -/
def HoldsShader (k : Linkage) (i : Nat) : Prop :=
  ∀ o, k.objects[i]? = some o → o.type.isShader = true → ∃ s, o.data = .shader s

theorem Fills.holdsShader (h : Fills c k b k') {i : Nat}
    (hi : b.object c = .ok i ∨ HoldsShader k i) : HoldsShader k' i := by
  obtain ⟨object, x, data, hobject, hx, hobjects, -, hshader⟩ := h.writes
  intro o ho htype
  rw [hobjects, Linkage.getElem?_fill] at ho
  split at ho
  case isTrue heq =>
    rw [← heq, hx] at ho
    cases ho
    exact hshader htype
  case isFalse hne =>
    rcases hi with hi | hi
    · rw [hobject] at hi
      exact absurd (Except.ok.inj hi) hne
    · exact hi o ho htype

theorem FillsAll.type (h : FillsAll c k bs k') (i : Nat) :
    k'.objects[i]?.map type = k.objects[i]?.map type := by
  induction h with
  | nil => rfl
  | cons first _ ih => exact ih.trans (first.type i)

theorem FillsAll.sound (h : FillsAll c k bs k')
    (hk : ∀ (i : Nat) o, k.objects[i]? = some o → o.Sound c.params c.techniques) :
    ∀ (i : Nat) o, k'.objects[i]? = some o → o.Sound c.params c.techniques := by
  induction h with
  | nil => exact hk
  | cons first _ ih => exact ih (first.sound hk)

theorem FillsAll.holdsShader (h : FillsAll c k bs k') {i : Nat}
    (hi : (∃ b ∈ bs, b.object c = .ok i) ∨ HoldsShader k i) : HoldsShader k' i := by
  induction h with
  | nil => exact hi.resolve_left fun ⟨_, hb, _⟩ => nomatch hb
  | cons first _ ih =>
    rcases hi with ⟨b, hb, hobject⟩ | hi
    · rcases mem_cons.mp hb with rfl | hb
      · exact ih (.inr (first.holdsShader (.inl hobject)))
      · exact ih (.inl ⟨b, hb, hobject⟩)
    · exact ih (.inr (first.holdsShader (.inr hi)))

end Objects

/-! ### Shaders -/

def shaderRequest (c : LinkContext) (object : Nat) (bytes : Bytes) : ShaderRequest :=
  ⟨c.profile, { c.options with entry := LinkM.entryName object }, bytes⟩

/-- The shader that a block asks for, if its object is for a shader and it has one itself. -/
def ObjectBlock.request? (c : LinkContext) (objects : Array Object) (b : ObjectBlock) :
    Option ShaderRequest := do
  let object ← (b.object c).toOption
  let type ← objects[object]?.map Object.type
  if type.isShader && !b.selects then some (shaderRequest c object b.bytes) else none

def ObjectBlock.diagnostics (c : LinkContext) (objects : Array Object) (b : ObjectBlock) :
    List Diagnostic :=
  (b.request? c objects).elim [] fun r => r.lowered.diagnostics

theorem zero_notMem_of_isDigit {ch : Char} (h : ch.isDigit = true) :
    0 ∉ String.utf8EncodeChar ch := by
  have hrange : 48 ≤ ch.val.toNat ∧ ch.val.toNat ≤ 57 := by
    simpa [Char.isDigit, UInt32.le_iff_toNat_le] using h
  rw [String.utf8EncodeChar, if_pos (by omega), mem_singleton, ← UInt8.toNat_inj,
    UInt8.toNat_zero, UInt8.toNat_ofNat']
  omega

theorem zero_notMem_entryName (object : Nat) : 0 ∉ utf8Bytes (entryName object) := by
  have hname : entryName object = "ShaderFunction" ++ object.repr := rfl
  rw [hname, utf8Bytes_eq_flatMap, String.toList_append, flatMap_append, mem_append,
    not_or, ← utf8Bytes_eq_flatMap, Nat.toList_repr, mem_flatMap]
  refine ⟨by decide, ?_⟩
  rintro ⟨ch, hch, hzero⟩
  exact zero_notMem_of_isDigit (Nat.isDigit_of_mem_toDigits (by decide) (by decide) hch) hzero

section Shaders

variable {c : LinkContext} {k k' : Linkage} {b : ObjectBlock} {bs : List ObjectBlock}

def Asked (c : LinkContext) (r : ShaderRequest) : Prop :=
  ∃ object bytes, r = shaderRequest c object bytes

theorem Asked.eq_of_key_eq {r s : ShaderRequest} (hr : Asked c r) (hs : Asked c s)
    (hkey : r.key = s.key) : r = s := by
  obtain ⟨i, bytes, rfl⟩ := hr
  obtain ⟨j, bytes', rfl⟩ := hs
  exact ShaderRequest.key_injective rfl rfl (zero_notMem_entryName i) (zero_notMem_entryName j) hkey

/-- The cache is not noticed when objects are linked. -/
theorem Linkage.lowered_eq (h : k.cache.Remembers (Asked c)) (object : Nat) (bytes : Bytes) :
    k.lowered c object bytes = (shaderRequest c object bytes).lowered ∧
      (k.lower c object bytes).cache.Remembers (Asked c) := by
  have hasked : Asked c (shaderRequest c object bytes) := ⟨object, bytes, rfl⟩
  obtain ⟨s, hs, hkey, hlowered, hcache⟩ := h.get hasked
  obtain rfl := hs.eq_of_key_eq hasked hkey
  refine ⟨hlowered, ?_⟩
  have hpromoted := h.promote hasked
  rw [← hcache] at hpromoted
  exact hpromoted

theorem Linkage.fillText_rest {wrap : String → ObjectData} {bytes : Bytes} :
    (k.fillText object wrap bytes).cache = k.cache ∧
      (k.fillText object wrap bytes).diagnostics = k.diagnostics := by
  rw [fillText]
  split <;> exact ⟨rfl, rfl⟩

theorem ObjectBlock.diagnostics_eq {objects : Array Object} (isFor : b.object c = .ok object)
    (found : objects[object]? = some x) :
    b.diagnostics c objects =
      if x.type.isShader && !b.selects then (shaderRequest c object b.bytes).lowered.diagnostics
      else [] := by
  rw [diagnostics, request?, isFor]
  dsimp only [Except.toOption, bind, Option.bind]
  rw [found]
  dsimp only [Option.map]
  split <;> rfl

theorem Fills.remembers (h : Fills c k b k') (hk : k.cache.Remembers (Asked c)) :
    k'.cache.Remembers (Asked c) ∧
      k'.diagnostics = k.diagnostics ++ b.diagnostics c k.objects := by
  cases h with
  | string block found type =>
    obtain ⟨hcache, hdiagnostics⟩ := fillText_rest
    rw [hcache, hdiagnostics, diagnostics_eq (by rw [block]; rfl) found, type]
    exact ⟨hk, (append_nil _).symm⟩
  | mapping isFor found type =>
    obtain ⟨hcache, hdiagnostics⟩ := fillText_rest
    rw [hcache, hdiagnostics, diagnostics_eq isFor found,
      Bool.eq_false_iff.mpr (ne_of_mapped type).2]
    exact ⟨hk, (append_nil _).symm⟩
  | shader isFor found type code =>
    obtain ⟨hlowered, hcache⟩ := lowered_eq hk _ b.bytes
    refine ⟨hcache, ?_⟩
    rw [diagnostics_eq isFor found, type, code]
    exact congrArg (fun l => k.diagnostics ++ LoweredShader.diagnostics l) hlowered
  | selector isFor found type code =>
    rw [diagnostics_eq isFor found, type, code]
    exact ⟨hk, (append_nil _).symm⟩
  | void block isFor found type =>
    rw [diagnostics_eq isFor found, type]
    exact ⟨hk, (append_nil _).symm⟩

theorem ObjectBlock.diagnostics_congr {objects objects' : Array Object}
    (h : ∀ i : Nat, objects'[i]?.map type = objects[i]?.map type) :
    diagnostics c objects' = diagnostics c objects := by
  funext b
  simp only [diagnostics, request?, h]

/-- Diagnostics are those of the shaders of the blocks, one after the other. -/
theorem FillsAll.diagnostics (h : FillsAll c k bs k') (hk : k.cache.Remembers (Asked c)) :
    k'.diagnostics = k.diagnostics ++ bs.flatMap (ObjectBlock.diagnostics c k'.objects) := by
  induction h with
  | nil => exact (append_nil _).symm
  | cons first rest ih =>
    obtain ⟨hcache, hdiagnostics⟩ := first.remembers hk
    rw [ih hcache, hdiagnostics, flatMap_cons, append_assoc,
      diagnostics_congr fun i => (rest.type i).trans (first.type i)]

theorem FillsAll.exists_object (h : FillsAll c k bs k') :
    ∀ b ∈ bs, ∃ i, b.object c = .ok i ∧ i < k.objects.size := by
  induction h with
  | nil => exact fun _ hb => nomatch hb
  | cons first _ ih =>
    rw [first.size] at ih
    obtain ⟨object, x, -, hobject, hx, -⟩ := first.writes
    exact forall_mem_cons.mpr ⟨⟨object, hobject, (Array.getElem?_eq_some_iff.mp hx).1⟩, ih⟩

end Shaders

/-! ### Effects that were read -/

def linkContext (e : Effect) (options : Options) : LinkContext :=
  ⟨e.profile, options, e.params, e.techniques⟩

def BlocksOf (bytes : Bytes) (e : Effect) (bs : List ObjectBlock) : Prop :=
  ∃ start offset small large last, ContainerAt bytes start offset ∧
    let c : Contents := ⟨e.params, e.techniques, e.objects.size, small, large⟩
    ContentsAt (baseOf bytes start) offset c ∧
      objectBlocks? (baseOf bytes start) small large (c.listsAt offset + 8) = some (bs, last)

/-- The objects of an effect that was read hold what their types say, its shaders are linked to the
first parameters with the names of their symbols and to passes that exist, every block for a shader
has left one, and the diagnostics are those of the shaders in the order of the blocks. -/
theorem objects_linked {bytes : Bytes} {profile : Profile} {options : Options} {e : Effect}
    (h : ofBytes bytes profile options = .ok e) :
    (∀ o ∈ e.objects, o.Sound e.params e.techniques) ∧
      ∃ bs, BlocksOf bytes e bs ∧
        (∀ b ∈ bs, ∃ i o, b.object (e.linkContext options) = .ok i ∧ e.objects[i]? = some o ∧
          (o.type.isShader = true → ∃ s, o.data = .shader s)) ∧
        e.diagnostics = bs.flatMap (ObjectBlock.diagnostics (e.linkContext options) e.objects) := by
  obtain ⟨start, offset, c, bs, last, k, hcontainer, hc, hblocks, hfills, rfl⟩ :=
    ofBytes_eq_ok_iff.mp h
  have hsize : k.objects.size = c.objectCount := hfills.size.trans c.size_objects
  have hempty : ∀ (i : Nat) o, c.unlinked.objects[i]? = some o →
      o.Sound c.params c.techniques := by
    intro i o ho
    rw [Contents.unlinked, Contents.objects, Array.getElem?_map] at ho
    obtain ⟨type, -, rfl⟩ := Option.map_eq_some_iff.mp ho
    exact ⟨trivial, by rintro s ⟨⟩⟩
  have hsound := hfills.sound hempty
  refine ⟨fun o ho => ?_, bs, ?_, fun b hb => ?_, ?_⟩
  · obtain ⟨i, hi⟩ := Array.getElem?_of_mem ho
    exact hsound i o hi
  · refine ⟨start, offset, c.smallCount, c.largeCount, last, hcontainer, ?_, hblocks⟩
    dsimp only [Contents.effect, Linkage.placed]
    rw [hsize]
    exact hc
  · obtain ⟨i, hobject, hi⟩ := hfills.exists_object b hb
    rw [← hfills.size] at hi
    refine ⟨i, _, hobject, Array.getElem?_eq_getElem hi, fun htype => ?_⟩
    exact hfills.holdsShader (.inl ⟨b, hb, hobject⟩) _ (Array.getElem?_eq_getElem hi) htype
  · exact hfills.diagnostics (ShaderCache.remembers_empty _)

/-- The code of a pixel shader that has a sampler and no instructions. -/
def samplerShader : List UInt8 :=
  bytesOfWords (0xFFFF0200 :: Preshader.commentBlock (ConstantTable.toWords
    [⟨"s", .sampler, 0, 1, ⟨.object, .sampler2D, 1, 1, 1, []⟩⟩]) ++ [0x0000FFFF])

/-- What a container refers to: a sampler and a technique of one pass, whose pixel shader has two
blocks. The first holds nothing, which is no shader, and the second the code above. -/
def retriedBase : Bytes :=
  (numberBytes [0, 2, 's'.toNat, ElementType.sampler2D.code, TypeClass.object.code, 4, 0, 0,
    ElementType.pixelShader.code, TypeClass.object.code, 0, 0, 0, 1, 1, 0, 1, 12, 0, 0, 0, 0, 0, 1,
    0, 0, 1, 147, 0, 32, 0, 0, 2, 0, 0, 0, 0, 0, 0, 0, 0, 0, 0, 0, samplerShader.length] ++
    samplerShader).toArray

def retriedShader : Bytes := (numberBytes [magic, 52]).toArray ++ retriedBase

theorem objects_linked_retried :
    ∃ e o s, ofBytes retriedShader .glsl default = .ok e ∧ e.diagnostics.length = 1 ∧
      o ∈ e.objects ∧ o.data = .shader s ∧ s.technique = some 0 ∧ s.pass = some 0 ∧
      s.params = [0] ∧ s.samplers = [⟨"s", 0, 0⟩] ∧ s.Linked e.params e.techniques := by
  -- Only the base is evaluated: taking it out of the container again would be slow.
  have hcached : ofBytesCached retriedShader .glsl default default =
      (readContents retriedBase .glsl default default).run' ⟨52, #[]⟩ := by
    refine ofBytesCached_of_header ?_ ?_ ?_ ?_ ?_ _ _ _
    · rw [retriedShader, Array.size_append]
      exact Nat.le_add_right_of_le (by decide)
    · exact numberAt_eq_ok.mpr (number?_append (by decide))
    · exact numberAt_eq_ok.mpr (number?_append (by decide))
    · simp [retriedShader, Array.extract_append]
    · rw [retriedBase, List.size_toArray, List.length_append, length_numberBytes]
      exact Nat.le_add_right_of_le (by decide)
  have hshape : ((readContents retriedBase .glsl default default).run' ⟨52, #[]⟩).toOption.any
      (fun r => r.1.diagnostics.length == 1 && r.1.objects.toList.any fun o =>
        o.shader?.any fun s => s.technique == some 0 && s.pass == some 0 && s.params == [0] &&
          s.samplers == [⟨"s", 0, 0⟩]) = true := by
    decide +kernel
  cases hrun : (readContents retriedBase .glsl default default).run' ⟨52, #[]⟩ with
  | error x =>
    rw [hrun] at hshape
    cases hshape
  | ok r =>
    have hread : ofBytes retriedShader .glsl default = .ok r.1 := by
      rw [ofBytes, hcached, hrun]
      rfl
    rw [hrun, Except.toOption, Option.any_some, Bool.and_eq_true, List.any_eq_true] at hshape
    obtain ⟨hcount, o, ho, hshape⟩ := hshape
    obtain ⟨type, data⟩ := o
    cases data with
    | shader s =>
      simp only [Object.shader?, Option.any_some, Bool.and_eq_true, beq_iff_eq] at hshape hcount
      obtain ⟨⟨⟨htechnique, hpass⟩, hparams⟩, hsamplers⟩ := hshape
      have hmem := Array.mem_toList_iff.mp ho
      exact ⟨r.1, _, s, hread, hcount, hmem, rfl, htechnique, hpass, hparams, hsamplers,
        ((objects_linked hread).1 _ hmem).linked s rfl⟩
    | _ => cases hshape

end ShaderPipeline.Effect
