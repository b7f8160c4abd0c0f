import ShaderPipeline.Proofs.Effect.Entries

/-!
# The two lists of objects

Behind the table of contents stand blocks of bytes, each with the object that it is for. Where the
blocks stand depends on their sizes only, so they can be listed before any of them is looked into. A
block then fills its object by the object's type: with a text, with a shader that is lowered and
linked, or with a selector. The objects are linked exactly if the blocks can be listed and each of
them fills its object in turn.
-/

namespace ShaderPipeline.Effect

/-! ### Blocks -/

/-- A block of the list of small objects, which has the number of its object, or of the list of
large ones, which has a state whose value names the object. -/
inductive ObjectBlock where
  | small (index : Nat) (bytes : Bytes)
  | large (technique index state kind : Nat) (bytes : Bytes)
  deriving DecidableEq, Repr

variable (base : Bytes)

/-- Where the next block starts. The filling of the last block may be missing. -/
def blockEnd (position len : Nat) : Nat :=
  min (position + (len + 3) / 4 * 4) base.size

def smallBlock? (position : Nat) : Option (ObjectBlock × Nat) := do
  let index ← number? base position
  let len ← number? base (position + 4)
  let bytes ← slice? base (position + 8) len
  return (.small index bytes, blockEnd base (position + 8) len)

def largeBlock? (position : Nat) : Option (ObjectBlock × Nat) := do
  let technique ← number? base position
  let index ← number? base (position + 4)
  let _unused ← number? base (position + 8)
  let state ← number? base (position + 12)
  let kind ← number? base (position + 16)
  let len ← number? base (position + 20)
  let bytes ← slice? base (position + 24) len
  return (.large technique index state kind bytes, blockEnd base (position + 24) len)

/-- A number of blocks, one behind the other, and where the last one ends. -/
def blocks? (block? : (position : Nat) → Option (ObjectBlock × Nat)) :
    (count position : Nat) → Option (List ObjectBlock × Nat)
  | 0, position => some ([], position)
  | count + 1, position => do
    let (b, next) ← block? position
    let (bs, last) ← blocks? block? count next
    return (b :: bs, last)

/-- The blocks of both lists, and where the last one ends. -/
def objectBlocks? (small large position : Nat) :
    Option (List ObjectBlock × Nat) := do
  let (ss, next) ← blocks? (smallBlock? base) small position
  let (ls, last) ← blocks? (largeBlock? base) large next
  return (ss ++ ls, last)

section Listing

variable {base : Bytes} {position next last : Nat} {b : ObjectBlock} {bs : List ObjectBlock}

theorem smallBlock?_eq_some :
    smallBlock? base position = some (b, next) ↔
      ∃ index len bytes, number? base position = some index ∧
        number? base (position + 4) = some len ∧ slice? base (position + 8) len = some bytes ∧
        b = .small index bytes ∧ next = blockEnd base (position + 8) len := by
  simp only [smallBlock?, Option.bind_eq_bind, Option.bind_eq_some_iff, Option.pure_def,
    Option.some.injEq, Prod.mk.injEq, exists_and_left, @eq_comm _ _ b, @eq_comm _ _ next]

theorem largeBlock?_eq_some :
    largeBlock? base position = some (b, next) ↔
      ∃ technique index unused state kind len bytes, number? base position = some technique ∧
        number? base (position + 4) = some index ∧ number? base (position + 8) = some unused ∧
        number? base (position + 12) = some state ∧ number? base (position + 16) = some kind ∧
        number? base (position + 20) = some len ∧ slice? base (position + 24) len = some bytes ∧
        b = .large technique index state kind bytes ∧ next = blockEnd base (position + 24) len := by
  simp only [largeBlock?, Option.bind_eq_bind, Option.bind_eq_some_iff, Option.pure_def,
    Option.some.injEq, Prod.mk.injEq, exists_and_left, @eq_comm _ _ b, @eq_comm _ _ next]

theorem blocks?_succ_eq_some {block? : Nat → Option (ObjectBlock × Nat)} {count : Nat} :
    blocks? block? (count + 1) position = some (bs, last) ↔
      ∃ b next rest, block? position = some (b, next) ∧
        blocks? block? count next = some (rest, last) ∧ bs = b :: rest := by
  simp only [blocks?, Option.bind_eq_bind, Option.bind_eq_some_iff, Option.pure_def,
    Option.some.injEq, Prod.mk.injEq, Prod.exists]
  constructor
  · rintro ⟨b, next, hblock, rest, _, hrest, rfl, rfl⟩
    exact ⟨b, next, rest, hblock, hrest, rfl⟩
  · rintro ⟨b, next, rest, hblock, hrest, rfl⟩
    exact ⟨b, next, hblock, rest, last, hrest, rfl, rfl⟩

theorem objectBlocks?_eq_some {small large : Nat} :
    objectBlocks? base small large position = some (bs, last) ↔
      ∃ ss ls next, blocks? (smallBlock? base) small position = some (ss, next) ∧
        blocks? (largeBlock? base) large next = some (ls, last) ∧ bs = ss ++ ls := by
  simp only [objectBlocks?, Option.bind_eq_bind, Option.bind_eq_some_iff, Option.pure_def,
    Option.some.injEq, Prod.mk.injEq, Prod.exists]
  constructor
  · rintro ⟨ss, next, hsmall, ls, _, hlarge, rfl, rfl⟩
    exact ⟨ss, ls, next, hsmall, hlarge, rfl⟩
  · rintro ⟨ss, ls, next, hsmall, hlarge, rfl⟩
    exact ⟨ss, next, hsmall, ls, last, hlarge, rfl, rfl⟩

end Listing

namespace ObjectBlock

def bytes : ObjectBlock → Bytes
  | small _ bytes | large _ _ _ _ bytes => bytes

def selects : ObjectBlock → Bool
  | small _ _ => false
  | large _ _ _ kind _ => kind == LinkM.selectorKind

def object (c : LinkContext) : ObjectBlock → Except EffectError Nat
  | small index _ => .ok index
  | large technique index state _ _ => LinkM.owningObject c technique index state

def technique : ObjectBlock → Option Nat
  | small _ _ => none
  | large technique _ _ _ _ => if technique = LinkM.samplerOwned then none else some technique

def pass : ObjectBlock → Option Nat
  | small _ _ => none
  | large _ index _ _ _ => some index

end ObjectBlock

/-! ### Parameters of symbols -/

/-- The first parameter with a name. -/
def FirstNamed (params : List Param) (name : String) (i : Nat) : Prop :=
  ∃ p, params[i]? = some p ∧ p.value.name = some name ∧
    ∀ j < i, ∀ q, params[j]? = some q → q.value.name ≠ some name

/-- Each symbol has the first parameter with its name. -/
def Feeds (params : List Param) (symbols : List Symbol) (indices : List Nat) : Prop :=
  List.Forall₂ (fun y i => FirstNamed params y.name i) symbols indices

variable {params : List Param} {symbols : List Symbol} {indices : List Nat}

theorem FirstNamed.lt {name : String} {i : Nat} (h : FirstNamed params name i) :
    i < params.length := by
  obtain ⟨p, hp, -⟩ := h
  exact (List.getElem?_eq_some_iff.mp hp).1

theorem Feeds.lt (h : Feeds params symbols indices) : ∀ i ∈ indices, i < params.length := by
  induction h with
  | nil => nofun
  | cons hfirst _ ih => exact List.forall_mem_cons.mpr ⟨hfirst.lt, ih⟩

namespace LinkM

variable {c : LinkContext}

theorem needParam_eq_ok {name : String} {i : Nat} :
    needParam c name = .ok i ↔ FirstNamed c.params name i := by
  have hfound : needParam c name = .ok i ↔ findParam? c.params name = some i := by
    unfold needParam
    cases findParam? c.params name <;> simp
  rw [hfound, findParam?, List.findIdx?_eq_some_iff_getElem]
  constructor
  · rintro ⟨hi, hname, hbefore⟩
    refine ⟨_, List.getElem?_eq_getElem hi, by simpa using hname, fun j hj q hq => ?_⟩
    obtain ⟨hlt, rfl⟩ := List.getElem?_eq_some_iff.mp hq
    simpa using hbefore j hj
  · rintro ⟨p, hp, hname, hbefore⟩
    obtain ⟨hi, rfl⟩ := List.getElem?_eq_some_iff.mp hp
    refine ⟨hi, by simpa using hname, fun j hj => ?_⟩
    have := hbefore j hj _ (List.getElem?_eq_getElem (Nat.lt_trans hj hi))
    simpa using this

theorem linkSymbols_eq_ok :
    linkSymbols c symbols = .ok indices ↔ Feeds c.params symbols indices := by
  rw [linkSymbols]
  induction symbols generalizing indices with
  | nil =>
    refine ⟨fun h => ?_, fun h => ?_⟩
    · cases h
      exact .nil
    · cases h
      rfl
  | cons y symbols ih =>
    rw [List.mapM_cons, bind_eq_ok]
    constructor
    · rintro ⟨i, hi, h⟩
      obtain ⟨rest, hrest, h⟩ := bind_eq_ok.mp h
      cases h
      exact .cons (needParam_eq_ok.mp hi) (ih.mp hrest)
    · rintro (_ | ⟨hi, hrest⟩)
      exact ⟨_, needParam_eq_ok.mpr hi, bind_eq_ok.mpr ⟨_, ih.mpr hrest, rfl⟩⟩

end LinkM

/-! ### What a block does -/

/-- What the linking of objects has come to: its state without the place in the table. -/
structure Linkage where
  objects : Array Object
  cache : ShaderCache
  diagnostics : List Diagnostic

def LinkState.linkage (s : LinkState) : Linkage := ⟨s.objects, s.cache, s.diagnostics⟩

namespace Linkage

variable (k : Linkage) (c : LinkContext)

def placed (position : Nat) : LinkState := ⟨position, k.objects, k.cache, k.diagnostics⟩

def fill (object : Nat) (data : ObjectData) : Linkage :=
  { k with objects := k.objects.modify object fun o => { o with data } }

/-- Fills an object with a text, unless there is none. -/
def fillText (object : Nat) (wrap : String → ObjectData) (bytes : Bytes) : Linkage :=
  if bytes.isEmpty then k else k.fill object (wrap (lossyTextUntilZero bytes.toList))

def answer (object : Nat) (bytes : Bytes) : LookupSource × LoweredShader × ShaderCache :=
  k.cache.get c.profile { c.options with entry := LinkM.entryName object } bytes

def lowered (object : Nat) (bytes : Bytes) : LoweredShader := (k.answer c object bytes).2.1

/-- What is known after the shader of an object was lowered. -/
def lower (object : Nat) (bytes : Bytes) : Linkage where
  objects := k.objects
  cache := (k.answer c object bytes).2.2
  diagnostics := k.diagnostics ++ (k.lowered c object bytes).diagnostics

end Linkage

def preshaderSymbols (l : LoweredShader) : List Symbol := l.preshader.elim [] Preshader.symbols

def linkedShader (l : LoweredShader) (technique pass : Option Nat)
    (params preshaderParams : List Nat) : ShaderObject where
  technique := technique
  pass := pass
  code := .shader l
  params := params
  preshaderParams := preshaderParams
  samplers := LinkM.samplerLinks l.symbols params

/-- A block fills the object that it is for, by the type of the object. -/
inductive Fills (c : LinkContext) (k : Linkage) (b : ObjectBlock) : Linkage → Prop
  | string {index : Nat} {bytes : Bytes} {x : Object} (block : b = .small index bytes)
      (found : k.objects[index]? = some x) (type : x.type = .string) :
      Fills c k b (k.fillText index .string b.bytes)
  | mapping {object : Nat} {x : Object} (isFor : b.object c = .ok object)
      (found : k.objects[object]? = some x)
      (type : (x.type.isTexture || x.type.isSampler) = true) :
      Fills c k b (k.fillText object .mapping b.bytes)
  | shader {object : Nat} {x : Object} {params preshaderParams : List Nat}
      (isFor : b.object c = .ok object) (found : k.objects[object]? = some x)
      (type : x.type.isShader = true) (code : b.selects = false)
      (feeds : Feeds c.params (k.lowered c object b.bytes).symbols params)
      (preshader : Feeds c.params (preshaderSymbols (k.lowered c object b.bytes)) preshaderParams) :
      Fills c k b ((k.lower c object b.bytes).fill object (.shader
        (linkedShader (k.lowered c object b.bytes) b.technique b.pass params preshaderParams)))
  | selector {object : Nat} {x : Object} {o : ShaderObject} (isFor : b.object c = .ok object)
      (found : k.objects[object]? = some x) (type : x.type.isShader = true)
      (code : b.selects = true) (read : LinkM.readSelector c b.bytes b.technique b.pass = .ok o) :
      Fills c k b (k.fill object (.shader o))
  | void {technique index state kind object : Nat} {bytes : Bytes} {x : Object}
      (block : b = .large technique index state kind bytes) (isFor : b.object c = .ok object)
      (found : k.objects[object]? = some x) (type : x.type = .void) : Fills c k b k

section Kinds

variable {type : ElementType}

theorem ne_of_mapped (h : (type.isTexture || type.isSampler) = true) :
    type ≠ .string ∧ ¬type.isShader = true := by
  revert h
  cases type <;> decide

theorem ne_of_shader (h : type.isShader = true) :
    type ≠ .string ∧ ¬(type.isTexture || type.isSampler) = true := by
  revert h
  cases type <;> decide

end Kinds

/-- Blocks fill their objects one after the other. -/
inductive FillsAll (c : LinkContext) : Linkage → List ObjectBlock → Linkage → Prop
  | nil {k : Linkage} : FillsAll c k [] k
  | cons {k k' k'' : Linkage} {b : ObjectBlock} {bs : List ObjectBlock} (first : Fills c k b k')
      (rest : FillsAll c k' bs k'') : FillsAll c k (b :: bs) k''

variable {c : LinkContext} {k k' : Linkage} {object : Nat} {wrap : String → ObjectData}
  {bytes : Bytes} {technique pass : Option Nat}

theorem Linkage.size_fillText : (k.fillText object wrap bytes).objects.size = k.objects.size := by
  rw [fillText]
  split
  · rfl
  · exact Array.size_modify

theorem Fills.size {b : ObjectBlock} (h : Fills c k b k') : k'.objects.size = k.objects.size := by
  cases h with
  | string | mapping => exact Linkage.size_fillText
  | shader | selector => exact Array.size_modify
  | void => rfl

theorem FillsAll.size {bs : List ObjectBlock} (h : FillsAll c k bs k') :
    k'.objects.size = k.objects.size := by
  induction h with
  | nil => rfl
  | cons first _ ih => exact ih.trans first.size

theorem fillsAll_append {k'' : Linkage} {bs bs' : List ObjectBlock} :
    FillsAll c k (bs ++ bs') k'' ↔ ∃ k', FillsAll c k bs k' ∧ FillsAll c k' bs' k'' := by
  induction bs generalizing k with
  | nil =>
    refine ⟨fun h => ⟨k, .nil, h⟩, fun ⟨_, h, h'⟩ => ?_⟩
    cases h
    exact h'
  | cons b bs ih =>
    constructor
    · rintro (_ | ⟨hfirst, hrest⟩)
      obtain ⟨k', h, h'⟩ := ih.mp hrest
      exact ⟨k', .cons hfirst h, h'⟩
    · rintro ⟨k', _ | ⟨hfirst, hrest⟩, h'⟩
      exact .cons hfirst (ih.mpr ⟨k', hrest, h'⟩)

namespace LinkM

variable {base : Bytes} {s t : LinkState} {β : Type} {r : β × LinkState}

theorem run_next_bind_eq_ok {what : String} {f : Nat → LinkM β} :
    (next base what >>= f).run s = .ok r ↔
      ∃ n, number? base s.position = some n ∧
        (f n).run (s.linkage.placed (s.position + 4)) = .ok r := by
  rw [next, bind_assoc, run_get_bind, bind_assoc, run_liftM_bind_eq_ok]
  simp only [numberAt_eq_ok]
  rfl

theorem run_block_bind_eq_ok {len : Nat} {what : String} {f : Bytes → LinkM β} :
    (block base len what >>= f).run s = .ok r ↔
      ∃ bytes, slice? base s.position len = some bytes ∧
        (f bytes).run (s.linkage.placed (blockEnd base s.position len)) = .ok r := by
  rw [block, bind_assoc, run_get_bind, bind_assoc, run_liftM_bind_eq_ok]
  simp only [bytesAt_eq_ok]
  rfl

theorem run_objectType_bind_eq_ok {f : ElementType → LinkM β} :
    (objectType object >>= f).run s = .ok r ↔
      ∃ x, s.objects[object]? = some x ∧ (f x.type).run s = .ok r := by
  rw [objectType, bind_assoc, run_get_bind]
  dsimp only
  cases s.objects[object]? with
  | none => exact ⟨nofun, fun ⟨_, h, _⟩ => (nomatch h)⟩
  | some x => exact ⟨fun h => ⟨x, rfl, h⟩, fun ⟨_, hx, h⟩ => Option.some.inj hx ▸ h⟩

theorem run_setText_eq_ok :
    (setText object wrap bytes).run s = .ok ((), t) ↔
      t = (s.linkage.fillText object wrap bytes).placed s.position := by
  rw [setText, Linkage.fillText]
  by_cases hempty : bytes.isEmpty = true
  · rw [if_pos hempty, if_pos hempty, run_pure_eq_ok]
    exact ⟨And.right, fun h => ⟨rfl, h⟩⟩
  · rw [if_neg hempty, if_neg hempty]
    exact ⟨fun h => (congrArg Prod.snd (Except.ok.inj h)).symm, fun h => h ▸ rfl⟩

theorem run_setData_eq_ok {data : ObjectData} :
    (setData object data).run s = .ok ((), t) ↔
      t = (s.linkage.fill object data).placed s.position :=
  ⟨fun h => (congrArg Prod.snd (Except.ok.inj h)).symm, fun h => h ▸ rfl⟩

/-- The symbols of a shader are linked first, then those of its preshader. -/
theorem run_lowerShader :
    (lowerShader c bytes object technique pass).run s =
      (do
        let params ← liftM (linkSymbols c (s.linkage.lowered c object bytes).symbols)
        let preshaderParams ← liftM (linkSymbols c
          (preshaderSymbols (s.linkage.lowered c object bytes)))
        pure (linkedShader (s.linkage.lowered c object bytes) technique pass params
          preshaderParams) : LinkM ShaderObject).run
        ((s.linkage.lower c object bytes).placed s.position) := by
  rw [lowerShader, run_get_bind, preshaderSymbols]
  dsimp only [Linkage.lowered, Linkage.answer, LinkState.linkage]
  cases
    (s.cache.get c.profile { c.options with entry := entryName object } bytes).2.1.preshader with
  | none => rfl
  | some p => rfl

theorem run_lowerObject_eq_ok :
    (lowerShader c bytes object technique pass >>= fun o => setData object (.shader o)).run s =
        .ok ((), t) ↔
      ∃ params preshaderParams, Feeds c.params (s.linkage.lowered c object bytes).symbols params ∧
        Feeds c.params (preshaderSymbols (s.linkage.lowered c object bytes)) preshaderParams ∧
        t = ((s.linkage.lower c object bytes).fill object (.shader (linkedShader
          (s.linkage.lowered c object bytes) technique pass params preshaderParams))).placed
          s.position := by
  rw [run_bind_eq_ok, run_lowerShader]
  simp only [run_liftM_bind_eq_ok, linkSymbols_eq_ok, run_pure_eq_ok, run_setData_eq_ok]
  constructor
  · rintro ⟨o, u, ⟨params, hfeeds, preshaderParams, hpreshader, rfl, rfl⟩, ht⟩
    exact ⟨params, preshaderParams, hfeeds, hpreshader, ht⟩
  · rintro ⟨params, preshaderParams, hfeeds, hpreshader, ht⟩
    exact ⟨_, _, ⟨params, hfeeds, preshaderParams, hpreshader, rfl, rfl⟩, ht⟩

theorem run_smallObject_eq_ok :
    (smallObject base c).run s = .ok ((), t) ↔
      ∃ b next, smallBlock? base s.position = some (b, next) ∧
        ∃ k, Fills c s.linkage b k ∧ t = k.placed next := by
  simp only [smallObject, run_next_bind_eq_ok, run_block_bind_eq_ok, run_objectType_bind_eq_ok]
  constructor
  · rintro ⟨index, hindex, len, hlen, bytes, hbytes, x, hx, h⟩
    refine ⟨_, _, smallBlock?_eq_some.mpr ⟨index, len, bytes, hindex, hlen, hbytes, rfl, rfl⟩, ?_⟩
    split at h
    case isTrue htype => exact ⟨_, .string rfl hx htype, run_setText_eq_ok.mp h⟩
    case isFalse =>
      split at h
      case isTrue htype => exact ⟨_, .mapping rfl hx htype, run_setText_eq_ok.mp h⟩
      case isFalse =>
        split at h
        case isTrue htype =>
          obtain ⟨params, preshaderParams, hfeeds, hpreshader, ht⟩ := run_lowerObject_eq_ok.mp h
          exact ⟨_, .shader rfl hx htype rfl hfeeds hpreshader, ht⟩
        case isFalse => exact absurd h run_throw_ne_ok
  · rintro ⟨b, next, hblock, k, hfills, ht⟩
    obtain ⟨index, len, bytes, hindex, hlen, hbytes, rfl, rfl⟩ := smallBlock?_eq_some.mp hblock
    cases hfills with
    | string hb hx htype =>
      cases hb
      refine ⟨index, hindex, len, hlen, bytes, hbytes, _, hx, ?_⟩
      rw [if_pos htype]
      exact run_setText_eq_ok.mpr ht
    | mapping hfor hx htype =>
      cases hfor
      refine ⟨index, hindex, len, hlen, bytes, hbytes, _, hx, ?_⟩
      rw [if_neg (ne_of_mapped htype).1, if_pos htype]
      exact run_setText_eq_ok.mpr ht
    | shader hfor hx htype _ hfeeds hpreshader =>
      cases hfor
      obtain ⟨hstring, hmapped⟩ := ne_of_shader htype
      refine ⟨index, hindex, len, hlen, bytes, hbytes, _, hx, ?_⟩
      rw [if_neg hstring, if_neg hmapped, if_pos htype]
      exact run_lowerObject_eq_ok.mpr ⟨_, _, hfeeds, hpreshader, ht⟩
    | selector _ _ _ hselects => cases hselects
    | void hb => cases hb

theorem run_largeObject_eq_ok :
    (largeObject base c).run s = .ok ((), t) ↔
      ∃ b next, largeBlock? base s.position = some (b, next) ∧
        ∃ k, Fills c s.linkage b k ∧ t = k.placed next := by
  simp only [largeObject, run_next_bind_eq_ok, run_block_bind_eq_ok, run_liftM_bind_eq_ok,
    run_objectType_bind_eq_ok]
  constructor
  · rintro ⟨technique, htechnique, index, hindex, unused, hunused, state, hstate, kind, hkind, len,
      hlen, bytes, hbytes, object, hobject, x, hx, h⟩
    refine ⟨_, _, largeBlock?_eq_some.mpr ⟨technique, index, unused, state, kind, len, bytes,
      htechnique, hindex, hunused, hstate, hkind, hlen, hbytes, rfl, rfl⟩, ?_⟩
    split at h
    case isTrue htype =>
      split at h
      case isTrue hselects =>
        obtain ⟨o, hread, h⟩ := run_liftM_bind_eq_ok.mp h
        exact ⟨_, .selector hobject hx htype (beq_iff_eq.mpr hselects) hread,
          run_setData_eq_ok.mp h⟩
      case isFalse hselects =>
        obtain ⟨params, preshaderParams, hfeeds, hpreshader, ht⟩ := run_lowerObject_eq_ok.mp h
        exact ⟨_, .shader hobject hx htype (beq_eq_false_iff_ne.mpr hselects) hfeeds hpreshader, ht⟩
    case isFalse =>
      split at h
      case isTrue htype => exact ⟨_, .mapping hobject hx htype, run_setText_eq_ok.mp h⟩
      case isFalse =>
        split at h
        case isTrue => exact absurd h run_throw_ne_ok
        case isFalse hvoid =>
          exact ⟨_, .void rfl hobject hx (not_not.mp hvoid), (run_pure_eq_ok.mp h).2⟩
  · rintro ⟨b, next, hblock, k, hfills, ht⟩
    obtain ⟨technique, index, unused, state, kind, len, bytes, htechnique, hindex, hunused, hstate,
      hkind, hlen, hbytes, rfl, rfl⟩ := largeBlock?_eq_some.mp hblock
    refine ⟨technique, htechnique, index, hindex, unused, hunused, state, hstate, kind, hkind, len,
      hlen, bytes, hbytes, ?_⟩
    cases hfills with
    | string hb => cases hb
    | mapping hfor hx htype =>
      refine ⟨_, hfor, _, hx, ?_⟩
      rw [if_neg (ne_of_mapped htype).2, if_pos htype]
      exact run_setText_eq_ok.mpr ht
    | shader hfor hx htype hselects hfeeds hpreshader =>
      refine ⟨_, hfor, _, hx, ?_⟩
      rw [if_pos htype, if_neg (beq_eq_false_iff_ne.mp hselects)]
      exact run_lowerObject_eq_ok.mpr ⟨_, _, hfeeds, hpreshader, ht⟩
    | selector hfor hx htype hselects hread =>
      refine ⟨_, hfor, _, hx, ?_⟩
      rw [if_pos htype, if_pos (beq_iff_eq.mp hselects)]
      exact run_liftM_bind_eq_ok.mpr ⟨_, hread, run_setData_eq_ok.mpr ht⟩
    | void hb hfor hx htype =>
      refine ⟨_, hfor, _, hx, ?_⟩
      rw [htype]
      exact run_pure_eq_ok.mpr ⟨rfl, ht⟩

variable {m : LinkM Unit} {block? : Nat → Option (ObjectBlock × Nat)}

/-- Blocks that are read and fill their objects one at a time are listed before they do. -/
theorem run_times_eq_ok {count : Nat}
    (h : ∀ s t, m.run s = .ok ((), t) ↔ ∃ b next, block? s.position = some (b, next) ∧
      ∃ k, Fills c s.linkage b k ∧ t = k.placed next) :
    (times m count).run s = .ok ((), t) ↔
      ∃ bs last, blocks? block? count s.position = some (bs, last) ∧
        ∃ k, FillsAll c s.linkage bs k ∧ t = k.placed last := by
  induction count generalizing s with
  | zero =>
    rw [times, blocks?, run_pure_eq_ok]
    constructor
    · rintro ⟨-, rfl⟩
      exact ⟨[], _, rfl, _, .nil, rfl⟩
    · rintro ⟨bs, last, hlisted, k, hfills, ht⟩
      cases hlisted
      cases hfills
      exact ⟨rfl, ht⟩
  | succ count ih =>
    rw [times, run_then_eq_ok]
    constructor
    · rintro ⟨u, hfirst, hrest⟩
      obtain ⟨b, next, hblock, k, hfills, rfl⟩ := (h s u).mp hfirst
      obtain ⟨bs, last, hlisted, k', hfillsAll, ht⟩ := ih.mp hrest
      exact ⟨b :: bs, last, blocks?_succ_eq_some.mpr ⟨b, next, bs, hblock, hlisted, rfl⟩, k',
        .cons hfills hfillsAll, ht⟩
    · rintro ⟨bs, last, hlisted, k, hfills, ht⟩
      obtain ⟨b, next, bs, hblock, hblocks, rfl⟩ := blocks?_succ_eq_some.mp hlisted
      obtain _ | ⟨hfirst, hrest⟩ := hfills
      exact ⟨_, (h s _).mpr ⟨b, next, hblock, _, hfirst, rfl⟩,
        ih.mpr ⟨bs, last, hblocks, k, hrest, ht⟩⟩

/-- Both lists of objects are read exactly if their blocks can be listed and fill their objects. -/
theorem run_objects_eq_ok {small large : Nat} :
    (objects base c small large).run s = .ok ((), t) ↔
      ∃ bs last, objectBlocks? base small large s.position = some (bs, last) ∧
        ∃ k, FillsAll c s.linkage bs k ∧ t = k.placed last := by
  rw [objects, run_then_eq_ok]
  constructor
  · rintro ⟨u, hsmall, hlarge⟩
    obtain ⟨ss, next, hss, k, hfills, rfl⟩ :=
      (run_times_eq_ok fun _ _ => run_smallObject_eq_ok).mp hsmall
    obtain ⟨ls, last, hls, k', hfills', ht⟩ :=
      (run_times_eq_ok fun _ _ => run_largeObject_eq_ok).mp hlarge
    exact ⟨ss ++ ls, last, objectBlocks?_eq_some.mpr ⟨ss, ls, next, hss, hls, rfl⟩, k',
      fillsAll_append.mpr ⟨k, hfills, hfills'⟩, ht⟩
  · rintro ⟨bs, last, hlisted, k, hfills, ht⟩
    obtain ⟨ss, ls, next, hss, hls, rfl⟩ := objectBlocks?_eq_some.mp hlisted
    obtain ⟨k', hfills, hfills'⟩ := fillsAll_append.mp hfills
    exact ⟨_, (run_times_eq_ok fun _ _ => run_smallObject_eq_ok).mpr ⟨ss, next, hss, k', hfills,
      rfl⟩, (run_times_eq_ok fun _ _ => run_largeObject_eq_ok).mpr ⟨ls, last, hls, k, hfills', ht⟩⟩

end LinkM

/-! ### Effects -/

def Contents.unlinked (c : Contents) : Linkage := ⟨c.objects, default, []⟩

theorem Contents.size_objects (c : Contents) : c.objects.size = c.objectCount := by
  rw [objects, Array.size_map, size_record, Array.size_replicate]

/-- An effect is read exactly if its table stands in the container, the blocks behind the table can
be listed, and they fill the objects. -/
theorem ofBytes_eq_ok_iff {profile : Profile} {options : Options} {e : Effect} :
    ofBytes bytes profile options = .ok e ↔
      ∃ start offset c bs last k, ContainerAt bytes start offset ∧
        ContentsAt (baseOf bytes start) offset c ∧
        objectBlocks? (baseOf bytes start) c.smallCount c.largeCount (c.listsAt offset + 8) =
          some (bs, last) ∧
        FillsAll (c.context profile options) c.unlinked bs k ∧
        e = c.effect profile (k.placed last) := by
  rw [ofBytes, bind_eq_ok]
  constructor
  · rintro ⟨⟨effect, cache⟩, h, he⟩
    cases he
    obtain ⟨start, offset, c, linked, hcontainer, hc, hlinked, rfl, -⟩ := ofBytesCached_eq_ok.mp h
    obtain ⟨bs, last, hblocks, k, hfills, rfl⟩ := LinkM.run_objects_eq_ok.mp hlinked
    exact ⟨start, offset, c, bs, last, k, hcontainer, hc, hblocks, hfills, rfl⟩
  · rintro ⟨start, offset, c, bs, last, k, hcontainer, hc, hblocks, hfills, rfl⟩
    exact ⟨_, ofBytesCached_eq_ok.mpr ⟨start, offset, c, k.placed last, hcontainer, hc,
      LinkM.run_objects_eq_ok.mpr ⟨bs, last, hblocks, k, hfills, rfl⟩, rfl, rfl⟩, rfl⟩

end ShaderPipeline.Effect
