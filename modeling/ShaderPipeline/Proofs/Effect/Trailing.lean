import ShaderPipeline.Proofs.Effect.Blocks
import ShaderPipeline.Proofs.Effect.Members

/-!
# Bytes behind a container

What stands in a container still stands there when bytes are added behind it, so an effect that can
be read is the same effect with anything behind it. Only the end of the last block may move: its
filling may be missing at the end of a container, and no block can be read behind such a block.

A file that was cut short is then read as the whole file would be, or not at all.
-/

namespace ShaderPipeline.Effect

open Array

variable {bytes : Bytes} {text : Option String} {words : List Word} {r : ObjectBlock × Nat}
  {bs : List ObjectBlock} {start : Nat}

variable {base more : Bytes} {offset n : Nat} {info info' : TypeInfo}

/-! ### Numbers, bytes and texts -/

theorem getElem?_append {a : UInt8} (h : base[n]? = some a) : (base ++ more)[n]? = some a := by
  rwa [getElem?_append_left (Array.getElem?_eq_some_iff.mp h).1]

theorem wordAt?_append {w : Word} (h : wordAt? base offset = some w) :
    wordAt? (base ++ more) offset = some w := by
  simp only [wordAt?, bind, Option.bind_eq_some_iff] at h ⊢
  obtain ⟨a, ha, b, hb, c, hc, d, hd, hw⟩ := h
  exact ⟨a, getElem?_append ha, b, getElem?_append hb, c, getElem?_append hc, d,
    getElem?_append hd, hw⟩

theorem number?_append (h : number? base offset = some n) :
    number? (base ++ more) offset = some n := by
  obtain ⟨w, hw, hn⟩ := Option.map_eq_some_iff.mp h
  exact Option.map_eq_some_iff.mpr ⟨w, wordAt?_append hw, hn⟩

theorem slice?_append {len : Nat} (h : slice? base offset len = some bytes) :
    slice? (base ++ more) offset len = some bytes := by
  rw [slice?] at h ⊢
  split at h
  case isTrue hlen =>
    rw [if_pos (by rw [size_append]; omega)]
    rwa [extract_append, Nat.sub_eq_zero_of_le hlen, extract_zero, append_empty]
  case isFalse => cases h

theorem stringAt_append (h : stringAt base offset = .ok text) :
    stringAt (base ++ more) offset = .ok text := by
  rw [stringAt] at h ⊢
  obtain ⟨len, hlen, h⟩ := bind_eq_ok.mp h
  refine bind_eq_ok.mpr ⟨len, numberAt_eq_ok.mpr (number?_append (numberAt_eq_ok.mp hlen)), ?_⟩
  by_cases hzero : len = 0
  · rwa [if_pos hzero] at h ⊢
  · rw [if_neg hzero] at h ⊢
    obtain ⟨bytes, hbytes, h⟩ := bind_eq_ok.mp h
    exact bind_eq_ok.mpr
      ⟨bytes, bytesAt_eq_ok.mpr (slice?_append (bytesAt_eq_ok.mp hbytes)), h⟩

theorem TextRefAt.append (h : TextRefAt base offset text) :
    TextRefAt (base ++ more) offset text := by
  obtain ⟨textAt, hnumber, htext⟩ := h
  exact ⟨textAt, number?_append hnumber, stringAt_append htext⟩

/-! ### Rows and structures -/

theorem exists_wordAt? (h : offset + 4 ≤ base.size) : ∃ w, wordAt? base offset = some w := by
  have hget : ∀ k < 4, ∃ a, base[offset + k]? = some a :=
    fun k hk => ⟨_, getElem?_eq_getElem (by omega)⟩
  obtain ⟨a, ha⟩ := hget 0 (by decide)
  obtain ⟨b, hb⟩ := hget 1 (by decide)
  obtain ⟨c, hc⟩ := hget 2 (by decide)
  obtain ⟨d, hd⟩ := hget 3 (by decide)
  rw [Nat.add_zero] at ha
  exact ⟨wordOfBytes a b c d, by rw [wordAt?, ha, hb, hc, hd]; rfl⟩

theorem rowAt_append {columns : Nat} (h : offset + 4 * columns ≤ base.size) :
    rowAt (base ++ more) offset columns = rowAt base offset columns := by
  refine List.map_congr_left fun k _ => ?_
  by_cases hk : k < columns
  · obtain ⟨w, hw⟩ : ∃ w, wordAt? base (offset + 4 * k) = some w := exists_wordAt? (by omega)
    rw [if_pos hk, if_pos hk, hw, wordAt?_append hw]
  · rw [if_neg hk, if_neg hk]

theorem rowsFrom_append {rows : List Nat} (h : offset + 4 * rows.sum ≤ base.size) :
    rowsFrom (base ++ more) offset rows [] = rowsFrom base offset rows [] := by
  induction rows generalizing offset with
  | nil => rfl
  | cons columns rest ih =>
    rw [List.sum_cons] at h
    rw [rowsFrom_cons, rowsFrom_cons, rowAt_append (by omega), ih (by omega)]

theorem readRows_append {rows : List Nat} {what : String}
    (h : readRows base offset rows what = .ok words) :
    readRows (base ++ more) offset rows what = .ok words := by
  obtain ⟨hroom, rfl⟩ := readRows_eq_ok.mp h
  refine readRows_eq_ok.mpr ⟨fun hrows => ?_, ?_⟩
  · have := hroom hrows
    rw [size_append]
    omega
  · by_cases hrows : rows = []
    · rw [hrows]
      rfl
    · rw [rowsFrom_append (hroom hrows)]

theorem ListedAt.mono {α : Type} {At At' : Nat → α → Prop} {size : α → Nat} {l : List α}
    (hmono : ∀ position a, At position a → At' position a) {position : Nat}
    (h : ListedAt At size position l) : ListedAt At' size position l := by
  induction l generalizing position with
  | nil => trivial
  | cons a l ih => exact ⟨hmono position a h.1, ih h.2⟩

theorem MemberAt.append {m : Member} (h : MemberAt base offset m) :
    MemberAt (base ++ more) offset m := by
  obtain ⟨code, hcode, helem⟩ := h.elem
  obtain ⟨clsCode, hclsCode, hcls⟩ := h.cls
  obtain ⟨text, htext, hname⟩ := h.name
  exact {
    elem := ⟨code, number?_append hcode, helem⟩
    cls := ⟨clsCode, number?_append hclsCode, hcls⟩
    name := ⟨text, htext.append, hname⟩
    elements := number?_append h.elements
    columns := number?_append h.columns
    rows := number?_append h.rows
    plain := h.plain
    small := h.small }

theorem readStruct_append (h : readStruct base info offset = .ok (info', words)) :
    readStruct (base ++ more) info offset = .ok (info', words) := by
  obtain ⟨ms, hcount, hlisted, hfits, hwords, hinfo⟩ := readStruct_eq_ok.mp h
  exact readStruct_eq_ok.mpr ⟨ms, number?_append hcount, hlisted.mono fun _ _ hm => hm.append,
    hfits, readRows_append hwords, hinfo⟩

/-! ### Values -/

theorem HeadAt.append {h : Head} (hhead : HeadAt base offset h) :
    HeadAt (base ++ more) offset h := by
  obtain ⟨clsCode, hclsCode, hcls⟩ := hhead.cls
  exact {
    code := number?_append hhead.code
    cls := ⟨clsCode, number?_append hclsCode, hcls⟩
    name := hhead.name.append
    semantic := hhead.semantic.append
    elements := number?_append hhead.elements }

theorem StatesAt.append {Values Values' : (typeAt valueAt : Nat) → Value → Prop}
    (hvalues : ∀ typeAt valueAt v, Values typeAt valueAt v → Values' typeAt valueAt v)
    {ss : List State} (h : StatesAt base Values offset ss) :
    StatesAt (base ++ more) Values' offset ss := by
  induction h with
  | nil => exact .nil
  | cons codeAt typeRef valueRef value texture _ ih =>
    exact .cons (wordAt?_append codeAt) (number?_append typeRef) (number?_append valueRef)
      (hvalues _ _ _ value) texture ih

theorem DataAt.append {typeAt valueAt code : Nat} {States States' : List State → Prop}
    (hstates : ∀ ss, States ss → States' ss) {data : ValueData}
    (h : DataAt base typeAt valueAt code info States info' data) :
    DataAt (base ++ more) typeAt valueAt code info States' info' data := by
  cases h with
  | numeric cls elem columnsAt rowsAt size narrow wordsAt =>
    exact .numeric cls elem (number?_append columnsAt) (number?_append rowsAt) size narrow
      (readRows_append wordsAt)
  | struct cls structAt => exact .struct cls (readStruct_append structAt)
  | objects cls elem lower upper indicesAt =>
    exact .objects cls elem lower upper (slice?_append indicesAt)
  | states cls elem statesAt => exact .states cls elem (hstates _ statesAt)

/-- A value still stands in a container when bytes are added behind it. -/
theorem ValueAt.append {levels typeAt valueAt : Nat} {v : Value}
    (h : ValueAt base levels typeAt valueAt v) :
    ValueAt (base ++ more) levels typeAt valueAt v := by
  induction levels generalizing typeAt valueAt v with
  | zero => exact h
  | succ levels ih =>
    obtain ⟨head, hhead, hname, hsemantic, hdata⟩ := h
    refine ⟨head, hhead.append, hname, hsemantic, hdata.append fun ss hss => ?_⟩
    exact ⟨number?_append hss.1, hss.2.append fun _ _ _ hvalue => ih hvalue⟩

/-! ### The table of contents -/

theorem ReferredAt.append {v : Value} (h : ReferredAt base offset v) :
    ReferredAt (base ++ more) offset v := by
  obtain ⟨typeAt, valueAt, htypeAt, hvalueAt, hvalue⟩ := h
  exact ⟨typeAt, valueAt, number?_append htypeAt, number?_append hvalueAt, hvalue.append⟩

theorem AnnotationsAt.append {vs : List Value} (h : AnnotationsAt base offset vs) :
    AnnotationsAt (base ++ more) offset vs :=
  ListedAt.mono (fun _ _ hvalue => hvalue.append) h

theorem ParamAt.append {p : Param} (h : ParamAt base offset p) :
    ParamAt (base ++ more) offset p where
  value := h.value.append
  flags := h.flags.imp fun _ hflags => number?_append hflags
  count := number?_append h.count
  annotations := h.annotations.append

theorem PassStateAt.append {s : State} (h : PassStateAt base offset s) :
    PassStateAt (base ++ more) offset s where
  code := number?_append h.code
  unused := h.unused.imp fun _ hunused => number?_append hunused
  value := h.value.append

theorem PassAt.append {p : Pass} (h : PassAt base offset p) : PassAt (base ++ more) offset p where
  name := h.name.append
  annotationCount := number?_append h.annotationCount
  stateCount := number?_append h.stateCount
  annotations := h.annotations.append
  states := h.states.mono fun _ _ hs => hs.append

theorem TechniqueAt.append {t : Technique} (h : TechniqueAt base offset t) :
    TechniqueAt (base ++ more) offset t where
  name := h.name.append
  annotationCount := number?_append h.annotationCount
  passCount := number?_append h.passCount
  annotations := h.annotations.append
  passes := h.passes.mono fun _ _ hp => hp.append

/-- A table of contents still stands in a container when bytes are added behind it. -/
theorem ContentsAt.append {c : Contents} (h : ContentsAt base offset c) :
    ContentsAt (base ++ more) offset c where
  paramCount := number?_append h.paramCount
  techniqueCount := number?_append h.techniqueCount
  unused := h.unused.imp fun _ hunused => number?_append hunused
  objectCount := number?_append h.objectCount
  few := h.few
  room := by
    have hroom := h.room
    rw [size_append]
    omega
  params := h.params.mono fun _ _ hp => hp.append
  techniques := h.techniques.mono fun _ _ ht => ht.append
  typed := h.typed
  smallCount := number?_append h.smallCount
  largeCount := number?_append h.largeCount

/-! ### Blocks -/

def SameEnd (base : Bytes) (last last' : Nat) : Prop := last' = last ∨ base.size ≤ last

theorem sameEnd_blockEnd {len : Nat} :
    SameEnd base (blockEnd base offset len) (blockEnd (base ++ more) offset len) := by
  rw [SameEnd, blockEnd, blockEnd, size_append]
  omega

theorem smallBlock?_append {b : ObjectBlock} {next : Nat} (more : Bytes)
    (h : smallBlock? base offset = some (b, next)) :
    ∃ next', smallBlock? (base ++ more) offset = some (b, next') ∧ SameEnd base next next' := by
  obtain ⟨index, len, bytes, hindex, hlen, hbytes, rfl, rfl⟩ := smallBlock?_eq_some.mp h
  exact ⟨_, smallBlock?_eq_some.mpr ⟨index, len, bytes, number?_append hindex, number?_append hlen,
    slice?_append hbytes, rfl, rfl⟩, sameEnd_blockEnd⟩

theorem largeBlock?_append {b : ObjectBlock} {next : Nat} (more : Bytes)
    (h : largeBlock? base offset = some (b, next)) :
    ∃ next', largeBlock? (base ++ more) offset = some (b, next') ∧ SameEnd base next next' := by
  obtain ⟨technique, index, unused, state, kind, len, bytes, htechnique, hindex, hunused, hstate,
    hkind, hlen, hbytes, rfl, rfl⟩ := largeBlock?_eq_some.mp h
  exact ⟨_, largeBlock?_eq_some.mpr ⟨technique, index, unused, state, kind, len, bytes,
    number?_append htechnique, number?_append hindex, number?_append hunused, number?_append hstate,
    number?_append hkind, number?_append hlen, slice?_append hbytes, rfl, rfl⟩, sameEnd_blockEnd⟩

theorem lt_size_of_smallBlock? (h : smallBlock? base offset = some r) : offset < base.size := by
  obtain ⟨index, -, -, hindex, -⟩ := smallBlock?_eq_some.mp h
  have := le_size_of_number? hindex
  omega

theorem lt_size_of_largeBlock? (h : largeBlock? base offset = some r) : offset < base.size := by
  obtain ⟨technique, -, -, -, -, -, -, htechnique, -⟩ := largeBlock?_eq_some.mp h
  have := le_size_of_number? htechnique
  omega

/-- The blocks stay the same. A block that ended the container was the last one, since no block
starts at the end. -/
theorem blocks?_append {block? block?' : Nat → Option (ObjectBlock × Nat)}
    (hinside : ∀ offset r, block? offset = some r → offset < base.size)
    (hblock : ∀ offset b next, block? offset = some (b, next) →
      ∃ next', block?' offset = some (b, next') ∧ SameEnd base next next')
    {count offset' last : Nat} (hstart : SameEnd base offset offset')
    (h : blocks? block? count offset = some (bs, last)) :
    ∃ last', blocks? block?' count offset' = some (bs, last') ∧ SameEnd base last last' := by
  induction count generalizing offset offset' bs with
  | zero =>
    cases h
    exact ⟨offset', rfl, hstart⟩
  | succ count ih =>
    obtain ⟨b, next, rest, hfirst, hrest, rfl⟩ := blocks?_succ_eq_some.mp h
    obtain rfl : offset' = offset :=
      hstart.resolve_right (Nat.not_le.mpr (hinside offset _ hfirst))
    obtain ⟨next', hfirst', hend⟩ := hblock offset' b next hfirst
    obtain ⟨last', hrest', hlast⟩ := ih hend hrest
    exact ⟨last', blocks?_succ_eq_some.mpr ⟨b, next', rest, hfirst', hrest', rfl⟩, hlast⟩

theorem objectBlocks?_append {small large last : Nat} (more : Bytes)
    (h : objectBlocks? base small large offset = some (bs, last)) :
    ∃ last', objectBlocks? (base ++ more) small large offset = some (bs, last') := by
  obtain ⟨ss, ls, next, hss, hls, rfl⟩ := objectBlocks?_eq_some.mp h
  obtain ⟨next', hss', hend⟩ := blocks?_append (fun _ _ => lt_size_of_smallBlock?)
    (fun _ _ _ => smallBlock?_append more) (.inl rfl) hss
  obtain ⟨last', hls', -⟩ := blocks?_append (fun _ _ => lt_size_of_largeBlock?)
    (fun _ _ _ => largeBlock?_append more) hend hls
  exact ⟨last', objectBlocks?_eq_some.mpr ⟨ss, ls, next', hss', hls', rfl⟩⟩

/-! ### Containers -/

theorem containerStart_append (h : containerStart bytes = .ok start) :
    containerStart (bytes ++ more) = .ok start := by
  rw [containerStart] at h ⊢
  obtain ⟨hsize, h⟩ := check_eq_ok.mp h
  refine check_eq_ok.mpr ⟨by rw [size_append]; omega, ?_⟩
  obtain ⟨word, hword, h⟩ := bind_eq_ok.mp h
  refine bind_eq_ok.mpr ⟨word, numberAt_eq_ok.mpr (number?_append (numberAt_eq_ok.mp hword)), ?_⟩
  by_cases hmagic : word ≠ preambleMagic
  · rwa [if_pos hmagic] at h ⊢
  · rw [if_neg hmagic] at h ⊢
    obtain ⟨size, hpreamble, h⟩ := bind_eq_ok.mp h
    obtain ⟨hsmall, h⟩ := check_eq_ok.mp h
    obtain ⟨hroom, h⟩ := check_eq_ok.mp h
    refine bind_eq_ok.mpr
      ⟨size, numberAt_eq_ok.mpr (number?_append (numberAt_eq_ok.mp hpreamble)), ?_⟩
    refine check_eq_ok.mpr ⟨hsmall, check_eq_ok.mpr ⟨by rw [size_append]; omega, h⟩⟩

theorem baseOf_append (h : start + 8 ≤ bytes.size) :
    baseOf (bytes ++ more) start = baseOf bytes start ++ more := by
  rw [baseOf, baseOf, extract_append, size_append, Nat.sub_eq_zero_of_le h,
    Nat.add_sub_cancel_left, extract_size]
  exact congrArg (· ++ more) (extract_eq_extract_right.mpr (by omega))

theorem ContainerAt.append (h : ContainerAt bytes start offset) (more : Bytes) :
    baseOf (bytes ++ more) start = baseOf bytes start ++ more ∧
      ContainerAt (bytes ++ more) start offset := by
  have hbase : baseOf (bytes ++ more) start = baseOf bytes start ++ more := by
    have := le_size_of_number? h.offsetAt
    exact baseOf_append (by omega)
  refine ⟨hbase, containerStart_append h.startsAt, number?_append h.magicAt,
    number?_append h.offsetAt, ?_⟩
  have hroom := h.room
  rw [hbase, size_append]
  omega

variable {bytes : Bytes} {profile : Profile} {options : Options} {e : Effect}

/-- An effect is read as before when bytes are added. -/
theorem ofBytes_append (more : Bytes) (h : ofBytes bytes profile options = .ok e) :
    ofBytes (bytes ++ more) profile options = .ok e := by
  obtain ⟨start, offset, c, bs, last, k, hcontainer, hc, hblocks, hfills, rfl⟩ :=
    ofBytes_eq_ok_iff.mp h
  obtain ⟨hbase, hcontainer⟩ := hcontainer.append more
  obtain ⟨last', hblocks⟩ := objectBlocks?_append more hblocks
  refine ofBytes_eq_ok_iff.mpr ⟨start, offset, c, bs, last', k, hcontainer, ?_, ?_, hfills, rfl⟩
  · rw [hbase]
    exact hc.append
  · rw [hbase]
    exact hblocks

/-- Bytes behind a container that can be read change nothing, so a part of a file from its start on
cannot be read or is read as the whole file. -/
theorem ofBytes_trailing (bytes : Bytes) (profile : Profile) (options : Options) :
    (∀ e more, ofBytes bytes profile options = .ok e →
      ofBytes (bytes ++ more) profile options = .ok e) ∧
    ∀ n, (∃ x, ofBytes (bytes.extract 0 n) profile options = .error x) ∨
      ofBytes (bytes.extract 0 n) profile options = ofBytes bytes profile options := by
  refine ⟨fun e more h => ofBytes_append more h, fun n => ?_⟩
  cases h : ofBytes (bytes.extract 0 n) profile options with
  | error x => exact .inl ⟨x, rfl⟩
  | ok e =>
    have hwhole : bytes.extract 0 n ++ bytes.extract n bytes.size = bytes := by
      rw [Array.extract_append_extract, Nat.zero_min,
        Array.extract_eq_self_of_le (Nat.le_max_right _ _)]
    have hread := ofBytes_append (bytes.extract n bytes.size) h
    rw [hwhole] at hread
    exact .inr hread.symm

/-- A container with one parameter, a string, whose block ends the container without its filling. -/
def unfilledString : Bytes :=
  (numberBytes [magic, 28, 0, ElementType.string.code, TypeClass.object.code, 0, 0, 0, 0,
    1, 0, 0, 1, 4, 24, 0, 0, 1, 0, 0, 1] ++ [97]).toArray

theorem ofBytes_trailing_filled :
    ∃ e, ofBytes unfilledString .glsl default = .ok e ∧
      e.objects = #[⟨.string, .string "a"⟩] ∧
      ofBytes (unfilledString ++ #[0, 0, 0]) .glsl default = .ok e ∧
      ofBytes ((unfilledString ++ #[0, 0, 0]).extract 0 86) .glsl default = .ok e := by
  let v : Value := ⟨none, none, ⟨.object, .string, 0, 0, 0, []⟩, .objects [0]⟩
  let e : Effect := ⟨.glsl, [], [⟨v, []⟩], [], #[⟨.string, .string "a"⟩], none, none⟩
  have hread : ofBytes unfilledString .glsl default = .ok e := by decide +kernel
  have hfilled : ofBytes (unfilledString ++ #[0, 0, 0]) .glsl default = .ok e :=
    (ofBytes_trailing unfilledString .glsl default).1 e #[0, 0, 0] hread
  have hcut :
      (ofBytes ((unfilledString ++ #[0, 0, 0]).extract 0 86) .glsl default).isOk = true := by
    decide +kernel
  refine ⟨e, hread, rfl, hfilled, ?_⟩
  rcases (ofBytes_trailing (unfilledString ++ #[0, 0, 0]) .glsl default).2 86 with ⟨x, hx⟩ | hsame
  · rw [hx] at hcut
    exact nomatch hcut
  · rw [hsame, hfilled]

end ShaderPipeline.Effect
