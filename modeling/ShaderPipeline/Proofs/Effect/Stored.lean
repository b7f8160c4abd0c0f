import ShaderPipeline.Proofs.Effect.Parts
import ShaderPipeline.Proofs.Outcomes

/-!
# Values as they stand in a container

A reader succeeds exactly if each of its steps does, so its success can be said without it: a value
stands in a container if its type, its data and the values of its states do. A value is read exactly
if it stands there and every object that it gives a type exists.
-/

namespace ShaderPipeline.Effect

open ReaderState List

variable {type elem : ElementType} {States : List State → Prop}

variable {base : Bytes} {offset n : Nat}

/-! ### Types given to objects -/

namespace ReaderState

/-- A reader moved over `n` bytes and gave types to objects, all of which exist. -/
def Passes (s : ReaderState) (n : Nat) (typed : List (Nat × ElementType)) (t : ReaderState) :
    Prop :=
  (∀ x ∈ typed, x.1 < s.types.size) ∧ t = ⟨s.position + n, record s.types typed⟩

variable {s t u : ReaderState} {m n : Nat} {xs ys : List (Nat × ElementType)}

@[simp] theorem passes_nil : s.Passes 0 [] t ↔ t = s :=
  ⟨And.right, fun h => ⟨nofun, h⟩⟩

theorem Passes.trans (h : s.Passes m xs t) (h' : t.Passes n ys u) :
    s.Passes (m + n) (xs ++ ys) u := by
  obtain ⟨hxs, rfl⟩ := h
  obtain ⟨hys, rfl⟩ := h'
  rw [size_record] at hys
  refine ⟨forall_mem_append.mpr ⟨hxs, hys⟩, ?_⟩
  rw [record_append, Nat.add_assoc]

/-- Types that are given without a move. -/
theorem still_append : s.Passes 0 (xs ++ ys) u ↔ ∃ t, s.Passes 0 xs t ∧ t.Passes 0 ys u := by
  refine ⟨fun ⟨htyped, hu⟩ => ?_, fun ⟨t, h, h'⟩ => h.trans h'⟩
  obtain ⟨hxs, hys⟩ := forall_mem_append.mp htyped
  refine ⟨_, ⟨hxs, rfl⟩, ?_, ?_⟩
  · rw [size_record]
    exact hys
  · rw [hu, record_append]
    rfl

end ReaderState

namespace ReaderM

variable {s t : ReaderState}

theorem run_typeObject_eq_ok :
    (typeObject n type).run s = .ok ((), t) ↔ s.Passes 0 [(n, type)] t := by
  rw [typeObject, run_get_bind]
  by_cases hn : n < s.types.size
  · rw [if_pos hn]
    refine ⟨fun h => ?_, fun ⟨_, ht⟩ => ht ▸ rfl⟩
    cases h
    exact ⟨fun x hx => mem_singleton.mp hx ▸ hn, rfl⟩
  · rw [if_neg hn]
    exact ⟨nofun, fun ⟨h, _⟩ => absurd (h _ mem_cons_self) hn⟩

theorem run_typeObjects_eq_ok {ws : List Word} :
    (typeObjects type ws).run s = .ok ((), t) ↔
      s.Passes 0 (ws.map fun w => (w.toNat, type)) t := by
  induction ws generalizing s with
  | nil =>
    rw [typeObjects, map_nil, passes_nil]
    exact run_pure_eq_ok.trans ⟨And.right, fun h => ⟨rfl, h⟩⟩
  | cons w ws ih =>
    rw [typeObjects, run_then_eq_ok, map_cons, ← singleton_append, still_append]
    simp only [run_typeObject_eq_ok, ih]

end ReaderM

/-! ### Values -/

/-- The front of a type. -/
structure Head where
  code : Nat
  cls : TypeClass
  name : Option String
  semantic : Option String
  elements : Nat

/-- The type before its dimensions are known. -/
def Head.info (h : Head) : TypeInfo := ⟨h.cls, .ofCode h.code, 0, 0, h.elements, []⟩

def TextRefAt (base : Bytes) (offset : Nat) (text : Option String) : Prop :=
  ∃ textAt, number? base offset = some textAt ∧ stringAt base textAt = .ok text

/-- A type starts at an offset. -/
structure HeadAt (base : Bytes) (typeAt : Nat) (h : Head) : Prop where
  code : number? base typeAt = some h.code
  cls : ∃ n, number? base (typeAt + 4) = some n ∧ TypeClass.ofCode? n = some h.cls
  name : TextRefAt base (typeAt + 8) h.name
  semantic : TextRefAt base (typeAt + 12) h.semantic
  elements : number? base (typeAt + 16) = some h.elements

/-- The states of a sampler stand at an offset; `Values` says which values stand where. -/
inductive StatesAt (base : Bytes) (Values : (typeAt valueAt : Nat) → Value → Prop) :
    (offset : Nat) → List State → Prop
  | nil {offset : Nat} : StatesAt base Values offset []
  | cons {offset typeAt valueAt : Nat} {w : Word} {v : Value} {ss : List State}
      (codeAt : wordAt? base offset = some w)
      (typeRef : number? base (offset + 8) = some typeAt)
      (valueRef : number? base (offset + 12) = some valueAt)
      (value : Values typeAt valueAt v)
      (texture : ReaderM.samplerStateCode w = textureState → v.firstWord? ≠ none)
      (rest : StatesAt base Values (offset + 16) ss) :
      StatesAt base Values offset (⟨ReaderM.samplerStateCode w, v⟩ :: ss)

/-- The data of a value, and with them its full type. `States` says which states a sampler has. -/
inductive DataAt (base : Bytes) (typeAt valueAt code : Nat) (info : TypeInfo)
    (States : List State → Prop) : TypeInfo → ValueData → Prop
  | numeric {rows columns n : Nat} {words : List Word}
      (cls : info.cls.isNumeric = true) (elem : info.elem.isNumeric = true)
      (columnsAt : number? base (typeAt + 20) = some columns)
      (rowsAt : number? base (typeAt + 24) = some rows)
      (size : valueWords rows info.elements = .ok n) (narrow : columns ≤ 4)
      (wordsAt : readRows base valueAt (List.replicate (n / 4) columns) "value data" = .ok words) :
      DataAt base typeAt valueAt code info States { info with rows, columns } (.registers words)
  | struct {info' : TypeInfo} {words : List Word} (cls : info.cls = .struct)
      (structAt : readStruct base info (typeAt + 20) = .ok (info', words)) :
      DataAt base typeAt valueAt code info States info' (.registers words)
  | objects {bytes : Bytes} (cls : info.cls = .object) (elem : info.elem.isSampler = false)
      (lower : ElementType.string.code ≤ code) (upper : code ≤ ElementType.vertexShader.code)
      (indicesAt : slice? base valueAt (max info.elements 1 * 4) = some bytes) :
      DataAt base typeAt valueAt code info States info (.objects (wordsOfBytes bytes.toList))
  | states {ss : List State} (cls : info.cls = .object) (elem : info.elem.isSampler = true)
      (statesAt : States ss) :
      DataAt base typeAt valueAt code info States info (.states ss)

/-- A value stands at two offsets, with at most `levels` levels of values. -/
def ValueAt (base : Bytes) : (levels typeAt valueAt : Nat) → Value → Prop
  | 0, _, _, _ => False
  | levels + 1, typeAt, valueAt, v =>
    ∃ h : Head, HeadAt base typeAt h ∧ v.name = h.name ∧ v.semantic = h.semantic ∧
      DataAt base typeAt valueAt h.code h.info
        (fun ss => number? base valueAt = some ss.length ∧
          StatesAt base (ValueAt base levels) (valueAt + 4) ss) v.info v.data

variable {info info' : TypeInfo}

theorem elem_readStruct {words : List Word} (h : readStruct base info offset = .ok (info', words)) :
    info'.elem = info.elem := by
  rw [readStruct, bind_eq_ok] at h
  obtain ⟨count, -, h⟩ := h
  obtain ⟨⟨members, size, dataAt⟩, -, h⟩ := bind_eq_ok.mp h
  dsimp only at h
  split at h
  · exact nomatch h
  · obtain ⟨words, -, h⟩ := bind_eq_ok.mp h
    cases h
    rfl

theorem DataAt.elem_eq {typeAt valueAt code : Nat} {data : ValueData}
    (h : DataAt base typeAt valueAt code info States info' data) : info'.elem = info.elem := by
  cases h with
  | numeric | objects | states => rfl
  | struct _ structAt => exact elem_readStruct structAt

namespace ReaderM

variable {s t : ReaderState}

theorem run_stateTexture_eq_ok {code : Nat} {v : Value} {α : Type} {m : ReaderM α}
    {r : α × ReaderState} :
    (if code = textureState then
        match v.firstWord? with
        | none => throw (.malformed .textureWithoutValue) >>= fun _ : Unit => m
        | some w => typeObject w.toNat type >>= fun _ => m
      else m).run s = .ok r ↔
    (code = textureState → v.firstWord? ≠ none) ∧
      ∃ t, s.Passes 0 (if code = textureState then
          (v.firstWord?.map fun w => (w.toNat, type)).toList else []) t ∧ m.run t = .ok r := by
  by_cases hcode : code = textureState
  · rw [if_pos hcode, if_pos hcode]
    cases v.firstWord? with
    | none => exact ⟨nofun, fun h => absurd rfl (h.1 hcode)⟩
    | some w =>
      simp only [run_then_eq_ok, run_typeObject_eq_ok]
      exact ⟨fun h => ⟨fun _ => nofun, h⟩, And.right⟩
  · simp only [if_neg hcode, passes_nil, exists_eq_left]
    exact ⟨fun h => ⟨fun hc => absurd hc hcode, h⟩, And.right⟩

theorem run_samplerStates_eq_ok {readValue : (typeAt valueAt : Nat) → ReaderM Value}
    {Values : (typeAt valueAt : Nat) → Value → Prop}
    (hvalues : ∀ typeAt valueAt s v t, (readValue typeAt valueAt).run s = .ok (v, t) ↔
      Values typeAt valueAt v ∧ s.Passes 0 v.typed t) {count : Nat} {ss : List State} :
    (samplerStates base elem readValue count offset).run s = .ok (ss, t) ↔
      ss.length = count ∧ StatesAt base Values offset ss ∧ s.Passes 0 (State.typed elem ss) t := by
  induction count generalizing offset s ss with
  | zero =>
    rw [samplerStates, run_pure_eq_ok]
    constructor
    · rintro ⟨rfl, rfl⟩
      exact ⟨rfl, .nil, passes_nil.mpr rfl⟩
    · rintro ⟨hlength, -, htyped⟩
      obtain rfl := eq_nil_of_length_eq_zero hlength
      exact ⟨rfl, passes_nil.mp htyped⟩
  | succ count ih =>
    simp only [samplerStates, run_liftM_bind_eq_ok, wordAt_eq_ok, numberAt_eq_ok]
    simp only [run_bind_eq_ok, hvalues]
    constructor
    · rintro ⟨w, hcode, typeAt, htypeAt, valueAt, hvalueAt, v, s₁, ⟨hv, hvTyped⟩, h⟩
      obtain ⟨htexture, s₂, htyped, h⟩ := run_stateTexture_eq_ok.mp h
      obtain ⟨rest, s₃, hrest, h⟩ := run_bind_eq_ok.mp h
      obtain ⟨rfl, rfl⟩ := run_pure_eq_ok.mp h
      obtain ⟨hlength, hstates, hrestTyped⟩ := ih.mp hrest
      exact ⟨congrArg Nat.succ hlength, .cons hcode htypeAt hvalueAt hv htexture hstates,
        (hvTyped.trans htyped).trans hrestTyped⟩
    · rintro ⟨hlength, hstates, htyped⟩
      cases hstates with
      | nil => exact nomatch hlength
      | cons codeAt typeRef valueRef value texture rest =>
        rw [State.typed, still_append] at htyped
        obtain ⟨s₂, hfirst, hrest⟩ := htyped
        obtain ⟨s₁, hv, hown⟩ := still_append.mp hfirst
        refine ⟨_, codeAt, _, typeRef, _, valueRef, _, s₁, ⟨value, hv⟩, ?_⟩
        refine run_stateTexture_eq_ok.mpr ⟨texture, s₂, hown, ?_⟩
        exact run_bind_eq_ok.mpr ⟨_, t, ih.mpr ⟨Nat.succ.inj hlength, rest, hrest⟩,
          run_pure_eq_ok.mpr ⟨rfl, rfl⟩⟩

theorem run_objectIndices_eq_ok {count : Nat} {ws : List Word} :
    (objectIndices base offset count elem).run s = .ok (ws, t) ↔
      (∃ bytes, slice? base offset (count * 4) = some bytes ∧ ws = wordsOfBytes bytes.toList) ∧
        s.Passes 0 (ws.map fun w => (w.toNat, elem)) t := by
  simp only [objectIndices, run_liftM_bind_eq_ok, bytesAt_eq_ok, run_then_eq_ok,
    run_typeObjects_eq_ok, run_pure_eq_ok]
  constructor
  · rintro ⟨bytes, hbytes, u, htyped, rfl, rfl⟩
    exact ⟨⟨bytes, hbytes, rfl⟩, htyped⟩
  · rintro ⟨⟨bytes, hbytes, rfl⟩, htyped⟩
    exact ⟨bytes, hbytes, t, htyped, rfl, rfl⟩

/-- Data are read exactly if they stand there, given the same of the states of samplers. -/
theorem run_valueData_eq_ok {typeAt valueAt code : Nat} {info info' : TypeInfo}
    {readStates : ReaderM (List State)}
    (hstates : ∀ s ss t, readStates.run s = .ok (ss, t) ↔
      States ss ∧ s.Passes 0 (State.typed info.elem ss) t) {data : ValueData} :
    (valueData base typeAt valueAt code info readStates).run s = .ok ((info', data), t) ↔
      DataAt base typeAt valueAt code info States info' data ∧
        s.Passes 0 (data.typed info.elem) t := by
  constructor
  · intro h
    unfold valueData at h
    split at h
    case h_1 hcls =>
      by_cases hsampler : info.elem.isSampler = true
      · simp only [hsampler, if_true, run_bind_eq_ok, hstates, run_pure_eq_ok] at h
        obtain ⟨ss, u, ⟨hss, htyped⟩, ⟨rfl, rfl⟩, rfl⟩ := h
        exact ⟨.states hcls hsampler hss, htyped⟩
      · rw [if_neg hsampler] at h
        simp only [run_check_eq_ok, not_or, Nat.not_lt, run_bind_eq_ok, run_objectIndices_eq_ok,
          run_pure_eq_ok] at h
        obtain ⟨⟨hlower, hupper⟩, ws, u, ⟨⟨bytes, hbytes, rfl⟩, htyped⟩, ⟨rfl, rfl⟩, rfl⟩ := h
        exact ⟨.objects hcls (Bool.eq_false_iff.mpr hsampler) hlower hupper hbytes, htyped⟩
    case h_2 hcls =>
      obtain ⟨⟨type, words⟩, hstruct, h⟩ := run_liftM_bind_eq_ok.mp h
      obtain ⟨⟨rfl, rfl⟩, rfl⟩ := run_pure_eq_ok.mp h
      exact ⟨.struct hcls hstruct, passes_nil.mpr rfl⟩
    case h_3 hobject hstruct =>
      simp only [run_check_eq_ok, run_liftM_bind_eq_ok, numberAt_eq_ok, run_pure_eq_ok,
        Nat.not_lt] at h
      obtain ⟨helem, columns, hcolumns, rows, hrows, n, hsize, hnarrow, words, hwords, ⟨rfl, rfl⟩,
        rfl⟩ := h
      refine ⟨.numeric ?_ (by simpa using helem) hcolumns hrows hsize hnarrow hwords,
        passes_nil.mpr rfl⟩
      cases hcls : info.cls with
      | object => exact absurd hcls hobject
      | struct => exact absurd hcls hstruct
      | _ => rfl
  · rintro ⟨hdata, htyped⟩
    unfold valueData
    cases hdata with
    | numeric cls elem columnsAt rowsAt size narrow wordsAt =>
      split
      case h_1 hcls => exact nomatch hcls ▸ cls
      case h_2 hcls => exact nomatch hcls ▸ cls
      case h_3 =>
        simp only [run_check_eq_ok, run_liftM_bind_eq_ok, numberAt_eq_ok, run_pure_eq_ok]
        exact ⟨by simpa using elem, _, columnsAt, _, rowsAt, _, size, Nat.not_lt.mpr narrow, _,
          wordsAt, rfl, passes_nil.mp htyped⟩
    | struct cls structAt =>
      rw [cls]
      exact run_liftM_bind_eq_ok.mpr
        ⟨_, structAt, run_pure_eq_ok.mpr ⟨rfl, passes_nil.mp htyped⟩⟩
    | objects cls elem lower upper indicesAt =>
      simp only [cls, elem, Bool.false_eq_true, if_false, run_check_eq_ok, run_bind_eq_ok,
        run_objectIndices_eq_ok, run_pure_eq_ok]
      exact ⟨not_or.mpr ⟨Nat.not_lt.mpr lower, Nat.not_lt.mpr upper⟩, _, t,
        ⟨⟨_, indicesAt, rfl⟩, htyped⟩, rfl, rfl⟩
    | states cls elem statesAt =>
      simp only [cls, elem, if_true, run_bind_eq_ok, hstates, run_pure_eq_ok]
      exact ⟨_, t, ⟨statesAt, htyped⟩, rfl, rfl⟩

/-- A value is read exactly if it stands there and the objects that it gives types exist. -/
theorem run_value_eq_ok {levels typeAt valueAt : Nat} {v : Value} :
    (value base levels typeAt valueAt).run s = .ok (v, t) ↔
      ValueAt base levels typeAt valueAt v ∧ s.Passes 0 v.typed t := by
  induction levels generalizing typeAt valueAt s v t with
  | zero => exact ⟨nofun, fun h => h.1.elim⟩
  | succ levels ih =>
    have hstates : ∀ elem s ss t, (do
          let count ← numberAt base valueAt "sampler state count"
          samplerStates base elem (value base levels) count (valueAt + 4) :
            ReaderM (List State)).run s = .ok (ss, t) ↔
        (number? base valueAt = some ss.length ∧
          StatesAt base (ValueAt base levels) (valueAt + 4) ss) ∧
            s.Passes 0 (State.typed elem ss) t := by
      intro elem s ss t
      rw [run_liftM_bind_eq_ok]
      constructor
      · rintro ⟨count, hcount, h⟩
        obtain ⟨rfl, hss, htyped⟩ := (run_samplerStates_eq_ok fun _ _ _ _ _ => ih).mp h
        exact ⟨⟨numberAt_eq_ok.mp hcount, hss⟩, htyped⟩
      · rintro ⟨⟨hcount, hss⟩, htyped⟩
        exact ⟨_, numberAt_eq_ok.mpr hcount,
          (run_samplerStates_eq_ok fun _ _ _ _ _ => ih).mpr ⟨rfl, hss, htyped⟩⟩
    obtain ⟨name, semantic, info, data⟩ := v
    simp only [value, run_liftM_bind_eq_ok, numberAt_eq_ok]
    constructor
    · rintro ⟨code, hcode, cls, hcls, nameAt, hnameAt, name, hname, semanticAt, hsemanticAt,
        semantic, hsemantic, elements, helements, h⟩
      split at h
      case h_1 => exact nomatch h
      case h_2 c hc =>
        obtain ⟨⟨info, data⟩, u, hread, h⟩ := run_bind_eq_ok.mp h
        obtain ⟨⟨rfl, rfl, rfl, rfl⟩, rfl⟩ := run_pure_eq_ok.mp h
        obtain ⟨hdata, htyped⟩ := (run_valueData_eq_ok (hstates _)).mp hread
        refine ⟨⟨⟨code, c, name, semantic, elements⟩, ⟨hcode, ⟨cls, hcls, hc⟩, ⟨nameAt, hnameAt,
          hname⟩, ⟨semanticAt, hsemanticAt, hsemantic⟩, helements⟩, rfl, rfl, hdata⟩, ?_⟩
        rw [Value.typed, hdata.elem_eq]
        exact htyped
    · rintro ⟨⟨h, ⟨hcode, ⟨cls, hcls, hc⟩, ⟨nameAt, hnameAt, hname⟩,
        ⟨semanticAt, hsemanticAt, hsemantic⟩, helements⟩, rfl, rfl, hdata⟩, htyped⟩
      rw [Value.typed, hdata.elem_eq] at htyped
      refine ⟨_, hcode, _, hcls, _, hnameAt, _, hname, _, hsemanticAt, _, hsemantic, _, helements,
        ?_⟩
      rw [hc]
      exact run_bind_eq_ok.mpr ⟨_, t, (run_valueData_eq_ok (hstates _)).mpr ⟨hdata, htyped⟩,
        run_pure_eq_ok.mpr ⟨rfl, rfl⟩⟩

end ReaderM

end ShaderPipeline.Effect
