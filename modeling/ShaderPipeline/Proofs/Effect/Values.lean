import Mathlib.Algebra.Order.BigOperators.Group.List
import Mathlib.Algebra.Order.Group.Nat
import ShaderPipeline.Proofs.Effect.Members
import ShaderPipeline.Proofs.Symbol.TableRoundTrip

/-!
# The values of a builder are read back

Data only ever grow at their end, so what a reference stands for is said once and for all: in every
byte string that starts with the data, the value stands at the reference. Each of the four ways to
make a value gives a reference that denotes it.
-/

namespace ShaderPipeline.Effect

open List Builder ElementType ReaderM BuilderCall TypeClass

variable {b : Builder} {front : List UInt8} {elements offset : Nat} {cls : TypeClass}
  {ws values : List Word} {m : String × Nat × Nat} {members : List (String × Nat × Nat)}
  {names : List Nat}

/-! ### Growing data -/

namespace Builder

/-- Only data were added. -/
def Extends (b c : Builder) : Prop := ∃ more, c = { b with data := b.data ++ more }

variable {b c d : Builder}

theorem Extends.refl (b : Builder) : b.Extends b := ⟨[], by rw [append_nil]⟩

theorem Extends.trans (h : b.Extends c) (h' : c.Extends d) : b.Extends d := by
  obtain ⟨more, rfl⟩ := h
  obtain ⟨more', rfl⟩ := h'
  exact ⟨more ++ more', by simp only [append_assoc]⟩

theorem Extends.data (h : b.Extends c) : b.data <+: c.data := by
  obtain ⟨more, rfl⟩ := h
  exact prefix_append _ _

theorem extends_add (b : Builder) (bytes : List UInt8) : b.Extends (b.add bytes).2 := ⟨bytes, rfl⟩

theorem extends_strings (b : Builder) (ss : List String) : b.Extends (b.strings ss).2 := by
  induction ss generalizing b with
  | nil => exact .refl b
  | cons s ss ih => exact (extends_add b _).trans (ih _)

theorem extends_passNames (b : Builder) (ps : List (String × List StateEntry)) :
    b.Extends (b.passNames ps).2 := by
  induction ps generalizing b with
  | nil => exact .refl b
  | cons p ps ih => exact (extends_add b _).trans (ih _)

end Builder

/-- A byte string that starts with some data and whose offsets are words. -/
structure Holds (base : Bytes) (data : List UInt8) : Prop where
  starts : data <+: base.toList
  size : base.size < 2 ^ 32

variable {base : Bytes} {data more : List UInt8}

theorem Holds.mono (h : Holds base more) (hdata : data <+: more) : Holds base data :=
  ⟨hdata.trans h.starts, h.size⟩

theorem Holds.placedAt (h : Holds base (data ++ more)) : PlacedAt base data.length more := by
  have hstart : PlacedAt base 0 (data ++ more) := h.starts
  rw [placedAt_append, Nat.zero_add] at hstart
  exact hstart.2

theorem Holds.length_le (h : Holds base data) : data.length ≤ base.size := by
  have := h.starts.length_le
  rwa [Array.length_toList] at this

/-! ### References -/

/-- The value stands at the reference in every byte string that starts with the data. -/
structure Denotes (data : List UInt8) (r : ValueRef) (v : Value) : Prop where
  typeAt : r.typeAt ≤ data.length
  valueAt : r.valueAt ≤ data.length
  stands : ∀ base, Holds base data → ∀ levels, v.depth < levels →
    ValueAt base levels r.typeAt r.valueAt v

theorem Denotes.mono {r : ValueRef} {v : Value} (h : Denotes data r v) (hdata : data <+: more) :
    Denotes more r v where
  typeAt := Nat.le_trans h.typeAt hdata.length_le
  valueAt := Nat.le_trans h.valueAt hdata.length_le
  stands base hbase := h.stands base (hbase.mono hdata)

/-! ### Texts and headers -/

theorem stringAt_string {s : String} (hs : 0 ∉ utf8Bytes s) (h : Holds base (b.string s).2.data) :
    stringAt base b.data.length = .ok (some s) := by
  have hplaced := Holds.placedAt h
  rw [placedAt_append, append_assoc] at hplaced
  exact stringAt_of_placedAt hs h.size hplaced.1

/-- Offset zero holds no text. -/
def Rooted (data : List UInt8) : Prop := numberBytes [0] <+: data

theorem Rooted.stringAt (h : Rooted data) (hbase : Holds base data) :
    stringAt base 0 = .ok none :=
  stringAt_zero (h.trans hbase.starts)

theorem typeHeader_eq (hroot : Rooted b.data) {name : String} (hname : 0 ∉ utf8Bytes name)
    (elem : ElementType) (cls : TypeClass) (elements : Nat) :
    ∃ front nameAt, b.typeHeader elem cls name elements = (front.length,
        { b with data := front ++ numberBytes [elem.code, cls.code, nameAt, 0, elements] }) ∧
      b.data <+: front ∧ nameAt ≤ front.length ∧
      ∀ base, Holds base front → stringAt base nameAt = .ok (valueName name) := by
  by_cases hempty : name.isEmpty = true
  · refine ⟨b.data, 0, ?_, prefix_refl _, Nat.zero_le _, fun base hbase => ?_⟩
    · rw [typeHeader, if_pos hempty]
      rfl
    · rw [valueName, if_pos hempty]
      exact hroot.stringAt hbase
  · refine ⟨(b.string name).2.data, b.data.length, ?_, (extends_add b _).data,
      (extends_add b _).data.length_le, fun base hbase => ?_⟩
    · rw [typeHeader, if_neg hempty]
      rfl
    · rw [valueName, if_neg hempty]
      exact stringAt_string hname hbase

theorem headAt_of_holds {nameAt : Nat} {elem : ElementType} {name : String} (hroot : Rooted front)
    (helements : elements < 2 ^ 32) (hnameAt : nameAt ≤ front.length)
    (hname : ∀ base, Holds base front → stringAt base nameAt = .ok (valueName name))
    (h : Holds base (front ++ numberBytes [elem.code, cls.code, nameAt, 0, elements])) :
    HeadAt base front.length ⟨elem.code, cls, valueName name, none, elements⟩ := by
  have hplaced := Holds.placedAt h
  have hfront := h.mono (prefix_append front _)
  have hsize := hfront.length_le
  have hbase := h.size
  have helem := elem.code_lt
  have hcls := cls.code_lt
  exact {
    code := number?_of_placedAt hplaced (i := 0) rfl (Nat.lt_trans helem (by decide))
    cls := ⟨_, number?_of_placedAt hplaced (i := 1) rfl (by omega), ofCode?_code _⟩
    name := ⟨nameAt, number?_of_placedAt hplaced (i := 2) rfl (by omega), hname base hfront⟩
    semantic := ⟨0, number?_of_placedAt hplaced (i := 3) rfl (by decide), hroot.stringAt hfront⟩
    elements := number?_of_placedAt hplaced (i := 4) rfl helements }

/-- A builder made a value: it added data, and the reference denotes the value. -/
structure Makes (b : Builder) (made : ValueRef × Builder) (v : Value) : Prop where
  grows : b.Extends made.2
  denotes : Denotes made.2.data made.1 v

theorem extends_of_prefix (h : b.data <+: front) (more : List UInt8) :
    b.Extends { b with data := front ++ more } := by
  obtain ⟨rest, rfl⟩ := h
  exact ⟨rest ++ more, by rw [append_assoc]⟩

variable {b : Builder} {d : Draft} {name : String} {elem : ElementType}

/-- Adds a type and bytes behind it. The data of the value stand at `place` of where the bytes
start. -/
def Builder.addBehind (b : Builder) (elem : ElementType) (cls : TypeClass) (name : String)
    (elements : Nat) (body : List UInt8) (place : Nat → Nat) : ValueRef × Builder :=
  let (typeAt, b) := b.typeHeader elem cls name elements
  let (bodyAt, b) := b.add body
  (⟨typeAt, place bodyAt⟩, b)

def SamplerAt (base : Bytes) (levels valueAt : Nat) (ss : List State) : Prop :=
  number? base valueAt = some ss.length ∧ StatesAt base (ValueAt base levels) (valueAt + 4) ss

/-- A value is made if its data are found in what stands behind its type. -/
theorem makes_addBehind (hroot : Rooted b.data) (hname : 0 ∉ utf8Bytes name) {body : List UInt8}
    (helements : elements < 2 ^ 32 ∨ elements ≤ body.length) {place : Nat → Nat}
    (hplace : ∀ n, place n ≤ n + body.length) {info : TypeInfo} {contents : ValueData}
    (hdata : ∀ base typeAt levels, Holds base b.data → typeAt + 20 ≤ base.size →
      PlacedAt base (typeAt + 20) body → contents.depth ≤ levels →
        DataAt base typeAt (place (typeAt + 20)) elem.code ⟨cls, elem, 0, 0, elements, []⟩
          (SamplerAt base levels (place (typeAt + 20))) info contents) :
    Makes b (b.addBehind elem cls name elements body place)
      ⟨valueName name, none, info, contents⟩ := by
  obtain ⟨front, nameAt, hheader, hfront, hnameAt, hnameText⟩ :=
    typeHeader_eq hroot hname elem cls elements
  have hbodyAt : (front ++ numberBytes [elem.code, cls.code, nameAt, 0, elements]).length =
      front.length + 20 := by
    rw [length_append, length_numberBytes]
    rfl
  rw [addBehind, hheader]
  dsimp only [add]
  rw [hbodyAt]
  refine ⟨?_, ⟨?_, ?_, fun base hbase levels hlevels => ?_⟩⟩
  · rw [append_assoc]
    exact extends_of_prefix hfront _
  · rw [length_append, hbodyAt]
    dsimp only
    omega
  · rw [length_append, hbodyAt]
    exact hplace _
  · obtain ⟨levels, rfl⟩ := Nat.exists_eq_add_one_of_ne_zero (Nat.ne_zero_of_lt hlevels)
    have hentry := hbase.mono (prefix_append _ body)
    have hlength := hentry.length_le
    have hplaced := hbase.placedAt
    have hend := hplaced.add_length_le hlength
    have hfew : elements < 2 ^ 32 := helements.elim id fun h => by
      have := hbase.size
      omega
    rw [hbodyAt] at hlength hplaced
    refine ⟨_, headAt_of_holds (hroot.trans hfront) hfew hnameAt hnameText hentry, rfl, rfl, ?_⟩
    rw [Head.info, ofCode_code]
    exact hdata base front.length levels (hentry.mono (hfront.trans (prefix_append _ _)))
      hlength hplaced (Nat.le_of_lt_succ hlevels)

/-! ### Numbers -/

theorem rowAt_of_placedAt {c : Nat} (h : PlacedAt base offset (bytesOfWords ws)) (hc : c ≤ 4)
    (hws : c ≤ ws.length) : rowAt base offset c = ws.take c ++ replicate (4 - c) 0 := by
  apply ext_getElem
  · simp only [rowAt, length_map, length_range, length_append, length_take, length_replicate]
    omega
  · intro k hk _
    simp only [rowAt, getElem_map, getElem_range]
    split
    case isTrue hlt =>
      have hword := wordAt?_of_placedAt h (getElem?_eq_getElem (Nat.lt_of_lt_of_le hlt hws))
      rw [hword, getElem_append_left (by rw [length_take]; omega), getElem_take]
      rfl
    case isFalse hge =>
      rw [getElem_append_right (by rw [length_take]; omega), getElem_replicate]

theorem rowsFrom_of_placedAt {rows : List Nat} (hrows : ∀ c ∈ rows, c ≤ 4)
    (h : PlacedAt base offset (bytesOfWords ws)) (hws : rows.sum ≤ ws.length) :
    rowsFrom base offset rows [] = layRows rows ws := by
  induction rows generalizing offset ws with
  | nil => rfl
  | cons c rows ih =>
    rw [forall_mem_cons] at hrows
    rw [sum_cons] at hws
    have hc : c ≤ ws.length := by omega
    have hrest : PlacedAt base (offset + 4 * c) (bytesOfWords (ws.drop c)) := by
      rw [← take_append_drop c ws, bytesOfWords_append, placedAt_append, length_bytesOfWords,
        length_take, Nat.min_eq_left hc] at h
      exact h.2
    rw [rowsFrom_cons, rowAt_of_placedAt h hrows.1 hc,
      ih hrows.2 hrest (by rw [length_drop]; omega), layRows]

theorem readRows_of_placedAt {rows : List Nat} (hrows : ∀ c ∈ rows, c ≤ 4)
    (hoffset : offset ≤ base.size) (h : PlacedAt base offset (bytesOfWords ws))
    (hws : rows.sum ≤ ws.length) (what : String) :
    readRows base offset rows what = .ok (layRows rows ws) := by
  refine readRows_eq_ok.mpr ⟨fun _ => ?_, (rowsFrom_of_placedAt hrows h hws).symm⟩
  have := h.add_length_le hoffset
  rw [length_bytesOfWords] at this
  omega

theorem makes_numeric (hroot : Rooted b.data) {rows columns : Nat}
    (h : (numeric elem cls name rows columns elements values).Valid d) :
    Makes b (b.numeric elem cls name rows columns elements (values.map UInt32.toNat))
      (numericValue elem cls name rows columns elements values) := by
  obtain ⟨helem, hcls, hname, hcolumns, helements, hcap, hvalues⟩ := h
  have hmade : b.numeric elem cls name rows columns elements (values.map UInt32.toNat) =
      b.addBehind elem cls name elements (numberBytes [columns, rows] ++ bytesOfWords values)
        (· + 8) := by
    rw [Builder.numeric, addBehind]
    simp only [words, add, numberBytes_toNat, append_assoc, length_append, length_numberBytes]
    rfl
  rw [hmade]
  refine makes_addBehind hroot hname (.inl helements) (fun n => ?_)
    fun base typeAt _ _ _ hplaced _ => ?_
  · rw [length_append, length_numberBytes, ← Nat.add_assoc]
    exact Nat.le_add_right _ _
  obtain ⟨hnumbers, hwords⟩ := placedAt_append.mp hplaced
  have hroom := hnumbers.le_size (by simp)
  have hwrap : 4 * rows * max elements 1 % 2 ^ 64 = 4 * rows * max elements 1 := by
    rw [maxValueWords] at hcap
    omega
  have hcount : 4 * rows * max elements 1 / 4 = rows * max elements 1 := by
    rw [Nat.mul_assoc]
    exact Nat.mul_div_cancel_left _ (by decide)
  have hrows : rows < 2 ^ 32 := by
    have := Nat.le_mul_of_pos_right rows (Nat.le_max_right elements 1)
    rw [maxValueWords, Nat.mul_assoc] at hcap
    omega
  refine .numeric hcls helem (number?_of_placedAt hnumbers (i := 0) rfl (by omega))
    (number?_of_placedAt hnumbers (i := 1) rfl hrows)
    (valueWords_eq_ok.mpr ⟨hwrap.symm, hcap⟩) hcolumns ?_
  rw [hcount]
  refine readRows_of_placedAt (fun c hc => ?_) hroom hwords ?_ _
  · rw [eq_of_mem_replicate hc]
    exact hcolumns
  · rwa [sum_replicate_nat]

/-! ### Objects and samplers -/

/-- The types of values that name objects without shaders. -/
theorem textual_of_valid (h : elem = .string ∨ elem.isTexture = true) :
    elem.isSampler = false ∧
      ¬(elem.code < string.code ∨ vertexShader.code < elem.code) := by
  revert h
  cases elem <;> decide

theorem makes_object (hroot : Rooted b.data) {indices : List Word}
    (h : (object elem name indices).Valid d) :
    Makes b (b.objectValue elem name (indices.map UInt32.toNat))
      (objectValue elem name indices) := by
  obtain ⟨helem, hname, hindices⟩ := h
  obtain ⟨hsampler, hcode⟩ := textual_of_valid helem
  have hpos : 0 < indices.length := length_pos_iff.mpr hindices
  have hcount : max (if indices.length = 1 then 0 else indices.length) 1 = indices.length := by
    split <;> omega
  have helements : (if indices.length = 1 then 0 else indices.length) ≤
      (bytesOfWords indices).length := by
    rw [length_bytesOfWords]
    split <;> omega
  have hmade : b.objectValue elem name (indices.map UInt32.toNat) =
      b.addBehind elem .object name (if indices.length = 1 then 0 else indices.length)
        (bytesOfWords indices) id := by
    have hlength : (indices.map UInt32.toNat).length = indices.length := length_map _
    rw [← numberBytes_toNat, ← hlength]
    rfl
  rw [hmade]
  refine makes_addBehind hroot hname (.inr helements) (fun n => Nat.le_add_right n _)
    fun base typeAt levels _ hsize hplaced _ => ?_
  have hslice := hplaced.slice? (hplaced.add_length_le hsize)
  rw [length_bytesOfWords, Nat.mul_comm, ← hcount] at hslice
  have hdata : DataAt base typeAt (typeAt + 20) elem.code
      ⟨.object, elem, 0, 0, if indices.length = 1 then 0 else indices.length, []⟩
      (SamplerAt base levels (typeAt + 20)) _ (.objects (wordsOfBytes (bytesOfWords indices))) :=
    .objects rfl hsampler (Nat.not_lt.mp (not_or.mp hcode).1)
      (Nat.not_lt.mp (not_or.mp hcode).2) hslice
  rw [wordsOfBytes_bytesOfWords] at hdata
  exact hdata

theorem statesAt_of_placedAt {Values : (typeAt valueAt : Nat) → Value → Prop}
    {ss : List (Word × ValueRef × Value)}
    (hrefs : ∀ s ∈ ss, s.2.1.typeAt < 2 ^ 32 ∧ s.2.1.valueAt < 2 ^ 32)
    (hvalues : ∀ s ∈ ss, Values s.2.1.typeAt s.2.1.valueAt s.2.2)
    (htexture : ∀ s ∈ ss, samplerStateCode s.1 = textureState → s.2.2.firstWord? ≠ none)
    (hplaced : PlacedAt base offset
      (numberBytes (stateWords (ss.map fun s => (s.1.toNat, s.2.1))))) :
    StatesAt base Values offset
      (ss.map fun s => ⟨samplerStateCode s.1, s.2.2⟩) := by
  induction ss generalizing offset with
  | nil => exact .nil
  | cons s ss ih =>
    obtain ⟨code, r, v⟩ := s
    rw [forall_mem_cons] at hrefs hvalues htexture
    obtain ⟨hfirst, hrest⟩ := placedAt_numbers_append.mp
      (show PlacedAt base offset (numberBytes ([code.toNat, 0, r.typeAt, r.valueAt] ++ _)) from
        hplaced)
    have hcode : wordAt? base offset = some code :=
      wordAt?_of_placedAt hfirst (i := 0) (congrArg some UInt32.ofNat_toNat)
    exact .cons hcode (number?_of_placedAt hfirst (i := 2) rfl hrefs.1.1)
      (number?_of_placedAt hfirst (i := 3) rfl hrefs.1.2) hvalues.1 htexture.1
      (ih hrefs.2 hvalues.2 htexture.2 hrest)

theorem depth_lt_of_mem {ss : List State} {s : State} (hs : s ∈ ss) :
    s.value.depth < State.depth ss := by
  induction ss with
  | nil => exact nomatch hs
  | cons t ss ih =>
    obtain ⟨code, v⟩ := t
    rcases mem_cons.mp hs with rfl | hs
    · exact Nat.lt_of_lt_of_le (Nat.lt_succ_self _) (Nat.le_max_left _ _)
    · exact Nat.lt_of_lt_of_le (ih hs) (Nat.le_max_right _ _)

theorem length_stateWords (ss : List StateEntry) :
    (stateWords ss).length = 4 * ss.length := by
  induction ss with
  | nil => rfl
  | cons s ss ih =>
    rw [stateWords] at ih ⊢
    simp only [flatMap_cons, length_append, ih, length_cons, length_nil]
    omega

theorem makes_sampler (hroot : Rooted b.data) (helem : elem.isSampler = true)
    (hname : 0 ∉ utf8Bytes name) (ss : List (Word × ValueRef × Value))
    (hdenotes : ∀ s ∈ ss, Denotes b.data s.2.1 s.2.2)
    (htexture : ∀ s ∈ ss, samplerStateCode s.1 = textureState → s.2.2.firstWord? ≠ none) :
    Makes b (b.samplerValue elem name (ss.map fun s => (s.1.toNat, s.2.1)))
      (samplerValue elem name (ss.map fun s => (s.1, s.2.2))) := by
  have hmade : b.samplerValue elem name (ss.map fun s => (s.1.toNat, s.2.1)) =
      b.addBehind elem .object name 0
        (numberBytes ([ss.length] ++ stateWords (ss.map fun s => (s.1.toNat, s.2.1))))
        id := by
    have hlength : (ss.map fun s => (s.1.toNat, s.2.1)).length = ss.length := length_map _
    rw [← hlength]
    rfl
  rw [hmade, samplerValue, map_map]
  refine makes_addBehind hroot hname (.inl (by decide)) (fun n => Nat.le_add_right n _)
    fun base typeAt levels hbase _ hplaced hdepth => ?_
  have hlength := hplaced.le_size (by simp)
  rw [length_numberBytes, length_append, length_singleton, length_stateWords, length_map] at hlength
  obtain ⟨hcount, hstates⟩ := placedAt_numbers_append.mp hplaced
  have hdata := hbase.length_le
  have hsize := hbase.size
  refine .states rfl helem ⟨?_, statesAt_of_placedAt (fun s hs => ?_) (fun s hs => ?_) htexture
    hstates⟩
  · rw [length_map]
    exact number?_of_placedAt hcount (i := 0) rfl (by omega)
  · have htypeAt := (hdenotes s hs).typeAt
    have hvalueAt := (hdenotes s hs).valueAt
    omega
  · have hstate : State.mk (samplerStateCode s.1) s.2.2 ∈
        ss.map fun s => State.mk (samplerStateCode s.1) s.2.2 := mem_map_of_mem hs
    exact (hdenotes s hs).stands base hbase levels
      (Nat.lt_of_lt_of_le (depth_lt_of_mem hstate) hdepth)

/-! ### Structures -/

theorem stringAt_strings {ss : List String} (hss : ∀ s ∈ ss, 0 ∉ utf8Bytes s)
    (h : Holds base (b.strings ss).2.data) :
    List.Forall₂ (fun s n => stringAt base n = .ok (some s) ∧ n < 2 ^ 32) ss (b.strings ss).1 := by
  induction ss generalizing b with
  | nil => exact .nil
  | cons s ss ih =>
    rw [forall_mem_cons] at hss
    have hfirst : Holds base (b.string s).2.data := h.mono (extends_strings _ ss).data
    have hlength := (hfirst.mono (extends_add b _).data).length_le
    exact .cons ⟨stringAt_string hss.1 hfirst, Nat.lt_of_le_of_lt hlength h.size⟩ (ih hss.2 h)

def memberWords (m : String × Nat × Nat) (nameAt : Nat) : List Nat :=
  [ElementType.float.code, (if m.2.2 = 1 then TypeClass.scalar else .vector).code, nameAt, 0, 1,
    m.2.2, m.2.1]

def descriptions (members : List (String × Nat × Nat)) (names : List Nat) : List Nat :=
  (members.zip names).flatMap fun x => memberWords x.1 x.2

theorem words_structMember (hrows : 4 * m.2.1 ≤ maxValueWords) :
    (structMember m).words = 4 * m.2.1 := by
  rw [maxValueWords] at hrows
  simp only [Member.words, structMember, Nat.max_self, Nat.mul_one]
  omega

theorem memberAt_of_placedAt {nameAt : Nat} (hname : stringAt base nameAt = .ok (some m.1))
    (hnameAt : nameAt < 2 ^ 32) (hcolumns : m.2.2 ≤ 4) (hrows : 4 * m.2.1 ≤ maxValueWords)
    (hplaced : PlacedAt base offset (numberBytes (memberWords m nameAt))) :
    MemberAt base offset (structMember m) := by
  have hrowsLt : m.2.1 < 2 ^ 32 := by
    rw [maxValueWords] at hrows
    omega
  exact {
    elem := ⟨_, number?_of_placedAt hplaced (i := 0) rfl (by decide), (ofCode_code _).symm⟩
    cls := ⟨_, number?_of_placedAt hplaced (i := 1) rfl
      (Nat.lt_trans (code_lt _) (by decide)), ofCode?_code _⟩
    name := ⟨some m.1, ⟨nameAt, number?_of_placedAt hplaced (i := 2) rfl hnameAt, hname⟩, rfl⟩
    elements := number?_of_placedAt (n := 1) hplaced (i := 4) rfl (by decide)
    columns := number?_of_placedAt hplaced (i := 5) rfl (Nat.lt_of_le_of_lt hcolumns (by decide))
    rows := number?_of_placedAt hplaced (i := 6) rfl hrowsLt
    plain := {
      cls := by
        dsimp only [structMember]
        split
        · exact .inl rfl
        · exact .inr rfl
      elem := rfl
      columns := hcolumns
      members := rfl }
    small := (words_structMember hrows).trans_le hrows }

theorem listedAt_descriptions
    (hnames : List.Forall₂ (fun m n => stringAt base n = .ok (some m.1) ∧ n < 2 ^ 32) members names)
    (hcolumns : ∀ m ∈ members, m.2.2 ≤ 4) (hrows : ∀ m ∈ members, 4 * m.2.1 ≤ maxValueWords)
    (hplaced : PlacedAt base offset (numberBytes (descriptions members names))) :
    ListedAt (MemberAt base) (fun _ => 28) offset (members.map structMember) := by
  induction hnames generalizing offset with
  | nil => trivial
  | @cons m n members names hfirst _ ih =>
    rw [forall_mem_cons] at hcolumns hrows
    rw [show descriptions (m :: members) (n :: names) =
      memberWords m n ++ descriptions members names from rfl, placedAt_numbers_append] at hplaced
    exact ⟨memberAt_of_placedAt hfirst.1 hfirst.2 hcolumns.1 hrows.1 hplaced.1,
      ih hcolumns.2 hrows.2 hplaced.2⟩

theorem memberRows_structMember (hrows : ∀ m ∈ members, m.2.1 < 2 ^ 32) :
    memberRows (members.map structMember) =
      members.flatMap fun m => replicate m.2.1 m.2.2 := by
  rw [memberRows, flatMap_map]
  refine flatMap_congr fun m hm => ?_
  simp only [structMember, Nat.max_self, Nat.mul_one, Nat.mod_eq_of_lt (hrows m hm)]

theorem sum_flatMap_replicate (members : List (String × Nat × Nat)) :
    (members.flatMap fun m => replicate m.2.1 m.2.2).sum =
      (members.map fun m => m.2.1 * m.2.2).sum := by
  induction members with
  | nil => rfl
  | cons m members ih =>
    rw [flatMap_cons, sum_append, ih, sum_replicate_nat, map_cons, sum_cons]

theorem structRows_one (members : List Member) : structRows 1 members = memberRows members := by
  rw [structRows]
  split
  · exact (‹memberRows members = []›).symm
  · simp

theorem length_descriptions (h : members.length = names.length) :
    (descriptions members names).length = 7 * members.length := by
  have hzip : (members.zip names).length = members.length := by
    rw [length_zip, h, Nat.min_self]
  rw [descriptions, ← hzip]
  generalize members.zip names = entries
  induction entries with
  | nil => rfl
  | cons x entries ih =>
    rw [flatMap_cons, length_append, ih, length_cons, Nat.mul_succ, Nat.add_comm]
    rfl

/-- A structure is read if its members are described and its data follow. -/
theorem readStruct_of_placedAt
    (hnames : List.Forall₂ (fun m n => stringAt base n = .ok (some m.1) ∧ n < 2 ^ 32) members names)
    (hcolumns : ∀ m ∈ members, m.2.2 ≤ 4)
    (hrows : (members.map fun m => 4 * m.2.1).sum ≤ maxValueWords)
    (hvalues : (members.map fun m => m.2.1 * m.2.2).sum ≤ values.length)
    (hbase : base.size < 2 ^ 32)
    (hplaced : PlacedAt base offset
      (numberBytes ([members.length] ++ (descriptions members names ++ values.map UInt32.toNat)))) :
    readStruct base ⟨.struct, .void, 0, 0, 0, []⟩ offset =
      .ok (⟨.struct, .void, 1, (members.map fun m => 4 * m.2.1).sum, 0, members.map structMember⟩,
        layRows (members.flatMap fun m => replicate m.2.1 m.2.2) values) := by
  have hsize := hplaced.le_size (by simp)
  rw [length_numberBytes, length_append, length_singleton, length_append,
    length_descriptions hnames.length_eq] at hsize
  rw [placedAt_numbers_append, placedAt_numbers_append, length_descriptions hnames.length_eq,
    numberBytes_toNat, length_singleton, Nat.mul_one] at hplaced
  obtain ⟨hcount, hdescriptions, hdata⟩ := hplaced
  have hrow : ∀ m ∈ members, 4 * m.2.1 ≤ maxValueWords := fun m hm =>
    (le_sum_of_mem (mem_map_of_mem hm)).trans hrows
  have hwords : structWords (members.map structMember) = (members.map fun m => 4 * m.2.1).sum := by
    rw [structWords, map_map]
    exact congrArg sum (map_congr_left fun m hm => words_structMember (hrow m hm))
  have hnarrow : ∀ c ∈ members.flatMap fun m => replicate m.2.1 m.2.2, c ≤ 4 := by
    intro c hc
    obtain ⟨m, hm, hc⟩ := mem_flatMap.mp hc
    rw [eq_of_mem_replicate hc]
    exact hcolumns m hm
  refine readStruct_eq_ok.mpr ⟨members.map structMember, ?_,
    listedAt_descriptions hnames hcolumns hrow hdescriptions, ?_, ?_, ?_⟩
  · rw [length_map]
    exact number?_of_placedAt hcount (i := 0) rfl (by omega)
  · rw [hwords, Nat.max_eq_right (Nat.zero_le 1), Nat.mul_one]
    exact (Nat.mod_le _ _).trans hrows
  · have hdataAt : offset + 4 + 28 * members.length = offset + 4 + 4 * (7 * members.length) := by
      omega
    rw [length_map, hdataAt, Nat.max_eq_right (Nat.zero_le 1), structRows_one,
      memberRows_structMember fun m hm => ?_]
    · exact readRows_of_placedAt hnarrow (by omega) hdata (by rwa [sum_flatMap_replicate]) _
    · have := hrow m hm
      rw [maxValueWords] at this
      omega
  · rw [hwords, wrap32, Nat.mod_eq_of_lt (Nat.lt_of_le_of_lt hrows (by decide))]

theorem makes_struct (hroot : Rooted b.data)
    (h : (struct name members values).Valid d) :
    Makes b (b.structValue name members (values.map UInt32.toNat))
      (structValue name members values) := by
  obtain ⟨hname, hmembers, hrows, hvalues⟩ := h
  have hgrows := b.extends_strings (members.map (·.1))
  have hmade : b.structValue name members (values.map UInt32.toNat) =
      (b.strings (members.map (·.1))).2.addBehind .void .struct name 0
        (numberBytes ([members.length] ++ (descriptions members
          (b.strings (members.map (·.1))).1 ++ values.map UInt32.toNat))) fun _ => 0 := rfl
  have hnamed : Makes (b.strings (members.map (·.1))).2
      (b.structValue name members (values.map UInt32.toNat)) (structValue name members values) := by
    refine makes_addBehind (hroot.trans hgrows.data) hname (.inl (by decide))
      (fun _ => Nat.zero_le _) fun base typeAt _ hbase _ hplaced _ => ?_
    have hnames := stringAt_strings (b := b)
      (forall_mem_map.mpr fun m hm => (hmembers m hm).1) hbase
    rw [forall₂_map_left_iff] at hnames
    exact .struct rfl (readStruct_of_placedAt hnames (fun m hm => (hmembers m hm).2) hrows hvalues
      hbase.size hplaced)
  exact ⟨hgrows.trans hnamed.grows, hnamed.denotes⟩

end ShaderPipeline.Effect
