import ShaderPipeline.Proofs.Effect.Blocks
import ShaderPipeline.Proofs.Effect.Members

/-!
# The types of values

The class and the element type of a value decide what it holds: rows of words, indices of objects or
the states of a sampler. Every value of an effect that was read, however deep it is nested, holds
what its type says, and objects that it refers to exist.

The words of a value are counted by multiplication, which wraps. So their number is the product of
the dimensions exactly if that product did not wrap.
-/

namespace ShaderPipeline.Effect

open List ElementType

variable {n : Nat} {ms : List Member}

/-! ### Values of an effect -/

/-- A value that is a number of levels of sampler states below another. -/
inductive Value.Below (v : Value) : Nat → Value → Prop
  | refl : Below v 0 v
  | state {n : Nat} {u : Value} {ss : List State} {s : State} (h : Below v n u)
      (data : u.data = .states ss) (mem : s ∈ ss) : Below v (n + 1) s.value

def Param.values (p : Param) : List Value := p.value :: p.annotations

def Pass.values (p : Pass) : List Value := p.annotations ++ p.states.map State.value

def Technique.values (t : Technique) : List Value := t.annotations ++ t.passes.flatMap Pass.values

/-- The values of an effect that are not inside of others. -/
def values (e : Effect) : List Value :=
  e.params.flatMap Param.values ++ e.techniques.flatMap Technique.values

/-! ### What a type says -/

def structSize (ms : List Member) : Nat :=
  (ms.map fun m => 4 * m.info.rows * max m.info.elements 1).sum

namespace Value

variable (objects : Nat) (v : Value)

/-- A value with rows of numbers. -/
structure HoldsNumbers : Prop where
  elem : v.info.elem.isNumeric = true
  columns : v.info.columns ≤ 4
  words : ∃ ws, v.data = .registers ws ∧ Padded v.info.columns ws ∧
    ws.length = 4 * v.info.rows * max v.info.elements 1 % 2 ^ 64

/-- A structure, or an array of structures. -/
structure HoldsStruct : Prop where
  rows : v.info.rows = 1
  members : ∀ m ∈ v.info.members, m.Plain
  columns : v.info.columns = structWords v.info.members % 2 ^ 32
  words : ∃ ws, v.data = .registers ws ∧
    ws.length = structWords v.info.members * max v.info.elements 1

/-- A sampler. Its textures are among so many objects. -/
structure HoldsStates : Prop where
  elem : v.info.elem.isSampler = true
  states : ∃ ss, v.data = .states ss ∧ ∀ s ∈ ss, s.code = textureState →
    ∃ w, s.value.firstWord? = some w ∧ w.toNat < objects

/-- A value with objects, which are among so many. -/
structure HoldsObjects : Prop where
  elem : v.info.elem.isSampler = false
  lower : string.code ≤ v.info.elem.code
  upper : v.info.elem.code ≤ vertexShader.code
  indices : ∃ ws, v.data = .objects ws ∧ ws.length = max v.info.elements 1 ∧
    ∀ w ∈ ws, w.toNat < objects

def WellTyped : Prop :=
  match v.info.cls with
  | .object => v.HoldsStates objects ∨ v.HoldsObjects objects
  | .struct => v.HoldsStruct
  | _ => v.HoldsNumbers

def Counted : Prop :=
  match v.info.cls with
  | .object => True
  | .struct => v.info.columns = structSize v.info.members ∧
      v.count = v.info.columns * max v.info.elements 1
  | _ => v.count = 4 * v.info.rows * max v.info.elements 1

/-- The dimensions of a value have a product, for a structure a sum of products, that does not
wrap. -/
def Countable : Prop :=
  match v.info.cls with
  | .object => True
  | .struct => structSize v.info.members < 2 ^ 32
  | _ => 4 * v.info.rows * max v.info.elements 1 < 2 ^ 64

end Value

/-! ### Counts -/

theorem length_wordsOfBytes {bs : List UInt8} (h : bs.length = n * 4) :
    (wordsOfBytes bs).length = n := by
  have hbytes : bytesOfWords (wordsOfBytes bs) = bs := bytesOfWords_wordsOfBytes (by omega)
  have hlength := length_bytesOfWords (wordsOfBytes bs)
  rw [hbytes, h] at hlength
  omega

theorem size_of_slice? {base bytes : Bytes} {offset len : Nat}
    (h : slice? base offset len = some bytes) : bytes.size = len := by
  rw [slice?] at h
  split at h
  · cases h
    rw [Array.size_extract]
    omega
  · cases h

theorem code_ofCode (h : n ≤ vertexShader.code) : (ofCode n).code = n := by
  have hall : ∀ k ≤ 16, (ofCode k).code = k := by decide
  exact hall n h

theorem length_memberRows (h : ∀ m ∈ ms, m.words ≤ maxValueWords) :
    4 * (memberRows ms).length = structWords ms := by
  induction ms with
  | nil => rfl
  | cons m ms ih =>
    rw [forall_mem_cons] at h
    have hrest := ih h.2
    have hfirst : 4 * (m.info.rows * max m.info.elements 1 % 2 ^ 32) = m.words := by
      have hsmall := h.1
      rw [Member.words, maxValueWords, Nat.mul_assoc] at hsmall
      rw [Member.words, Nat.mul_assoc]
      omega
    rw [memberRows, flatMap_cons, length_append, length_replicate, Nat.mul_add, hfirst]
    exact congrArg (m.words + ·) hrest

theorem length_structRows : (structRows n ms).length = n * (memberRows ms).length := by
  rw [structRows]
  split
  case h_1 h => rw [h, length_nil, Nat.mul_zero]
  case h_2 => rw [length_flatten, map_replicate, sum_replicate_nat]

/-- Members whose sizes do not wrap in sum do not wrap one by one. -/
theorem structWords_eq_structSize (h : structSize ms < 2 ^ 32) :
    structWords ms = structSize ms := by
  induction ms with
  | nil => rfl
  | cons m ms ih =>
    rw [structSize, map_cons, sum_cons] at h
    have hrest : structWords ms = structSize ms := ih (by rw [structSize]; omega)
    have hfirst : m.words = 4 * m.info.rows * max m.info.elements 1 := Nat.mod_eq_of_lt (by omega)
    rw [structWords, structSize, map_cons, sum_cons, map_cons, sum_cons, hfirst]
    exact congrArg (4 * m.info.rows * max m.info.elements 1 + ·) hrest

namespace Value

variable {objects : Nat} {v : Value}

theorem HoldsNumbers.count_eq_iff (h : v.HoldsNumbers) :
    v.count = 4 * v.info.rows * max v.info.elements 1 ↔
      4 * v.info.rows * max v.info.elements 1 < 2 ^ 64 := by
  obtain ⟨ws, hdata, -, hlength⟩ := h.words
  have hcount : v.count = ws.length := by rw [count, hdata]
  rw [hcount, hlength]
  exact ⟨fun h => h ▸ Nat.mod_lt _ (by decide), Nat.mod_eq_of_lt⟩

theorem HoldsStruct.counted_iff (h : v.HoldsStruct) :
    v.info.columns = structSize v.info.members ∧
        v.count = v.info.columns * max v.info.elements 1 ↔
      structSize v.info.members < 2 ^ 32 := by
  obtain ⟨ws, hdata, hlength⟩ := h.words
  have hcount : v.count = ws.length := by rw [count, hdata]
  constructor
  · rintro ⟨hcolumns, -⟩
    rw [← hcolumns, h.columns]
    exact Nat.mod_lt _ (by decide)
  · intro hsize
    have hwords := structWords_eq_structSize hsize
    have hcolumns : v.info.columns = structSize v.info.members := by
      rw [h.columns, hwords, Nat.mod_eq_of_lt hsize]
    exact ⟨hcolumns, by rw [hcount, hlength, hwords, hcolumns]⟩

/-- What is well typed has its words counted right exactly if its dimensions do not wrap. -/
theorem WellTyped.counted_iff (h : v.WellTyped objects) : v.Counted ↔ v.Countable := by
  unfold WellTyped at h
  unfold Counted Countable
  split at h
  case h_1 => exact Iff.rfl
  case h_2 => exact h.counted_iff
  case h_3 => exact h.count_eq_iff

end Value

/-! ### Values that stand in a container -/

section Stored

variable {base : Bytes} {levels typeAt valueAt offset objects : Nat} {v : Value} {ss : List State}
  {Values : (typeAt valueAt : Nat) → Value → Prop} {elem : ElementType}

theorem StatesAt.exists_of_mem (h : StatesAt base Values offset ss) {s : State} (hs : s ∈ ss) :
    ∃ typeAt valueAt, Values typeAt valueAt s.value := by
  induction h with
  | nil => exact nomatch hs
  | cons _ _ _ value _ _ ih =>
    rcases mem_cons.mp hs with rfl | hs
    · exact ⟨_, _, value⟩
    · exact ih hs

theorem State.typed_subset {s : State} (hs : s ∈ ss) : s.value.typed ⊆ State.typed elem ss := by
  induction ss with
  | nil => exact nomatch hs
  | cons t ss ih =>
    obtain ⟨code, v⟩ := t
    rw [State.typed]
    rcases mem_cons.mp hs with rfl | hs
    · exact fun x hx => mem_append_left _ (mem_append_left _ hx)
    · exact fun x hx => mem_append_right _ (ih hs hx)

/-- A texture that is bound to a sampler has its index in the first word. -/
theorem StatesAt.textures (h : StatesAt base Values offset ss)
    (htyped : ∀ x ∈ State.typed elem ss, x.1 < objects) :
    ∀ s ∈ ss, s.code = textureState → ∃ w, s.value.firstWord? = some w ∧ w.toNat < objects := by
  induction h with
  | nil => nofun
  | cons _ _ _ _ texture _ ih =>
    rw [State.typed, forall_mem_append, forall_mem_append] at htyped
    refine forall_mem_cons.mpr ⟨fun hcode => ?_, ih htyped.2⟩
    obtain ⟨w, hw⟩ := Option.ne_none_iff_exists'.mp (texture hcode)
    refine ⟨w, hw, htyped.1.2 (w.toNat, elem) ?_⟩
    rw [if_pos hcode, hw]
    exact mem_singleton_self _

theorem Value.wellTyped_of_numeric (hcls : v.info.cls.isNumeric = true) (h : v.HoldsNumbers) :
    v.WellTyped objects := by
  unfold WellTyped
  split
  case h_1 hobject => exact nomatch hobject ▸ hcls
  case h_2 hstruct => exact nomatch hstruct ▸ hcls
  case h_3 => exact h

theorem ValueAt.wellTyped (h : ValueAt base levels typeAt valueAt v)
    (htyped : ∀ x ∈ v.typed, x.1 < objects) : v.WellTyped objects := by
  obtain _ | levels := levels
  · exact h.elim
  obtain ⟨head, -, -, -, hdata⟩ := h
  obtain ⟨name, semantic, info, data⟩ := v
  rw [Value.typed] at htyped
  dsimp only at hdata
  cases hdata with
  | numeric cls elem _ _ size narrow wordsAt =>
    obtain ⟨rfl, -⟩ := valueWords_eq_ok.mp size
    obtain ⟨-, rfl⟩ := readRows_eq_ok.mp wordsAt
    refine Value.wellTyped_of_numeric cls ⟨elem, narrow, _, rfl, padded_rowsFrom, ?_⟩
    rw [length_rowsFrom, length_replicate, Nat.mul_assoc]
    omega
  | struct cls structAt =>
    obtain ⟨ms, -, hlisted, -, hwords, rfl⟩ := readStruct_eq_ok.mp structAt
    obtain ⟨-, rfl⟩ := readRows_eq_ok.mp hwords
    have hmembers := hlisted.exists_of_mem
    rw [Value.WellTyped]
    dsimp only
    rw [cls]
    refine ⟨rfl, fun m hm => (hmembers m hm).choose_spec.plain, rfl, _, rfl, ?_⟩
    have hlength := length_memberRows fun m hm => (hmembers m hm).choose_spec.small
    rw [length_rowsFrom, length_structRows, ← hlength, Nat.mul_comm (max _ _), ← Nat.mul_assoc]
  | objects cls elem lower upper indicesAt =>
    have hcode : head.info.elem.code = head.code := code_ofCode upper
    rw [Value.WellTyped]
    dsimp only
    rw [cls]
    refine .inr ⟨elem, hcode ▸ lower, hcode ▸ upper, _, rfl, ?_, ?_⟩
    · exact length_wordsOfBytes (by rw [Array.length_toList, size_of_slice? indicesAt])
    · exact fun w hw => htyped (w.toNat, head.info.elem) (mem_map_of_mem hw)
  | states cls elem statesAt =>
    rw [Value.WellTyped]
    dsimp only
    rw [cls]
    exact .inl ⟨elem, _, rfl, statesAt.2.textures htyped⟩

theorem ValueAt.below {u : Value} (h : ValueAt base levels typeAt valueAt v)
    (hbelow : v.Below n u) :
    ∃ rest typeAt valueAt, levels = rest + n ∧ ValueAt base rest typeAt valueAt u ∧
      u.typed ⊆ v.typed := by
  induction hbelow with
  | refl => exact ⟨levels, typeAt, valueAt, rfl, h, fun _ hx => hx⟩
  | @state n u ss s _ data mem ih =>
    obtain ⟨rest, typeAt, valueAt, hlevels, hu, htyped⟩ := ih
    obtain _ | rest := rest
    · exact hu.elim
    obtain ⟨head, -, -, -, hdata⟩ := hu
    obtain ⟨name, semantic, info, _⟩ := u
    obtain rfl : _ = ValueData.states ss := data
    obtain _ | _ | _ | ⟨_, _, statesAt⟩ := hdata
    obtain ⟨typeAt, valueAt, hs⟩ := statesAt.2.exists_of_mem mem
    refine ⟨rest, typeAt, valueAt, by omega, hs, fun x hx => htyped ?_⟩
    exact State.typed_subset mem hx

end Stored

/-! ### Effects that were read -/

def Stands (base : Bytes) (v : Value) : Prop :=
  ∃ typeAt valueAt, ValueAt base (maxDepth + 1) typeAt valueAt v

section Entries

variable {base : Bytes} {position : Nat}

theorem AnnotationsAt.stands {vs : List Value} (h : AnnotationsAt base position vs) :
    ∀ v ∈ vs, Stands base v := by
  intro v hv
  obtain ⟨-, typeAt, valueAt, -, -, hvalue⟩ := ListedAt.exists_of_mem h v hv
  exact ⟨typeAt, valueAt, hvalue⟩

theorem subset_annotationTypes {vs : List Value} {v : Value} (hv : v ∈ vs) :
    v.typed ⊆ annotationTypes vs :=
  fun _ hx => mem_flatMap.mpr ⟨v, hv, hx⟩

theorem ParamAt.stands {p : Param} (h : ParamAt base position p) :
    ∀ v ∈ p.values, Stands base v ∧ v.typed ⊆ p.typed := by
  refine forall_mem_cons.mpr ⟨⟨?_, ?_⟩, fun v hv => ⟨h.annotations.stands v hv, ?_⟩⟩
  · obtain ⟨typeAt, valueAt, -, -, hvalue⟩ := h.value
    exact ⟨typeAt, valueAt, hvalue⟩
  · exact subset_append_right _ _
  · exact subset_append_of_subset_left _ (subset_annotationTypes hv)

theorem PassAt.stands {p : Pass} (h : PassAt base position p) :
    ∀ v ∈ p.values, Stands base v ∧ v.typed ⊆ p.objectTypes := by
  refine forall_mem_append.mpr ⟨fun v hv => ⟨h.annotations.stands v hv, ?_⟩, ?_⟩
  · exact subset_append_of_subset_left _ (subset_annotationTypes hv)
  · refine forall_mem_map.mpr fun s hs => ⟨?_, ?_⟩
    · obtain ⟨-, -, -, typeAt, valueAt, -, -, hvalue⟩ := h.states.exists_of_mem s hs
      exact ⟨typeAt, valueAt, hvalue⟩
    · exact fun x hx => mem_append_right _ (mem_flatMap.mpr ⟨s, hs, hx⟩)

theorem TechniqueAt.stands {t : Technique} (h : TechniqueAt base position t) :
    ∀ v ∈ t.values, Stands base v ∧ v.typed ⊆ t.objectTypes := by
  refine forall_mem_append.mpr ⟨fun v hv => ⟨h.annotations.stands v hv, ?_⟩, fun v hv => ?_⟩
  · exact subset_append_of_subset_left _ (subset_annotationTypes hv)
  · obtain ⟨p, hp, hv⟩ := mem_flatMap.mp hv
    obtain ⟨_, hpass⟩ := h.passes.exists_of_mem p hp
    obtain ⟨hstands, htyped⟩ := hpass.stands v hv
    exact ⟨hstands, fun x hx =>
      mem_append_right _ (mem_flatMap.mpr ⟨p, hp, htyped hx⟩)⟩

theorem ContentsAt.stands {c : Contents} (h : ContentsAt base position c) :
    ∀ v ∈ c.params.flatMap Param.values ++ c.techniques.flatMap Technique.values,
      Stands base v ∧ v.typed ⊆ c.objectTypes := by
  refine forall_mem_append.mpr ⟨fun v hv => ?_, fun v hv => ?_⟩
  · obtain ⟨p, hp, hv⟩ := mem_flatMap.mp hv
    obtain ⟨_, hparam⟩ := h.params.exists_of_mem p hp
    obtain ⟨hstands, htyped⟩ := hparam.stands v hv
    exact ⟨hstands, fun x hx =>
      mem_append_left _ (mem_flatMap.mpr ⟨p, hp, htyped hx⟩)⟩
  · obtain ⟨t, ht, hv⟩ := mem_flatMap.mp hv
    obtain ⟨_, htechnique⟩ := h.techniques.exists_of_mem t ht
    obtain ⟨hstands, htyped⟩ := htechnique.stands v hv
    exact ⟨hstands, fun x hx =>
      mem_append_right _ (mem_flatMap.mpr ⟨t, ht, htyped hx⟩)⟩

end Entries

/-- The type of an array of `2 ^ 31` elements with as many rows each. -/
def wrappingInfo : TypeInfo := ⟨.scalar, .float, 2 ^ 31, 1, 2 ^ 31, []⟩

def wrappingParameter : Bytes :=
  (numberBytes [magic, 32, 0, wrappingInfo.elem.code, wrappingInfo.cls.code, 0, 0,
    wrappingInfo.elements, wrappingInfo.columns, wrappingInfo.rows, 1, 0, 0, 0, 4, 0, 0, 0, 0,
    0]).toArray

end ShaderPipeline.Effect
