import ShaderPipeline.Proofs.Effect.Blocks
import ShaderPipeline.Proofs.Effect.Values

/-!
# The table of contents of a builder

Parameters and techniques are entries of numbers, each of which refers to values and names in front
of the table. Behind them stand the small objects. An object gets its type while the values are
read, and its text while the small objects are; in both the last one wins.
-/

namespace ShaderPipeline.Effect

open List Builder Option Technique

variable {p : Nat × List StateEntry} {q : Pass} {t : Nat × List (Nat × List StateEntry)}
  {u : Technique} {position : Nat} {o : Nat × List UInt8} {small : List (Nat × List UInt8)}

variable {base : Bytes} (objects : Array Object)

/-! ### Entries -/

def Textual (type : ElementType) : Prop :=
  type = .string ∨ type.isTexture = true ∨ type.isSampler = true

/-- A value that an entry may refer to: it is not nested too deeply, and the objects it names are
no shaders. -/
structure Value.Fits (v : Value) : Prop where
  depth : v.depth ≤ maxDepth
  textual : ∀ x ∈ v.typed, Textual x.2

/-- The value stands at the reference. -/
structure Refers (base : Bytes) (r : ValueRef) (v : Value) : Prop where
  typeAt : r.typeAt < 2 ^ 32
  valueAt : r.valueAt < 2 ^ 32
  stands : ValueAt base (maxDepth + 1) r.typeAt r.valueAt v
  textual : ∀ x ∈ v.typed, Textual x.2

theorem Denotes.refers {data : List UInt8} {r : ValueRef} {v : Value} (h : Denotes data r v)
    (hfits : v.Fits) (hbase : Holds base data) : Refers base r v where
  typeAt := Nat.lt_of_le_of_lt (Nat.le_trans h.typeAt hbase.length_le) hbase.size
  valueAt := Nat.lt_of_le_of_lt (Nat.le_trans h.valueAt hbase.length_le) hbase.size
  stands := h.stands base hbase _ (Nat.lt_succ_of_le hfits.depth)
  textual := hfits.textual

/-- The text is read from the offset. -/
structure NameRefers (base : Bytes) (nameAt : Nat) (name : Option String) : Prop where
  lt : nameAt < 2 ^ 32
  text : stringAt base nameAt = .ok name

/-- A parameter and its annotations. -/
structure ParamRefers (base : Bytes) (p : ValueRef × List ValueRef) (q : Param) : Prop where
  value : Refers base p.1 q.value
  annotations : List.Forall₂ (Refers base) p.2 q.annotations

/-- A state. -/
structure StateRefers (base : Bytes) (s : StateEntry) (t : State) : Prop where
  code : s.1 = t.code
  lt : s.1 < 2 ^ 32
  value : Refers base s.2 t.value

/-- A pass. -/
structure PassRefers (base : Bytes) (p : Nat × List StateEntry) (q : Pass) : Prop where
  name : NameRefers base p.1 q.name
  states : List.Forall₂ (StateRefers base) p.2 q.states
  annotations : q.annotations = []

/-- A technique. -/
structure TechniqueRefers (base : Bytes) (t : Nat × List (Nat × List StateEntry)) (u : Technique) :
    Prop where
  name : NameRefers base t.1 u.name
  passes : List.Forall₂ (PassRefers base) t.2 u.passes
  annotations : u.annotations = []

theorem forall_mem_of_forall₂ {α β : Type} {R : α → β → Prop} {xs : List α} {ys : List β}
    (h : List.Forall₂ R xs ys) {P : β → Prop} (hP : ∀ x y, R x y → P y) : ∀ y ∈ ys, P y := by
  induction h with
  | nil => nofun
  | cons hfirst _ ih => exact forall_mem_cons.mpr ⟨hP _ _ hfirst, ih⟩

theorem ParamRefers.textual {p : ValueRef × List ValueRef} {q : Param} (h : ParamRefers base p q) :
    ∀ x ∈ q.typed, Textual x.2 := by
  rw [Param.typed, List.forall_mem_append, List.forall_mem_flatMap]
  exact ⟨forall_mem_of_forall₂ h.annotations fun _ _ ha => ha.textual, h.value.textual⟩

theorem PassRefers.textual (h : PassRefers base p q) : ∀ x ∈ q.typed, Textual x.2 := by
  rw [Pass.typed, List.forall_mem_flatMap]
  exact forall_mem_of_forall₂ h.states fun _ _ hs => hs.value.textual

theorem TechniqueRefers.textual (h : TechniqueRefers base t u) : ∀ x ∈ u.typed, Textual x.2 := by
  rw [typed, List.forall_mem_flatMap]
  exact forall_mem_of_forall₂ h.passes fun _ _ hp => hp.textual

theorem PassRefers.objectTypes_eq (h : PassRefers base p q) : q.objectTypes = q.typed := by
  rw [Pass.objectTypes, h.annotations]
  rfl

theorem TechniqueRefers.objectTypes_eq (h : TechniqueRefers base t u) :
    u.objectTypes = u.typed := by
  rw [objectTypes, h.annotations, typed]
  exact flatMap_congr (forall_mem_of_forall₂ h.passes fun _ _ hp => hp.objectTypes_eq)

def paramWords (p : ValueRef × List ValueRef) : List Nat :=
  [p.1.typeAt, p.1.valueAt, 0, p.2.length] ++ p.2.flatMap fun a => [a.typeAt, a.valueAt]

def passWords (p : Nat × List StateEntry) : List Nat :=
  [p.1, 0, p.2.length] ++ Builder.stateWords p.2

def techniqueWords (t : Nat × List (Nat × List StateEntry)) : List Nat :=
  [t.1, 0, t.2.length] ++ t.2.flatMap passWords

/-! ### Numbers of entries -/

theorem length_le_flatMap {α β : Type} {f : α → List β} (hf : ∀ a, f a ≠ []) (l : List α) :
    l.length ≤ (l.flatMap f).length := by
  induction l with
  | nil => exact Nat.le_refl 0
  | cons a l ih =>
    have := length_pos_iff.mpr (hf a)
    rw [flatMap_cons, length_append, length_cons]
    omega

/-- An entry stands wherever its numbers do. -/
structure Spells {α : Type} (base : Bytes) (At : (position : Nat) → α → Prop) (size : α → Nat)
    (ns : List Nat) (a : α) : Prop where
  size_eq : size a = 4 * ns.length
  stands : ∀ position, PlacedAt base position (numberBytes ns) → At position a

/-- Entries stand one behind the other if their numbers do. -/
theorem spells_list {ι α : Type} {At : Nat → α → Prop} {size : α → Nat} {words : ι → List Nat}
    {xs : List ι} {ys : List α}
    (h : List.Forall₂ (fun x y => Spells base At size (words x) y) xs ys) :
    Spells base (ListedAt At size) (fun l => (l.map size).sum) (xs.flatMap words) ys := by
  induction h with
  | nil => exact ⟨rfl, fun _ _ => trivial⟩
  | cons hfirst _ ih =>
    refine ⟨?_, fun position hplaced => ?_⟩
    · rw [map_cons, sum_cons, hfirst.size_eq, ih.size_eq, flatMap_cons, length_append, Nat.mul_add]
    · rw [flatMap_cons, placedAt_numbers_append] at hplaced
      refine ⟨hfirst.stands _ hplaced.1, ih.stands _ ?_⟩
      rw [hfirst.size_eq]
      exact hplaced.2

theorem Refers.referredAt {r : ValueRef} {v : Value} (h : Refers base r v) {i : Nat}
    {ns : List Nat} (hplaced : PlacedAt base position (numberBytes ns))
    (htypeAt : ns[i]? = some r.typeAt) (hvalueAt : ns[i + 1]? = some r.valueAt) :
    ReferredAt base (position + 4 * i) v :=
  ⟨_, _, number?_of_placedAt hplaced htypeAt h.typeAt,
    number?_of_placedAt hplaced hvalueAt h.valueAt, h.stands⟩

/-- The numbers of entries are no more than the words of a byte string. -/
theorem length_lt_of_placedAt (hbase : base.size < 2 ^ 32) {ns : List Nat}
    (h : PlacedAt base position (numberBytes ns)) : ns.length < 2 ^ 32 := by
  by_cases hpos : 0 < (numberBytes ns).length
  · have := h.le_size hpos
    rw [length_numberBytes] at this
    omega
  · rw [length_numberBytes] at hpos
    omega

theorem spells_annotations {as : List ValueRef} {vs : List Value}
    (h : List.Forall₂ (Refers base) as vs) :
    Spells base (AnnotationsAt base) (fun l => (l.map fun _ => 8).sum)
      (as.flatMap fun a => [a.typeAt, a.valueAt]) vs :=
  spells_list (h.imp fun _ _ hv => ⟨rfl, fun _ hplaced => hv.referredAt (i := 0) hplaced rfl rfl⟩)

theorem length_paramWords (p : ValueRef × List ValueRef) :
    (paramWords p).length = 4 + 2 * p.2.length := by
  have hrefs : (p.2.flatMap fun a => [a.typeAt, a.valueAt]).length = 2 * p.2.length := by
    simp [Nat.mul_comm]
  rw [paramWords, length_append, hrefs]
  rfl

theorem spells_param (hbase : base.size < 2 ^ 32) {p : ValueRef × List ValueRef} {q : Param}
    (h : ParamRefers base p q) :
    Spells base (ParamAt base) Param.tableSize (paramWords p) q where
  size_eq := by
    rw [Param.tableSize, length_paramWords, h.annotations.length_eq]
    omega
  stands position hplaced := by
    have hshort := length_lt_of_placedAt hbase hplaced
    obtain ⟨hfront, hannotations⟩ := placedAt_numbers_append.mp hplaced
    have hcount : p.2.length < 2 ^ 32 := by
      rw [length_paramWords] at hshort
      omega
    exact {
      value := h.value.referredAt (i := 0) hfront rfl rfl
      flags := ⟨0, number?_of_placedAt hfront (i := 2) rfl (by decide)⟩
      count := h.annotations.length_eq ▸ number?_of_placedAt hfront (i := 3) rfl hcount
      annotations := (spells_annotations h.annotations).stands _ hannotations }

theorem spells_passState {s : StateEntry} {t : State} (h : StateRefers base s t) :
    Spells base (PassStateAt base) (fun _ => 16) [s.1, 0, s.2.typeAt, s.2.valueAt] t where
  size_eq := rfl
  stands position hplaced := {
    code := h.code ▸ number?_of_placedAt hplaced (i := 0) rfl h.lt
    unused := ⟨0, number?_of_placedAt hplaced (i := 1) rfl (by decide)⟩
    value := h.value.referredAt (i := 2) hplaced rfl rfl }

theorem spells_pass (hbase : base.size < 2 ^ 32) (h : PassRefers base p q) :
    Spells base (PassAt base) Pass.tableSize (passWords p) q := by
  have hstates : Spells base (ListedAt (PassStateAt base) fun _ => 16)
      (fun l => (l.map fun _ => 16).sum) (stateWords p.2) q.states :=
    spells_list (h.states.imp fun _ _ => spells_passState)
  obtain ⟨name, states, annotations⟩ := q
  obtain rfl : annotations = [] := h.annotations
  refine ⟨?_, fun position hplaced => ?_⟩
  · rw [Pass.tableSize, passWords, length_append, length_stateWords, h.states.length_eq,
      Nat.mul_add, ← Nat.mul_assoc]
    rfl
  · have hshort := length_lt_of_placedAt hbase hplaced
    obtain ⟨hfront, hrest⟩ := placedAt_numbers_append.mp hplaced
    have hcount : p.2.length < 2 ^ 32 := by
      rw [passWords, length_append, length_stateWords] at hshort
      omega
    exact {
      name := ⟨_, number?_of_placedAt hfront (i := 0) rfl h.name.lt, h.name.text⟩
      annotationCount := number?_of_placedAt (n := 0) hfront (i := 1) rfl (by decide)
      stateCount := h.states.length_eq ▸ number?_of_placedAt hfront (i := 2) rfl hcount
      annotations := trivial
      states := hstates.stands _ hrest }

theorem spells_technique (hbase : base.size < 2 ^ 32) (h : TechniqueRefers base t u) :
    Spells base (TechniqueAt base) tableSize (techniqueWords t) u := by
  have hpasses := spells_list (h.passes.imp fun _ _ => spells_pass hbase)
  obtain ⟨name, passes, annotations⟩ := u
  obtain rfl : annotations = [] := h.annotations
  refine ⟨?_, fun position hplaced => ?_⟩
  · rw [tableSize, hpasses.size_eq, techniqueWords, length_append, Nat.mul_add]
    rfl
  · have hshort := length_lt_of_placedAt hbase hplaced
    obtain ⟨hfront, hrest⟩ := placedAt_numbers_append.mp hplaced
    have hcount : t.2.length < 2 ^ 32 := by
      have := length_le_flatMap (f := passWords) (fun _ => cons_ne_nil _ _) t.2
      rw [techniqueWords, length_append] at hshort
      omega
    exact {
      name := ⟨_, number?_of_placedAt hfront (i := 0) rfl h.name.lt, h.name.text⟩
      annotationCount := number?_of_placedAt (n := 0) hfront (i := 1) rfl (by decide)
      passCount := h.passes.length_eq ▸ number?_of_placedAt hfront (i := 2) rfl hcount
      annotations := trivial
      passes := hpasses.stands _ hrest }

/-! ### Small objects -/

/-- Gives a text to an object, unless it is empty. -/
def fill (o : Nat × List UInt8) : Array Object :=
  if o.2.isEmpty then objects
  else objects.modify o.1 fun x => { x with data := textData x.type o.2 }

theorem smallBlock?_of_placedAt (hbase : base.size < 2 ^ 32) (ho : o.1 < 2 ^ 32)
    (hplaced : PlacedAt base position (smallBytes o)) :
    smallBlock? base position =
      some (.small o.1 o.2.toArray, position + (smallBytes o).length) := by
  have hsize := hplaced.le_size (by simp [smallBytes])
  have hlength : (smallBytes o).length = 8 + (padded o.2).length := by
    rw [smallBytes, length_append, length_numberBytes]
    rfl
  have hpadded : (o.2.length + 3) / 4 * 4 = (padded o.2).length := by
    rw [padded, length_append, length_replicate]
    omega
  obtain ⟨hnumbers, hblock⟩ := placedAt_append.mp hplaced
  have hbytes : PlacedAt base (position + 8) o.2 := (placedAt_append.mp hblock).1
  refine smallBlock?_eq_some.mpr ⟨o.1, o.2.length, o.2.toArray,
    number?_of_placedAt hnumbers (i := 0) rfl ho,
    number?_of_placedAt hnumbers (i := 1) rfl (by omega), hbytes.slice? (by omega), rfl, ?_⟩
  rw [blockEnd, hpadded, hlength, Nat.min_eq_left (by omega), Nat.add_assoc]

theorem blocks?_of_placedAt (hbase : base.size < 2 ^ 32) (hsmall : ∀ o ∈ small, o.1 < 2 ^ 32)
    (hplaced : PlacedAt base position (small.flatMap smallBytes)) :
    blocks? (smallBlock? base) small.length position =
      some (small.map fun o => .small o.1 o.2.toArray,
        position + (small.flatMap smallBytes).length) := by
  induction small generalizing position with
  | nil => rfl
  | cons o small ih =>
    rw [forall_mem_cons] at hsmall
    rw [flatMap_cons, placedAt_append] at hplaced
    refine blocks?_succ_eq_some.mpr ⟨_, _, _, smallBlock?_of_placedAt hbase hsmall.1 hplaced.1, ?_,
      rfl⟩
    rw [ih hsmall.2 hplaced.2, flatMap_cons, length_append, Nat.add_assoc]

section Filling

variable {c : LinkContext} {k : Linkage}

theorem fillText_eq {wrap : String → ObjectData} {x : Object} (hx : k.objects[o.1]? = some x)
    (hwrap : wrap (lossyTextUntilZero o.2) = textData x.type o.2) :
    k.fillText o.1 wrap o.2.toArray = { k with objects := fill k.objects o } := by
  by_cases hempty : o.2.isEmpty = true
  · rw [Linkage.fillText, fill, if_pos hempty, if_pos (by simpa using hempty)]
  · rw [Linkage.fillText, fill, if_neg hempty, if_neg (by simpa using hempty), Linkage.fill]
    congr 1
    apply Array.ext_getElem?
    intro i
    rw [Array.getElem?_modify, Array.getElem?_modify]
    split
    case isTrue hi =>
      subst hi
      rw [hx, map_some, map_some, hwrap]
    case isFalse => rfl

theorem fills_small {x : Object} (hx : k.objects[o.1]? = some x) (htype : Textual x.type) :
    Fills c k (.small o.1 o.2.toArray) { k with objects := fill k.objects o } := by
  by_cases hstring : x.type = .string
  · have hfill := Fills.string (c := c) (k := k) (b := .small o.1 o.2.toArray) rfl hx hstring
    rwa [ObjectBlock.bytes, fillText_eq hx (by rw [textData, if_pos hstring])] at hfill
  · have hother : (x.type.isTexture || x.type.isSampler) = true := by
      rw [Bool.or_eq_true]
      exact htype.resolve_left hstring
    have hfill := Fills.mapping (c := c) (k := k) (b := .small o.1 o.2.toArray) rfl hx hother
    rwa [ObjectBlock.bytes, fillText_eq hx (by rw [textData, if_neg hstring])] at hfill

end Filling

/-! ### The last one wins -/

theorem lastFor?_cons {α : Type} (n : Nat) (x : Nat × α) (xs : List (Nat × α)) :
    lastFor? n (x :: xs) = (lastFor? n xs).or (if x.1 = n then some x.2 else none) := by
  rw [lastFor?, reverse_cons, List.find?_append, map_or, lastFor?]
  by_cases hx : x.1 = n
  · rw [if_pos hx, find?_cons_of_pos (by simpa using hx)]
    rfl
  · rw [if_neg hx, find?_cons_of_neg (by simpa using hx)]
    rfl

/-- The type of an object is the last one it was given. -/
theorem getElem?_record (types : Array ElementType) (typed : List (Nat × ElementType)) (n : Nat) :
    (record types typed)[n]? = types[n]?.map fun t => (lastFor? n typed).getD t := by
  induction typed generalizing types with
  | nil => simp [record, lastFor?]
  | cons x typed ih =>
    rw [record, foldl_cons, ← record, ih, lastFor?_cons, Array.getElem?_setIfInBounds]
    by_cases hx : x.1 = n
    · subst hx
      rw [if_pos rfl, if_pos rfl]
      by_cases hn : x.1 < types.size
      · rw [if_pos hn, Array.getElem?_eq_getElem hn]
        cases lastFor? x.1 typed <;> rfl
      · rw [if_neg hn, Array.getElem?_eq_none (Nat.not_lt.mp hn)]
        rfl
    · rw [if_neg hx, if_neg hx, or_none]

/-- The text of an object is the last one it was given that is not empty. -/
theorem getElem?_fill (small : List (Nat × List UInt8)) (objects : Array Object) (n : Nat) :
    (small.foldl fill objects)[n]? = objects[n]?.map fun x =>
      match lastFor? n (small.filter fun o => !o.2.isEmpty) with
      | none => x
      | some bytes => { x with data := textData x.type bytes } := by
  induction small generalizing objects with
  | nil => simp [lastFor?]
  | cons o small ih =>
    rw [foldl_cons, ih, fill]
    by_cases hempty : o.2.isEmpty = true
    · rw [if_pos hempty, filter_cons_of_neg (by simp [hempty])]
    · rw [if_neg hempty, filter_cons_of_pos (by simpa using hempty), lastFor?_cons,
        Array.getElem?_modify]
      by_cases hn : o.1 = n
      · rw [if_pos hn, if_pos hn, Option.map_map]
        cases lastFor? n (small.filter fun o => !o.2.isEmpty) <;> rfl
      · rw [if_neg hn, if_neg hn, or_none]

/-- Texts change no types. -/
theorem type_fill (o : Nat × List UInt8) (n : Nat) :
    (fill objects o)[n]?.map Object.type = objects[n]?.map Object.type := by
  have h := getElem?_fill [o] objects n
  rw [foldl_cons, foldl_nil] at h
  rw [h, Option.map_map]
  refine congrArg (Option.map · _) (funext fun x => ?_)
  split <;> rfl

theorem fillsAll_small {c : LinkContext} {k : Linkage}
    (hsmall : ∀ o ∈ small, ∃ t, k.objects[o.1]?.map Object.type = some t ∧ Textual t) :
    FillsAll c k (small.map fun o => .small o.1 o.2.toArray)
      { k with objects := small.foldl fill k.objects } := by
  induction small generalizing k with
  | nil => exact .nil
  | cons o small ih =>
    rw [forall_mem_cons] at hsmall
    obtain ⟨⟨t, htype, htextual⟩, hsmall⟩ := hsmall
    obtain ⟨x, hx, rfl⟩ := map_eq_some_iff.mp htype
    refine .cons (fills_small hx htextual) (ih (k := { k with objects := fill k.objects o }) ?_)
    intro p hp
    rw [type_fill]
    exact hsmall p hp

/-! ### Objects -/

namespace Draft

variable (d : Draft)

/-- The objects before any of them has a text. -/
def typedObjects : Array Object :=
  (record (Array.replicate d.objectCount .void) d.typed).map fun t => ⟨t, .none⟩

theorem getElem?_typedObjects (n : Nat) :
    d.typedObjects[n]? = if n < d.objectCount then some ⟨d.objectType n, .none⟩ else none := by
  rw [typedObjects, Array.getElem?_map, getElem?_record, Array.getElem?_replicate]
  split <;> rfl

theorem exists_objectType_eq {n : Nat} (h : ∃ x ∈ d.typed, x.1 = n) :
    ∃ x ∈ d.typed, d.objectType n = x.2 := by
  obtain ⟨x, hx, hn⟩ := h
  have hfound : (d.typed.reverse.find? (·.1 == n)).isSome :=
    find?_isSome.mpr ⟨x, mem_reverse.mpr hx, beq_iff_eq.mpr hn⟩
  obtain ⟨y, hy⟩ := isSome_iff_exists.mp hfound
  refine ⟨y, mem_reverse.mp (mem_of_find?_eq_some hy), ?_⟩
  rw [objectType, lastFor?, hy]
  rfl

theorem foldl_fill_typedObjects (profile : Profile) :
    d.small.foldl fill d.typedObjects = (d.effect profile).objects := by
  apply Array.ext_getElem?
  intro n
  rw [getElem?_fill, getElem?_typedObjects, effect, getElem?_toArray, List.getElem?_map]
  by_cases hn : n < d.objectCount
  · rw [if_pos hn, getElem?_range hn, map_some, map_some, objectData]
    cases lastFor? n (d.small.filter fun o => !o.2.isEmpty) <;> rfl
  · have hnone : (List.range d.objectCount)[n]? = none :=
      getElem?_eq_none (by rw [length_range]; exact Nat.not_lt.mp hn)
    rw [if_neg hn, hnone]
    rfl

end Draft

theorem Draft.run_objects (hbase : base.size < 2 ^ 32) {d : Draft} (hcomplete : d.Complete)
    (htextual : ∀ x ∈ d.typed, Textual x.2)
    (hplaced : PlacedAt base position (d.small.flatMap smallBytes)) (c : LinkContext)
    (cache : ShaderCache) (profile : Profile) :
    (LinkM.objects base c d.small.length 0).run ⟨position, d.typedObjects, cache, []⟩ =
      .ok ((), ⟨position + (d.small.flatMap smallBytes).length, (d.effect profile).objects,
        cache, []⟩) := by
  have htyped : ∀ o ∈ d.small, ∃ x ∈ d.typed, o.1 < d.objectCount ∧ d.objectType o.1 = x.2 := by
    intro o ho
    obtain ⟨x, hx, hindex⟩ := hcomplete.small o ho
    obtain ⟨y, hy, htype⟩ := d.exists_objectType_eq ⟨x, hx, hindex⟩
    exact ⟨y, hy, hindex ▸ hcomplete.typed x hx, htype⟩
  have hblocks := blocks?_of_placedAt hbase (fun o ho => ?_) hplaced
  · refine LinkM.run_objects_eq_ok.mpr ⟨_, _, objectBlocks?_eq_some.mpr ⟨_, [], _, hblocks, rfl,
      (append_nil _).symm⟩, _, fillsAll_small fun o ho => ?_, ?_⟩
    · obtain ⟨x, hx, hlt, htype⟩ := htyped o ho
      refine ⟨x.2, ?_, htextual x hx⟩
      dsimp only [LinkState.linkage]
      rw [d.getElem?_typedObjects, if_pos hlt, map_some, htype]
    · rw [← d.foldl_fill_typedObjects profile]
      rfl
  · obtain ⟨-, -, hlt, -⟩ := htyped o ho
    exact Nat.lt_of_lt_of_le hlt (Nat.le_trans hcomplete.objectCount (by decide))

/-! ### The table -/

/-- The parts of a table of contents without large objects, where `ps` and `ts` are the numbers of
its parameters and techniques. -/
structure TableAt (base : Bytes) (position : Nat) (d : Draft) (ps ts : List Nat) : Prop where
  counts : PlacedAt base position
    (numberBytes [d.params.length, d.techniques.length, 0, d.objectCount])
  params : PlacedAt base (position + 16) (numberBytes ps)
  techniques : PlacedAt base (position + 16 + 4 * ps.length) (numberBytes ts)
  objects : PlacedAt base (position + 16 + 4 * ps.length + 4 * ts.length)
    (numberBytes [d.small.length, 0])
  small : PlacedAt base (position + 16 + 4 * ps.length + 4 * ts.length + 8)
    (d.small.flatMap Builder.smallBytes)

def Draft.contents (d : Draft) : Contents :=
  ⟨d.params, d.techniques, d.objectCount, d.small.length, 0⟩

theorem contentsAt_of_tableAt (hbase : base.size < 2 ^ 32) {d : Draft} (hcomplete : d.Complete)
    (hcap : d.objectCount ≤ base.size / 4) {ps : List (ValueRef × List ValueRef)}
    {ts : List (Nat × List (Nat × List StateEntry))}
    (hparams : List.Forall₂ (ParamRefers base) ps d.params)
    (htechniques : List.Forall₂ (TechniqueRefers base) ts d.techniques)
    (htable : TableAt base position d (ps.flatMap paramWords) (ts.flatMap techniqueWords)) :
    ContentsAt base position d.contents ∧ d.contents.objectTypes = d.typed ∧
      d.contents.listsAt position = position + 16 + 4 * (ps.flatMap paramWords).length +
        4 * (ts.flatMap techniqueWords).length := by
  have hps := spells_list (hparams.imp fun _ _ => spells_param hbase)
  have hts := spells_list (htechniques.imp fun _ _ => spells_technique hbase)
  have hpsSize : (d.params.map Param.tableSize).sum = 4 * (ps.flatMap paramWords).length :=
    hps.size_eq
  have htsSize : (d.techniques.map tableSize).sum =
      4 * (ts.flatMap techniqueWords).length := hts.size_eq
  have hlists : d.contents.listsAt position = position + 16 +
      4 * (ps.flatMap paramWords).length + 4 * (ts.flatMap techniqueWords).length := by
    rw [Contents.listsAt, Draft.contents, hpsSize, htsSize, ← Nat.add_assoc position]
  have htyped : d.contents.objectTypes = d.typed := by
    exact congrArg _ (flatMap_congr
      (forall_mem_of_forall₂ htechniques fun _ _ ht => ht.objectTypes_eq))
  have hpsCount := length_le_flatMap (f := paramWords) (fun _ => cons_ne_nil _ _) ps
  have htsCount := length_le_flatMap (f := techniqueWords) (fun _ => cons_ne_nil _ _) ts
  have hsize := htable.objects.le_size (by simp)
  rw [length_numberBytes, length_cons, length_singleton] at hsize
  have hsmallCount : d.small.length < 2 ^ 32 := by
    have hle := length_le_flatMap (f := smallBytes)
      (fun o => append_ne_nil_of_left_ne_nil (cons_ne_nil _ _) _) d.small
    have := htable.small.add_length_le (by omega)
    omega
  rw [hparams.length_eq] at hpsCount
  rw [htechniques.length_eq] at htsCount
  refine ⟨?_, htyped, hlists⟩
  exact {
    paramCount := number?_of_placedAt htable.counts (i := 0) rfl
      (show d.params.length < 2 ^ 32 by omega)
    techniqueCount := number?_of_placedAt htable.counts (i := 1) rfl
      (show d.techniques.length < 2 ^ 32 by omega)
    unused := ⟨0, number?_of_placedAt htable.counts (i := 2) rfl (by decide)⟩
    objectCount := number?_of_placedAt htable.counts (i := 3) rfl
      (Nat.lt_of_le_of_lt hcomplete.objectCount (by decide))
    few := hcomplete.objectCount
    room := hcap
    params := hps.stands _ htable.params
    techniques := hts.stands _ (by
      rw [Draft.contents, hpsSize, ← Nat.add_assoc]
      exact htable.techniques)
    typed := htyped ▸ hcomplete.typed
    smallCount := hlists ▸ number?_of_placedAt htable.objects (i := 0) rfl hsmallCount
    largeCount := hlists ▸ number?_of_placedAt (n := 0) htable.objects (i := 1) rfl (by decide) }

end ShaderPipeline.Effect
