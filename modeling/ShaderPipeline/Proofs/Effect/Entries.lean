import ShaderPipeline.Proofs.Effect.Stored

/-!
# The table of contents as it stands in a container

Parameters, passes and techniques are entries of the table of contents, one behind the other. How
long an entry is and to which objects it gives types can be told from what is read. So the table is
read exactly if its entries stand there, and the two lists of objects start at the sum of the sizes
of the entries before them.
-/

namespace ShaderPipeline.Effect

open ReaderState ReaderM List

/-! ### Entries -/

def ListedAt {α : Type} (At : (position : Nat) → α → Prop) (size : α → Nat) :
    (position : Nat) → List α → Prop
  | _, [] => True
  | position, a :: l => At position a ∧ ListedAt At size (position + size a) l

theorem ListedAt.exists_of_mem {α : Type} {At : Nat → α → Prop} {size : α → Nat} {l : List α}
    {position : Nat} (h : ListedAt At size position l) : ∀ a ∈ l, ∃ position, At position a := by
  induction l generalizing position with
  | nil => nofun
  | cons a l ih => exact forall_mem_cons.mpr ⟨⟨position, h.1⟩, ih h.2⟩

def ReferredAt (base : Bytes) (position : Nat) (v : Value) : Prop :=
  ∃ typeAt valueAt, number? base position = some typeAt ∧
    number? base (position + 4) = some valueAt ∧ ValueAt base (maxDepth + 1) typeAt valueAt v

def AnnotationsAt (base : Bytes) (position : Nat) (vs : List Value) : Prop :=
  ListedAt (ReferredAt base) (fun _ => 8) position vs

/-- A parameter. -/
structure ParamAt (base : Bytes) (position : Nat) (p : Param) : Prop where
  value : ReferredAt base position p.value
  flags : ∃ n, number? base (position + 8) = some n
  count : number? base (position + 12) = some p.annotations.length
  annotations : AnnotationsAt base (position + 16) p.annotations

/-- A state of a pass. -/
structure PassStateAt (base : Bytes) (position : Nat) (s : State) : Prop where
  code : number? base position = some s.code
  unused : ∃ n, number? base (position + 4) = some n
  value : ReferredAt base (position + 8) s.value

/-- A pass. -/
structure PassAt (base : Bytes) (position : Nat) (p : Pass) : Prop where
  name : TextRefAt base position p.name
  annotationCount : number? base (position + 4) = some p.annotations.length
  stateCount : number? base (position + 8) = some p.states.length
  annotations : AnnotationsAt base (position + 12) p.annotations
  states : ListedAt (PassStateAt base) (fun _ => 16) (position + (12 + 8 * p.annotations.length))
    p.states

def Param.tableSize (p : Param) : Nat := 16 + 8 * p.annotations.length

def Pass.tableSize (p : Pass) : Nat := 12 + 8 * p.annotations.length + 16 * p.states.length

def Technique.tableSize (t : Technique) : Nat :=
  12 + 8 * t.annotations.length + (t.passes.map Pass.tableSize).sum

/-- A technique and its passes. -/
structure TechniqueAt (base : Bytes) (position : Nat) (t : Technique) : Prop where
  name : TextRefAt base position t.name
  annotationCount : number? base (position + 4) = some t.annotations.length
  passCount : number? base (position + 8) = some t.passes.length
  annotations : AnnotationsAt base (position + 12) t.annotations
  passes : ListedAt (PassAt base) Pass.tableSize (position + (12 + 8 * t.annotations.length))
    t.passes

def annotationTypes (vs : List Value) : List (Nat × ElementType) := vs.flatMap Value.typed

/-- The types that a pass gives to objects, its annotations first. -/
def Pass.objectTypes (p : Pass) : List (Nat × ElementType) :=
  annotationTypes p.annotations ++ p.states.flatMap fun s => s.value.typed

/-- The types that a technique gives to objects, its annotations first. -/
def Technique.objectTypes (t : Technique) : List (Nat × ElementType) :=
  annotationTypes t.annotations ++ t.passes.flatMap Pass.objectTypes

/-! ### Readers of entries -/

namespace ReaderState

variable {s t : ReaderState} {m n : Nat} {xs ys : List (Nat × ElementType)}

theorem passes_append : s.Passes (m + n) (xs ++ ys) t ↔
    (∀ x ∈ xs, x.1 < s.types.size) ∧ (mk (s.position + m) (record s.types xs)).Passes n ys t := by
  rw [Passes, Passes, forall_mem_append, size_record, record_append, Nat.add_assoc, and_assoc]

end ReaderState

namespace ReaderM

variable {α β : Type} {base : Bytes} {m : ReaderM α} {At : Nat → α → Prop} {size : α → Nat}
  {typed : α → List (Nat × ElementType)} {s t : ReaderState}

def Reads (m : ReaderM α) (At : (position : Nat) → α → Prop) (size : α → Nat)
    (typed : α → List (Nat × ElementType)) : Prop :=
  ∀ s a t, m.run s = .ok (a, t) ↔ At s.position a ∧ s.Passes (size a) (typed a) t

theorem Reads.bind (h : Reads m At size typed) {f : α → ReaderM β} {r : β × ReaderState} :
    (m >>= f).run s = .ok r ↔
      ∃ a, At s.position a ∧ (∀ x ∈ typed a, x.1 < s.types.size) ∧
        (f a).run ⟨s.position + size a, record s.types (typed a)⟩ = .ok r := by
  simp only [run_bind_eq_ok, h _ _ _, Passes, and_assoc, exists_and_left, exists_eq_left]

theorem run_next_bind_eq_ok {what : String} {f : Nat → ReaderM β} {r : β × ReaderState} :
    (next base what >>= f).run s = .ok r ↔
      ∃ n, number? base s.position = some n ∧ (f n).run ⟨s.position + 4, s.types⟩ = .ok r := by
  rw [next, bind_assoc, run_get_bind, bind_assoc, run_liftM_bind_eq_ok]
  simp only [numberAt_eq_ok]
  rfl

theorem Reads.times (h : Reads m At size typed) (n : Nat) :
    Reads (times m n) (fun position l => l.length = n ∧ ListedAt At size position l)
      (fun l => (l.map size).sum) fun l => l.flatMap typed := by
  induction n with
  | zero =>
    intro s l t
    rw [ReaderM.times, run_pure_eq_ok]
    constructor
    · rintro ⟨rfl, rfl⟩
      exact ⟨⟨rfl, trivial⟩, passes_nil.mpr rfl⟩
    · rintro ⟨⟨hlength, -⟩, hpasses⟩
      obtain rfl := eq_nil_of_length_eq_zero hlength
      exact ⟨rfl, passes_nil.mp hpasses⟩
  | succ n ih =>
    intro s l t
    simp only [ReaderM.times, h.bind, ih.bind, run_pure_eq_ok]
    constructor
    · rintro ⟨a, ha, htyped, rest, ⟨rfl, hlisted⟩, htyped', rfl, rfl⟩
      exact ⟨⟨rfl, ha, hlisted⟩, passes_append.mpr ⟨htyped, htyped', rfl⟩⟩
    · rintro ⟨⟨hlength, hlisted⟩, hpasses⟩
      cases l with
      | nil => exact nomatch hlength
      | cons a rest =>
        obtain ⟨htyped, htyped', rfl⟩ := passes_append.mp hpasses
        exact ⟨a, hlisted.1, htyped, rest, ⟨Nat.succ.inj hlength, hlisted.2⟩, htyped', rfl, rfl⟩

theorem reads_topValue (typeAt valueAt : Nat) :
    Reads (topValue base typeAt valueAt)
      (fun _ => ValueAt base (maxDepth + 1) typeAt valueAt) (fun _ => 0) Value.typed :=
  fun _ _ _ => run_value_eq_ok

theorem reads_annotations (n : Nat) :
    Reads (annotations base n) (fun position vs => vs.length = n ∧ AnnotationsAt base position vs)
      (fun vs => 8 * vs.length) annotationTypes := by
  have hreads : Reads (do
      let typeAt ← next base "annotation"
      let valueAt ← next base "annotation"
      topValue base typeAt valueAt) (ReferredAt base) (fun _ => 8) Value.typed := by
    intro s v t
    simp only [run_next_bind_eq_ok, reads_topValue _ _ _ _ _]
    constructor
    · rintro ⟨typeAt, htypeAt, valueAt, hvalueAt, hv, hpasses⟩
      exact ⟨⟨typeAt, valueAt, htypeAt, hvalueAt, hv⟩, hpasses⟩
    · rintro ⟨⟨typeAt, valueAt, htypeAt, hvalueAt, hv⟩, hpasses⟩
      exact ⟨typeAt, htypeAt, valueAt, hvalueAt, hv, hpasses⟩
  have hsize : (fun vs : List Value => (vs.map fun _ => 8).sum) = fun vs => 8 * vs.length := by
    funext vs
    rw [map_const', sum_replicate_nat, Nat.mul_comm]
  exact hsize ▸ hreads.times n

theorem reads_param : Reads (param base) (ParamAt base) Param.tableSize Param.typed := by
  intro s p t
  simp only [param, run_next_bind_eq_ok, (reads_annotations _).bind, (reads_topValue _ _).bind,
    run_pure_eq_ok]
  constructor
  · rintro ⟨typeAt, htypeAt, valueAt, hvalueAt, flags, hflags, count, hcount, vs,
      ⟨rfl, hlisted⟩, htypes, v, hvalue, htyped, rfl, rfl⟩
    exact ⟨⟨⟨typeAt, valueAt, htypeAt, hvalueAt, hvalue⟩, ⟨flags, hflags⟩, hcount, hlisted⟩,
      passes_append (m := 16 + 8 * vs.length) (n := 0).mpr
        ⟨htypes, htyped, by rw [← Nat.add_assoc]; rfl⟩⟩
  · rintro ⟨⟨⟨typeAt, valueAt, htypeAt, hvalueAt, hvalue⟩, ⟨flags, hflags⟩, hcount, hlisted⟩,
      hpasses⟩
    obtain ⟨htypes, htyped, rfl⟩ := passes_append (m := 16 + 8 * _) (n := 0).mp hpasses
    exact ⟨typeAt, htypeAt, valueAt, hvalueAt, flags, hflags, _, hcount, _, ⟨rfl, hlisted⟩, htypes,
      _, hvalue, htyped, rfl, by rw [← Nat.add_assoc]; rfl⟩

theorem reads_passState :
    Reads (passState base) (PassStateAt base) (fun _ => 16) fun s => s.value.typed := by
  rintro s ⟨code, v⟩ t
  simp only [passState, run_next_bind_eq_ok, (reads_topValue _ _).bind, run_pure_eq_ok]
  constructor
  · rintro ⟨number, hcode, unused, hunused, typeAt, htypeAt, valueAt, hvalueAt, w, hvalue, htyped,
      ⟨rfl, rfl⟩, rfl⟩
    exact ⟨⟨hcode, ⟨unused, hunused⟩, ⟨typeAt, valueAt, htypeAt, hvalueAt, hvalue⟩⟩, htyped, rfl⟩
  · rintro ⟨⟨hcode, ⟨unused, hunused⟩, ⟨typeAt, valueAt, htypeAt, hvalueAt, hvalue⟩⟩, htyped, rfl⟩
    exact ⟨_, hcode, unused, hunused, typeAt, htypeAt, valueAt, hvalueAt, _, hvalue, htyped, rfl,
      rfl⟩

theorem run_titled_eq_ok (hreads : Reads m At size typed) {what : String}
    {f : Option String → List Value → List α → β} {b : β} :
    (do
      let nameAt ← next base what
      let annotationCount ← next base what
      let count ← next base what
      let name ← stringAt base nameAt
      let vs ← annotations base annotationCount
      let l ← times m count
      return f name vs l : ReaderM β).run s = .ok (b, t) ↔
    ∃ name vs l, b = f name vs l ∧ TextRefAt base s.position name ∧
      number? base (s.position + 4) = some vs.length ∧
      number? base (s.position + 8) = some l.length ∧ AnnotationsAt base (s.position + 12) vs ∧
      ListedAt At size (s.position + (12 + 8 * vs.length)) l ∧
      s.Passes (12 + 8 * vs.length + (l.map size).sum) (annotationTypes vs ++ l.flatMap typed) t := by
  simp only [run_next_bind_eq_ok, run_liftM_bind_eq_ok, (reads_annotations _).bind,
    (hreads.times _).bind, run_pure_eq_ok]
  constructor
  · rintro ⟨nameAt, hnameAt, annotationCount, hannotationCount, count, hcount, name, hname, vs,
      ⟨rfl, hlisted⟩, htypes, l, ⟨rfl, hentries⟩, htyped, rfl, rfl⟩
    have hmove := Nat.add_assoc s.position 12 (8 * vs.length)
    exact ⟨name, vs, l, rfl, ⟨nameAt, hnameAt, hname⟩, hannotationCount, hcount, hlisted,
      hmove ▸ hentries, passes_append.mpr ⟨htypes, htyped, by rw [← hmove]⟩⟩
  · rintro ⟨name, vs, l, rfl, ⟨nameAt, hnameAt, hname⟩, hannotationCount, hcount, hlisted, hentries,
      hpasses⟩
    have hmove := Nat.add_assoc s.position 12 (8 * vs.length)
    obtain ⟨htypes, htyped, rfl⟩ := passes_append.mp hpasses
    exact ⟨nameAt, hnameAt, _, hannotationCount, _, hcount, name, hname, vs, ⟨rfl, hlisted⟩,
      htypes, l, ⟨rfl, hmove ▸ hentries⟩, htyped, rfl, by rw [← hmove]⟩

theorem reads_pass : Reads (pass base) (PassAt base) Pass.tableSize Pass.objectTypes := by
  intro s p t
  have hsize : ∀ ss : List State, (ss.map fun _ => 16).sum = 16 * ss.length := by
    intro ss
    rw [map_const', sum_replicate_nat, Nat.mul_comm]
  rw [pass, run_titled_eq_ok reads_passState]
  simp only [hsize]
  constructor
  · rintro ⟨name, vs, ss, rfl, hname, hannotationCount, hcount, hlisted, hstates, hpasses⟩
    exact ⟨⟨hname, hannotationCount, hcount, hlisted, hstates⟩, hpasses⟩
  · rintro ⟨⟨hname, hannotationCount, hcount, hlisted, hstates⟩, hpasses⟩
    exact ⟨_, _, _, rfl, hname, hannotationCount, hcount, hlisted, hstates, hpasses⟩

theorem reads_technique :
    Reads (technique base) (TechniqueAt base) Technique.tableSize Technique.objectTypes := by
  intro s a t
  rw [technique, run_titled_eq_ok reads_pass]
  constructor
  · rintro ⟨name, vs, ps, rfl, hname, hannotationCount, hcount, hlisted, hpassesAt, hpasses⟩
    exact ⟨⟨hname, hannotationCount, hcount, hlisted, hpassesAt⟩, hpasses⟩
  · rintro ⟨⟨hname, hannotationCount, hcount, hlisted, hpassesAt⟩, hpasses⟩
    exact ⟨_, _, _, rfl, hname, hannotationCount, hcount, hlisted, hpassesAt, hpasses⟩

end ReaderM

/-! ### The table -/

/-- What stands in front of the two lists of objects, and how long these are. -/
structure Contents where
  params : List Param
  techniques : List Technique
  objectCount : Nat
  smallCount : Nat
  largeCount : Nat

namespace Contents

variable (c : Contents)

def listsAt (position : Nat) : Nat :=
  position + (16 + (c.params.map Param.tableSize).sum) + (c.techniques.map Technique.tableSize).sum

def objectTypes : List (Nat × ElementType) :=
  c.params.flatMap Param.typed ++ c.techniques.flatMap Technique.objectTypes

/-- The objects before any of them is filled. -/
def objects : Array Object :=
  (record (Array.replicate c.objectCount .void) c.objectTypes).map fun t => ⟨t, .none⟩

def start (position : Nat) (cache : ShaderCache) : LinkState :=
  ⟨c.listsAt position + 8, c.objects, cache, []⟩

def context (profile : Profile) (options : Options) : LinkContext :=
  ⟨profile, options, c.params, c.techniques⟩

def effect (profile : Profile) (linked : LinkState) : Effect where
  profile := profile
  diagnostics := linked.diagnostics
  params := c.params
  techniques := c.techniques
  objects := linked.objects
  technique := if c.techniques.isEmpty then none else some 0
  pass := none

end Contents

/-- A table of contents starts at a position. -/
structure ContentsAt (base : Bytes) (position : Nat) (c : Contents) : Prop where
  paramCount : number? base position = some c.params.length
  techniqueCount : number? base (position + 4) = some c.techniques.length
  unused : ∃ n, number? base (position + 8) = some n
  objectCount : number? base (position + 12) = some c.objectCount
  few : c.objectCount ≤ maxObjects
  room : c.objectCount ≤ base.size / 4
  params : ListedAt (ParamAt base) Param.tableSize (position + 16) c.params
  techniques : ListedAt (TechniqueAt base) Technique.tableSize
    (position + (16 + (c.params.map Param.tableSize).sum)) c.techniques
  typed : ∀ x ∈ c.objectTypes, x.1 < c.objectCount
  smallCount : number? base (c.listsAt position) = some c.smallCount
  largeCount : number? base (c.listsAt position + 4) = some c.largeCount

theorem le_size_of_number? {base : Bytes} {offset n : Nat} (h : number? base offset = some n) :
    offset + 4 ≤ base.size := by
  obtain ⟨w, hw, -⟩ := Option.map_eq_some_iff.mp h
  simp only [wordAt?, bind, Option.bind_eq_some_iff] at hw
  obtain ⟨-, -, -, -, -, -, d, hd, -⟩ := hw
  have := (Array.getElem?_eq_some_iff.mp hd).1
  omega

variable {base bytes : Bytes} {profile : Profile} {options : Options} {cache cache' : ShaderCache}
  {e : Effect}

theorem run'_eq_ok {σ α : Type} {m : StateT σ (Except EffectError) α} {s : σ} {a : α} :
    m.run' s = .ok a ↔ ∃ t, m.run s = .ok (a, t) := by
  rw [StateT.run'_eq]
  cases m.run s with
  | error e => exact ⟨nofun, fun ⟨_, h⟩ => (nomatch h)⟩
  | ok r =>
    refine ⟨fun h => ⟨r.2, ?_⟩, fun ⟨_, h⟩ => ?_⟩
    · rw [← Except.ok.inj h]
    · rw [Except.ok.inj h]
      rfl

theorem run_remaining_bind {α : Type} {f : Nat → ReaderM α} {s : ReaderState} :
    (remaining base >>= f).run s = (f (base.size - s.position)).run s := rfl

theorem run_modify_bind {σ α : Type} {g : σ → σ} {f : Unit → StateT σ (Except EffectError) α}
    {s : σ} : (modify g >>= f).run s = (f ()).run (g s) := rfl

/-- A table is read exactly if it stands there and its objects can be linked. -/
theorem run'_readContents_eq_ok {position : Nat} {types : Array ElementType} :
    (readContents base profile options cache).run' ⟨position, types⟩ = .ok (e, cache') ↔
      ∃ c linked, ContentsAt base position c ∧
        (LinkM.objects base (c.context profile options) c.smallCount c.largeCount).run
          (c.start position cache) = .ok ((), linked) ∧
        e = c.effect profile linked ∧ cache' = linked.cache := by
  rw [run'_eq_ok, readContents]
  simp only [run_remaining_bind, run_check_eq_ok, run_next_bind_eq_ok, run_modify_bind,
    (reads_param.times _).bind, (reads_technique.times _).bind, run_get_bind, run_liftM_bind_eq_ok,
    run_pure_eq_ok, not_or, Nat.not_lt, size_record, Array.size_replicate, ← record_append]
  have hlists (c : Contents) : position + 4 + 4 + 4 + 4 + (c.params.map Param.tableSize).sum +
      (c.techniques.map Technique.tableSize).sum = c.listsAt position := by
    rw [Contents.listsAt]
    omega
  constructor
  · rintro ⟨t, -, paramCount, hparamCount, techniqueCount, htechniqueCount, unused, hunused,
      objectCount, hobjectCount, ⟨hfew, hroom⟩, params, ⟨rfl, hparams⟩, hparamTypes, techniques,
      ⟨rfl, htechniques⟩, htechniqueTypes, -, smallCount, hsmallCount, largeCount, hlargeCount,
      ⟨⟨⟩, linked⟩, hlinked, ⟨rfl, rfl⟩, -⟩
    let c : Contents := ⟨params, techniques, objectCount, smallCount, largeCount⟩
    rw [hlists c] at hsmallCount hlargeCount hlinked
    rw [Nat.add_assoc _ 16] at htechniques
    exact ⟨c, linked, ⟨hparamCount, htechniqueCount, ⟨unused, hunused⟩, hobjectCount, hfew, hroom,
      hparams, htechniques, forall_mem_append.mpr ⟨hparamTypes, htechniqueTypes⟩, hsmallCount,
      hlargeCount⟩, hlinked, rfl, rfl⟩
  · rintro ⟨c, linked, hc, hlinked, rfl, rfl⟩
    have hroom := le_size_of_number? hc.objectCount
    have hroom' := le_size_of_number? hc.largeCount
    obtain ⟨unused, hunused⟩ := hc.unused
    obtain ⟨hparamTypes, htechniqueTypes⟩ := forall_mem_append.mp hc.typed
    refine ⟨⟨c.listsAt position + 4 + 4, record (.replicate c.objectCount .void) c.objectTypes⟩,
      by omega, _, hc.paramCount, _, hc.techniqueCount, unused, hunused, _, hc.objectCount,
      ⟨hc.few, hc.room⟩, c.params, ⟨rfl, hc.params⟩, hparamTypes, c.techniques, ⟨rfl, ?_⟩,
      htechniqueTypes, ?_⟩
    · rw [Nat.add_assoc _ 16]
      exact hc.techniques
    · rw [hlists c]
      exact ⟨by omega, _, hc.smallCount, _, hc.largeCount, _, hlinked, rfl, rfl⟩

/-! ### Containers -/

def baseOf (bytes : Bytes) (start : Nat) : Bytes := bytes.extract (start + 8) bytes.size

/-- A container starts at a position, and its table of contents at an offset from its base. -/
structure ContainerAt (bytes : Bytes) (start offset : Nat) : Prop where
  startsAt : containerStart bytes = .ok start
  magicAt : number? bytes start = some magic
  offsetAt : number? bytes (start + 4) = some offset
  room : offset ≤ (baseOf bytes start).size

theorem check_eq_ok {α β : Type} {p : Prop} [Decidable p] {x : EffectError}
    {f : α → Except EffectError β} {m : Except EffectError β} {b : β} :
    (if p then throw x >>= f else m) = .ok b ↔ ¬p ∧ m = .ok b := by
  by_cases hp : p
  · rw [if_pos hp]
    exact ⟨nofun, fun h => absurd hp h.1⟩
  · rw [if_neg hp]
    exact ⟨fun h => ⟨hp, h⟩, And.right⟩

/-- A container is read exactly if its header, its table and its objects can be. -/
theorem ofBytesCached_eq_ok :
    ofBytesCached bytes profile options cache = .ok (e, cache') ↔
      ∃ start offset c linked, ContainerAt bytes start offset ∧
        ContentsAt (baseOf bytes start) offset c ∧
        (LinkM.objects (baseOf bytes start) (c.context profile options) c.smallCount
          c.largeCount).run (c.start offset cache) = .ok ((), linked) ∧
        e = c.effect profile linked ∧ cache' = linked.cache := by
  simp only [ofBytesCached, check_eq_ok, bind_eq_ok, numberAt_eq_ok, run'_readContents_eq_ok,
    Decidable.not_not, Nat.not_lt]
  constructor
  · rintro ⟨start, hstart, word, hword, rfl, offset, hoffset, hroom, c, linked, hc, hlinked, he,
      hcache⟩
    exact ⟨start, offset, c, linked, ⟨hstart, hword, hoffset, hroom⟩, hc, hlinked, he, hcache⟩
  · rintro ⟨start, offset, c, linked, ⟨hstart, hmagic, hoffset, hroom⟩, hc, hlinked, he, hcache⟩
    exact ⟨start, hstart, _, hmagic, rfl, offset, hoffset, hroom, c, linked, hc, hlinked, he,
      hcache⟩

end ShaderPipeline.Effect
