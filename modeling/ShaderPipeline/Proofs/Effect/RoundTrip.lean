import ShaderPipeline.Proofs.Effect.Contents

/-!
# Effects are read back from the containers that a builder lays out

After every call the builder tracks the draft: each reference it has given out denotes the value of
the same number, and each entry of its table refers to what the draft asks for. At the end the
container holds the data in front of the table, so the entries are read as they were asked for.
-/

namespace ShaderPipeline.Effect

open List

/-! ### Values that entries refer to -/

section Fits

variable {elem : ElementType} {name : String}

theorem fits_registers (name semantic : Option String) (info : TypeInfo) (ws : List Word) :
    (Value.mk name semantic info (.registers ws)).Fits :=
  ⟨Nat.zero_le _, nofun⟩

theorem fits_objectValue (helem : elem = .string ∨ elem.isTexture = true) (indices : List Word) :
    (objectValue elem name indices).Fits where
  depth := Nat.zero_le _
  textual x hx := by
    obtain ⟨w, -, rfl⟩ := mem_map.mp hx
    exact helem.imp_right .inl

theorem fits_states (helem : elem.isSampler = true) (ss : List State)
    (hdepth : ∀ s ∈ ss, s.value.depth < maxDepth)
    (htextual : ∀ s ∈ ss, ∀ x ∈ s.value.typed, Textual x.2) :
    State.depth ss ≤ maxDepth ∧ ∀ x ∈ State.typed elem ss, Textual x.2 := by
  induction ss with
  | nil => exact ⟨Nat.zero_le _, nofun⟩
  | cons s ss ih =>
    obtain ⟨code, v⟩ := s
    rw [forall_mem_cons] at hdepth htextual
    obtain ⟨ihdepth, ihtextual⟩ := ih hdepth.2 htextual.2
    refine ⟨Nat.max_le.mpr ⟨hdepth.1, ihdepth⟩, ?_⟩
    rw [State.typed, forall_mem_append, forall_mem_append]
    refine ⟨⟨htextual.1, fun x hx => ?_⟩, ihtextual⟩
    -- The texture of a sampler gets the type of the sampler.
    split at hx
    · obtain ⟨w, -, rfl⟩ := Option.map_eq_some_iff.mp (Option.mem_toList.mp hx)
      exact .inr (.inr helem)
    · cases hx

end Fits

/-! ### The builder tracks the draft -/

section Paired

variable {α β : Type} {R : α → β → Prop} {xs : List α} {ys : List β}

theorem getD_of_forall₂ (h : List.Forall₂ R xs ys) {n : Nat} (hn : n < ys.length) (x : α) (y : β) :
    R (xs.getD n x) (ys.getD n y) := by
  induction h generalizing n with
  | nil => exact absurd hn (Nat.not_lt_zero n)
  | cons hfirst _ ih =>
    cases n with
    | zero => exact hfirst
    | succ n => exact ih (Nat.lt_of_succ_lt_succ hn)

theorem forall₂_modify (h : List.Forall₂ R xs ys) {f : α → α} {g : β → β}
    (hfg : ∀ x y, R x y → R (f x) (g y)) (n : Nat) :
    List.Forall₂ R (xs.modify n f) (ys.modify n g) := by
  induction h generalizing n with
  | nil => simp
  | cons hfirst hrest ih =>
    cases n with
    | zero => exact .cons (hfg _ _ hfirst) hrest
    | succ n => exact .cons hfirst (ih n)

end Paired

/-- Every reference of the builder denotes the value of the draft with the same number, and every
entry refers to what the draft asks for, wherever the data come to stand. -/
structure Tracks (w : Workbench) (d : Draft) : Prop where
  rooted : Rooted w.builder.data
  values : List.Forall₂ (fun r v => Denotes w.builder.data r v ∧ v.Fits) w.refs d.values
  params : List.Forall₂ (fun p q => ∀ base, Holds base w.builder.data → ParamRefers base p q)
    w.builder.params d.params
  techniques : List.Forall₂
    (fun t u => ∀ base, Holds base w.builder.data → TechniqueRefers base t u)
    w.builder.techniques d.techniques
  objectCount : w.builder.objectCount = d.objectCount
  small : w.builder.small = d.small
  large : w.builder.large = []

theorem tracks_empty : Tracks .empty .empty where
  rooted := prefix_refl _
  values := .nil
  params := .nil
  techniques := .nil
  objectCount := rfl
  small := rfl
  large := rfl

namespace Tracks

variable {w : Workbench} {d : Draft}

theorem ref (h : Tracks w d) {n : Nat} (hn : n < d.values.length) :
    Denotes w.builder.data (w.ref n) (d.value n) ∧ (d.value n).Fits :=
  getD_of_forall₂ h.values hn _ _

theorem extend (h : Tracks w d) {c : Builder} (hc : w.builder.Extends c) :
    Tracks ⟨c, w.refs⟩ d := by
  have hdata := hc.data
  obtain ⟨more, rfl⟩ := hc
  exact {
    rooted := h.rooted.trans hdata
    values := h.values.imp fun _ _ hv => ⟨hv.1.mono hdata, hv.2⟩
    params := h.params.imp fun _ _ hp base hbase => hp base (hbase.mono hdata)
    techniques := h.techniques.imp fun _ _ ht base hbase => ht base (hbase.mono hdata)
    objectCount := h.objectCount
    small := h.small
    large := h.large }

theorem keep (h : Tracks w d) {made : ValueRef × Builder} {v : Value}
    (hmade : Makes w.builder made v) (hfits : v.Fits) : Tracks (w.keep made) (d.keep v) := by
  have hgrown := h.extend hmade.grows
  exact { hgrown with
    values := rel_append hgrown.values (.cons ⟨hmade.denotes, hfits⟩ .nil) }

theorem states (h : Tracks w d) {ss : List (Word × Nat)} (hss : ∀ s ∈ ss, s.2 < d.values.length)
    {base : Bytes} (hbase : Holds base w.builder.data) :
    List.Forall₂ (StateRefers base) (w.states ss)
      (ss.map fun s => ⟨s.1.toNat, d.value s.2⟩) := by
  rw [Workbench.states, forall₂_map_left_iff, forall₂_map_right_iff, forall₂_same]
  intro s hs
  obtain ⟨hdenotes, hfits⟩ := h.ref (hss s hs)
  exact ⟨rfl, s.1.toNat_lt, hdenotes.refers hfits hbase⟩

end Tracks

section Names

variable {base : Bytes} {b : Builder}

theorem nameRefers_string {s : String} (hs : 0 ∉ utf8Bytes s)
    (h : Holds base (b.string s).2.data) : NameRefers base b.data.length (some s) where
  lt := Nat.lt_of_le_of_lt (h.mono (b.extends_add _).data).length_le h.size
  text := stringAt_string hs h

theorem passRefers_passNames {ps : List (String × List StateEntry)} {qs : List Pass}
    (h : List.Forall₂ (fun p q => 0 ∉ utf8Bytes p.1 ∧ q.name = some p.1 ∧ q.annotations = [] ∧
      List.Forall₂ (StateRefers base) p.2 q.states) ps qs)
    (hbase : Holds base (b.passNames ps).2.data) :
    List.Forall₂ (PassRefers base) (b.passNames ps).1 qs := by
  induction h generalizing b with
  | nil => exact .nil
  | @cons p q ps qs hfirst _ ih =>
    obtain ⟨hname, hq, hannotations, hstates⟩ := hfirst
    have hstring : Holds base (b.string p.1).2.data :=
      hbase.mono (Builder.extends_passNames _ ps).data
    refine .cons ⟨?_, hstates, hannotations⟩ (ih hbase)
    rw [hq]
    exact nameRefers_string hname hstring

end Names

namespace Tracks

variable {w : Workbench} {d : Draft}

theorem call_sampler (h : Tracks w d) {elem : ElementType} {name : String} {ss : List (Word × Nat)}
    (hvalid : (BuilderCall.sampler elem name ss).Valid d) :
    Tracks (w.call (.sampler elem name ss)) (d.call (.sampler elem name ss)) := by
  obtain ⟨helem, hname, hss⟩ := hvalid
  have hmade := makes_sampler h.rooted helem hname
    (ss.map fun s => (s.1, w.ref s.2, d.value s.2))
    (forall_mem_map.mpr fun s hs => (h.ref (hss s hs).1).1)
    (forall_mem_map.mpr fun s hs => (hss s hs).2.2)
  rw [map_map, map_map] at hmade
  refine h.keep hmade ?_
  obtain ⟨hdepth, htextual⟩ := fits_states helem
    (ss.map fun s => ⟨ReaderM.samplerStateCode s.1, d.value s.2⟩)
    (forall_mem_map.mpr fun s hs => (hss s hs).2.1)
    (forall_mem_map.mpr fun s hs => (h.ref (hss s hs).1).2.textual)
  rw [samplerValue, map_map]
  exact ⟨hdepth, htextual⟩

theorem call_technique (h : Tracks w d) {name : String}
    {passes : List (String × List (Word × Nat))}
    (hvalid : (BuilderCall.technique name passes).Valid d) :
    Tracks (w.call (.technique name passes)) (d.call (.technique name passes)) := by
  obtain ⟨hname, hpasses⟩ := hvalid
  let b := (w.builder.string name).2
  let ps := passes.map fun p => (p.1, w.states p.2)
  have hnamed : w.builder.Extends b := w.builder.extends_add _
  have hgrows := hnamed.trans (b.extends_passNames ps)
  have hgrown := h.extend hgrows
  refine { hgrown with techniques := ?_ }
  refine rel_append hgrown.techniques (.cons (fun base hbase => ?_) .nil)
  refine ⟨nameRefers_string hname (hbase.mono (b.extends_passNames ps).data), ?_, rfl⟩
  refine passRefers_passNames ?_ hbase
  rw [forall₂_map_left_iff, forall₂_map_right_iff, forall₂_same]
  intro p hp
  exact ⟨(hpasses p hp).1, rfl, rfl, h.states (hpasses p hp).2 (hbase.mono hgrows.data)⟩

theorem call (h : Tracks w d) {c : BuilderCall} (hc : c.Valid d) :
    Tracks (w.call c) (d.call c) := by
  cases c with
  | objects count => exact { h with objectCount := rfl }
  | numeric => exact h.keep (makes_numeric h.rooted hc) (fits_registers _ _ _ _)
  | object elem name indices => exact h.keep (makes_object h.rooted hc) (fits_objectValue hc.1 _)
  | sampler => exact h.call_sampler hc
  | struct => exact h.keep (makes_struct h.rooted hc) (fits_registers _ _ _ _)
  | param n =>
    obtain ⟨hdenotes, hfits⟩ := h.ref hc
    refine { h with params := rel_append h.params (.cons (fun base hbase => ?_) .nil) }
    exact ⟨hdenotes.refers hfits hbase, .nil⟩
  | annotate p n =>
    obtain ⟨hdenotes, hfits⟩ := h.ref hc.2
    refine { h with params := forall₂_modify h.params (fun q r hq base hbase => ?_) p }
    have href := hq base hbase
    exact ⟨href.value, rel_append href.annotations
      (.cons (hdenotes.refers hfits hbase) .nil)⟩
  | technique => exact h.call_technique hc
  | small index bytes => exact { h with small := congrArg (· ++ [(index, bytes)]) h.small }

theorem run (h : Tracks w d) {calls : List BuilderCall} (hcalls : ValidRun d calls) :
    Tracks (calls.foldl Workbench.call w) (calls.foldl Draft.call d) := by
  induction calls generalizing w d with
  | nil => exact h
  | cons c calls ih => exact ih (h.call hcalls.1) hcalls.2

end Tracks

/-! ### The container -/

namespace Tracks

variable {w : Workbench} {d : Draft} {base : Bytes}

theorem tableAt (h : Tracks w d) (hbase : Holds base (w.builder.data ++ w.builder.contents)) :
    TableAt base w.builder.data.length d (w.builder.params.flatMap paramWords)
      (w.builder.techniques.flatMap techniqueWords) := by
  have hcontents : w.builder.contents =
      numberBytes [d.params.length, d.techniques.length, 0, d.objectCount] ++
        (numberBytes (w.builder.params.flatMap paramWords) ++
          (numberBytes (w.builder.techniques.flatMap techniqueWords) ++
            (numberBytes [d.small.length, 0] ++ d.small.flatMap Builder.smallBytes))) := by
    rw [Builder.contents, h.params.length_eq, h.techniques.length_eq, h.objectCount, h.small,
      h.large, ← numberBytes_flatMap, ← numberBytes_flatMap]
    simp only [append_assoc, flatMap_nil, append_nil]
    rfl
  have hplaced := hbase.placedAt
  rw [hcontents, placedAt_append, placedAt_append, placedAt_append, placedAt_append] at hplaced
  simp only [length_numberBytes] at hplaced
  obtain ⟨hcounts, hparams, htechniques, hobjects, hsmall⟩ := hplaced
  exact ⟨hcounts, hparams, htechniques, hobjects, hsmall⟩

theorem run_readContents (h : Tracks w d) (hcomplete : d.Complete)
    (hbase : Holds base (w.builder.data ++ w.builder.contents))
    (hcap : d.objectCount ≤ base.size / 4) (profile : Profile) (options : Options)
    (cache : ShaderCache) :
    (readContents base profile options cache).run' ⟨w.builder.data.length, #[]⟩ =
      .ok (d.effect profile, cache) := by
  have hdata : Holds base w.builder.data := hbase.mono (prefix_append _ _)
  have hparams := h.params.imp fun _ _ hp => hp base hdata
  have htechniques := h.techniques.imp fun _ _ ht => ht base hdata
  have htextual : ∀ x ∈ d.typed, Textual x.2 := by
    rw [Draft.typed, forall_mem_append, forall_mem_flatMap, forall_mem_flatMap]
    exact ⟨forall_mem_of_forall₂ hparams fun _ _ hp => hp.textual,
      forall_mem_of_forall₂ htechniques fun _ _ ht => ht.textual⟩
  have htable := h.tableAt hbase
  obtain ⟨hcontents, htyped, hlists⟩ :=
    contentsAt_of_tableAt hbase.size hcomplete hcap hparams htechniques htable
  have hlinked := d.run_objects hbase.size hcomplete htextual htable.small
    (d.contents.context profile options) cache profile
  have hstart : d.contents.start w.builder.data.length cache =
      ⟨d.contents.listsAt w.builder.data.length + 8, d.typedObjects, cache, []⟩ := by
    rw [Contents.start, Contents.objects, htyped]
    rfl
  rw [← hlists, ← hstart] at hlinked
  exact run'_readContents_eq_ok.mpr ⟨d.contents, _, hcontents, hlinked, rfl, rfl⟩

end Tracks

/-- A container without a preamble is read from its table of contents on. -/
theorem ofBytesCached_of_header {bytes base : Bytes} {offset : Nat} (hsize : 8 ≤ bytes.size)
    (hmagic : numberAt bytes 0 "effect header" = .ok magic)
    (hoffset : numberAt bytes 4 "TOC offset" = .ok offset)
    (hbase : bytes.extract 8 bytes.size = base) (hroom : offset ≤ base.size) (profile : Profile)
    (options : Options) (cache : ShaderCache) :
    ofBytesCached bytes profile options cache =
      (readContents base profile options cache).run' ⟨offset, #[]⟩ := by
  have hpreamble : magic ≠ preambleMagic := by decide
  have hstart : containerStart bytes = .ok 0 := by
    rw [containerStart, if_neg (Nat.not_lt.mpr hsize)]
    simp only [bind, Except.bind, hmagic, if_pos hpreamble]
    rfl
  rw [ofBytesCached, hstart]
  simp only [bind, Except.bind, hmagic, ne_eq, not_true_eq_false, if_false, Nat.zero_add, hoffset,
    hbase, if_neg (Nat.not_lt.mpr hroom)]

theorem ofBytesCached_toBytes {b : Builder} (hdata : b.data.length < 2 ^ 32) (profile : Profile)
    (options : Options) (cache : ShaderCache) :
    ofBytesCached b.toBytes.toArray profile options cache =
      (readContents (b.data ++ b.contents).toArray profile options cache).run'
        ⟨b.data.length, #[]⟩ := by
  have hbytes : b.toBytes = numberBytes [magic, b.data.length] ++ (b.data ++ b.contents) :=
    append_assoc _ _ _
  have hplaced : PlacedAt b.toBytes.toArray 0 (numberBytes [magic, b.data.length]) :=
    hbytes ▸ prefix_append _ _
  refine ofBytesCached_of_header (hplaced.le_size (by simp))
    (numberAt_eq_ok.mpr (number?_of_placedAt hplaced (i := 0) rfl (by decide)))
    (numberAt_eq_ok.mpr (number?_of_placedAt hplaced (i := 1) rfl hdata)) ?_ ?_ profile options
    cache
  · apply Array.toList_inj.mp
    rw [Array.toList_extract, extract_eq_take_drop, size_toArray, hbytes]
    change take _ (drop (numberBytes [magic, b.data.length]).length _) = _
    rw [drop_left]
    exact take_of_length_le (by simp)
  · rw [size_toArray]
    exact (prefix_append _ _).length_le

/-- A run of calls that a container can follow is read back: the effect is the one asked for. -/
theorem ofBytes_build (calls : List BuilderCall) (hvalid : ValidRun .empty calls)
    (hcomplete : (Draft.ofCalls calls).Complete)
    (hsize : (Workbench.build calls).toBytes.length < 2 ^ 32)
    (hcap : (Draft.ofCalls calls).objectCount ≤ ((Workbench.build calls).toBytes.length - 8) / 4)
    (profile : Profile) (options : Options) :
    ofBytes (Workbench.build calls).toBytes.toArray profile options =
      .ok ((Draft.ofCalls calls).effect profile) := by
  have htracks : Tracks (calls.foldl Workbench.call .empty) (Draft.ofCalls calls) :=
    tracks_empty.run hvalid
  rw [Workbench.build] at hsize hcap ⊢
  generalize calls.foldl Workbench.call .empty = w at htracks hsize hcap ⊢
  have hlength : w.builder.toBytes.length =
      8 + (w.builder.data ++ w.builder.contents).toArray.size := by
    rw [Builder.toBytes, List.append_assoc, List.length_append, List.size_toArray]
    rfl
  have hbase : Holds (w.builder.data ++ w.builder.contents).toArray
      (w.builder.data ++ w.builder.contents) :=
    ⟨List.prefix_refl _, by omega⟩
  have hread := htracks.run_readContents hcomplete hbase (by omega) profile options default
  have hdata := Nat.lt_of_le_of_lt (hbase.mono (List.prefix_append _ _)).length_le hbase.size
  rw [ofBytes, ofBytesCached_toBytes hdata, hread]
  rfl

def materialCalls : List BuilderCall :=
  [.objects 2,
    .numeric .float .matrixRows "World" 2 3 0 [1, 2, 3, 4, 5, 6],
    .object .string "Unit" [0],
    .object .texture2D "Wood" [1],
    .sampler .sampler2D "WoodSampler" [(0xA4, 2)],
    .struct "Light" [("Color", 1, 4), ("Range", 1, 1)] [7, 8, 9, 10, 11],
    .numeric .int .scalar "" 1 1 0 [2],
    .param 0, .annotate 0 1, .param 3, .param 4,
    .technique "Plain" [("First", [(8, 5)])],
    .small 0 (utf8Bytes "metre"), .small 1 (utf8Bytes "wood.png")]

theorem ofBytes_build_material :
    ValidRun .empty materialCalls ∧ (Draft.ofCalls materialCalls).Complete ∧
    (Workbench.build materialCalls).toBytes.length = 548 ∧
    ∃ e, ofBytes (Workbench.build materialCalls).toBytes.toArray .glsl default = .ok e ∧
      e.params.map (·.value.name) = [some "World", some "WoodSampler", some "Light"] ∧
      e.params.map (·.value.data) =
        [.registers [1, 2, 3, 0, 4, 5, 6, 0], .states [⟨4, objectValue .texture2D "Wood" [1]⟩],
          .registers [7, 8, 9, 10, 11, 0, 0, 0]] ∧
      e.objects = #[⟨.string, .string "metre"⟩, ⟨.sampler2D, .mapping "wood.png"⟩] := by
  have hvalid : ValidRun .empty materialCalls := by decide +kernel
  have hcomplete : (Draft.ofCalls materialCalls).Complete := by decide +kernel
  refine ⟨hvalid, hcomplete, by decide +kernel, _, ofBytes_build materialCalls hvalid hcomplete
    (by decide +kernel) (by decide +kernel) .glsl default, ?_, ?_, ?_⟩
  all_goals decide +kernel

end ShaderPipeline.Effect
