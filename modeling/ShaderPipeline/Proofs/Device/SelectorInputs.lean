import ShaderPipeline.Proofs.Device.Commits
import ShaderPipeline.Proofs.Device.Copies

/-!
# Inputs of selectors and of embedded preshaders

A selector takes its inputs from the same parameters as a preshader that is embedded in a shader,
but by a copy of its own. It takes every word as a float, as it is, where the other copy converts
integers and booleans. It also goes on to the last row of a parameter, where the other one stops at
the last register of the symbol, and leaves out the columns that a float parameter does not have.

On the components that both copies serve, the two inputs are the same exactly if the words that
reach each of them last are the same. If no two parameters meet in a component, these are the words
of the one parameter, and their conversion must not change them.
-/

namespace ShaderPipeline

open Option List

variable {params : List Effect.Param} {links : List (Symbol × Nat)} {link : Symbol × Nat}

/-- Two lists of writes leave the same in cells that both of them reach exactly if the values that
they leave there are the same, as far as the file goes. -/
theorem Writes.apply_agree_iff {α : Type} {ws ws' : Writes α} {left right : Nat → Option α}
    {cell : Nat → Prop} (hleft : ∀ k, ws.value? k = left k) (hright : ∀ k, ws'.value? k = right k)
    (h : ∀ k, cell k → (left k).isSome ∧ (right k).isSome) (file : Array α) :
    (∀ k, cell k → (ws.apply file)[k]? = (ws'.apply file)[k]?) ↔
      ∀ k < file.size, cell k → left k = right k := by
  have hreached : ∀ {value? : Option α} {k : Nat}, k < file.size → value?.isSome →
      file[k]?.map value?.getD = value? := by
    intro value? k hk hsome
    obtain ⟨a, rfl⟩ := isSome_iff_exists.mp hsome
    rw [Array.getElem?_eq_getElem hk]
    rfl
  simp only [getElem?_apply, hleft, hright]
  constructor
  · intro hsame k hk hcell
    rw [← hreached hk (h k hcell).1, hsame k hcell, hreached hk (h k hcell).2]
  · intro hsame k hcell
    by_cases hk : k < file.size
    · rw [hreached hk (h k hcell).1, hsame k hk hcell, hreached hk (h k hcell).2]
    · rw [Array.getElem?_eq_none (by omega), map_none, map_none]

namespace Device

open PlaybackM

variable {info : TypeInfo} {words : List Word} {s : Symbol} {k : Nat}

/-! ### Copies for selectors -/

/-- What the copy of words to the inputs of a selector leaves in a cell: component `k % 4` of
register `k / 4`. Only whole rows are copied. -/
def selectedFloat (info : TypeInfo) (words : List Word) (s : Symbol) (k : Nat) : Option Binary32 :=
  if s.index ≤ k / 4 ∧ k % 4 < info.columns ∧ 4 * (k / 4 - s.index + 1) ≤ words.length then
    words[k - 4 * s.index]?.map Binary32.mk
  else none

theorem selectorRowWrites_eq (columns : Nat) : (start : Nat) → (words : List Word) →
    selectorRowWrites columns start words = rowWrites start
      ((((wordRows words).map (·.take columns)).take (words.length / 4)).map (·.map Binary32.mk))
  | start, a :: b :: c :: d :: rest => by
    have hrows : (a :: b :: c :: d :: rest).length / 4 = rest.length / 4 + 1 :=
      Nat.add_div_right rest.length (by decide : 0 < 4)
    rw [hrows, wordRows, map_cons, take_succ_cons, map_cons, rowWrites,
      selectorRowWrites, selectorRowWrites_eq columns (start + 4) rest]
  | _, [] | _, [_] | _, [_, _] | _, [_, _, _] => by simp [selectorRowWrites, rowWrites]

theorem value?_selectorRowWrites (info : TypeInfo) (words : List Word) (s : Symbol) (k : Nat) :
    (selectorRowWrites (min info.columns 4) (4 * s.index) words).value? k =
      selectedFloat info words s k := by
  rw [selectorRowWrites_eq, value?_cut_wordRows, selectedFloat]
  exact if_congr (by omega) rfl rfl

/-- The copies for a selector in turn, if every parameter has words. -/
theorem value?_selectorWrites
    (h : ∀ link ∈ links, ∀ p, params[link.2]? = some p → ∃ words, p.value.words = .ok words)
    (k : Nat) : (selectorWrites params links).1.value? k =
      lastCopied params links fun info words s => selectedFloat info words s k := by
  induction links with
  | nil => rfl
  | cons link rest ih =>
    obtain ⟨s, n⟩ := link
    rw [forall_mem_cons] at h
    rw [lastCopied_cons, selectorWrites, fed?, ← ih h.2]
    cases hp : params[n]? with
    | none => simp
    | some p =>
      obtain ⟨words, hwords⟩ := h.1 p hp
      simp [hwords, Writes.value?_append, value?_selectorRowWrites, Except.toOption]

/-! ### Components that both copies serve -/

/-- Component `k % 4` of register `k / 4` is one that a symbol takes from its parameter: the symbol
has the register, and the parameter the row and the column. -/
def TakesComponent (info : TypeInfo) (words : List Word) (s : Symbol) (k : Nat) : Prop :=
  (s.index ≤ k / 4 ∧ k / 4 < s.index + s.count) ∧ k % 4 < info.columns ∧
    4 * (k / 4 - s.index + 1) ≤ words.length

def InputCell (params : List Effect.Param) (links : List (Symbol × Nat)) (k : Nat) : Prop :=
  ∃ link ∈ links, ∃ info words, fed? params link = some (info, words) ∧
    TakesComponent info words link.1 k

/-- No other symbol, by either copy, reaches a component that a symbol takes. -/
def Apart (params : List Effect.Param) (links : List (Symbol × Nat)) : Prop :=
  ∀ link ∈ links, ∀ info words, fed? params link = some (info, words) →
    ∀ k, TakesComponent info words link.1 k →
      ∀ link' ∈ links, ∀ info' words', fed? params link' = some (info', words') →
        (selectedFloat info' words' link'.1 k).isSome ∨
          (copiedFloat info' words' link'.1 k).isSome → link' = link

theorem TakesComponent.exists_word (h : TakesComponent info words s k)
    (hset : s.registerSet = .float4) : ∃ w, words[k - 4 * s.index]? = some w ∧
      selectedFloat info words s k = some ⟨w⟩ ∧
      copiedFloat info words s k =
        some (if info.elem = .float ∨ info.cls = .struct then ⟨w⟩ else floatOfWord w) := by
  obtain ⟨⟨hfirst, hlast⟩, hcolumn, hrow⟩ := h
  have hlt : k - 4 * s.index < words.length := by omega
  refine ⟨words[k - 4 * s.index], getElem?_eq_getElem hlt, ?_, ?_⟩
  · rw [selectedFloat, if_pos ⟨hfirst, hcolumn, hrow⟩, getElem?_eq_getElem hlt]
    rfl
  · have hconverted : k % 4 < convertedColumns info := by
      unfold convertedColumns
      omega
    have hverbatim : isVerbatim info s = true ↔ info.elem = .float ∨ info.cls = .struct := by
      simp [isVerbatim, hset]
    rw [copiedFloat, if_pos ⟨by omega, by omega⟩, getElem?_eq_getElem hlt]
    simp only [hverbatim, if_pos (And.intro hset hconverted), map_some]
    exact (apply_ite some _ _ _).symm

/-- If only one copy reaches a cell, it is the last. -/
theorem lastCopied_eq_of_unique {α : Type} {copied : TypeInfo → List Word → Symbol → Option α}
    (hlink : link ∈ links) (hfed : fed? params link = some (info, words))
    (hsome : (copied info words link.1).isSome)
    (hunique : ∀ link' ∈ links, ∀ info' words', fed? params link' = some (info', words') →
      (copied info' words' link'.1).isSome → link' = link) :
    lastCopied params links copied = copied info words link.1 := by
  obtain ⟨a, ha⟩ := isSome_iff_exists.mp (isSome_lastCopied copied hlink hfed hsome)
  obtain ⟨link', hlink', info', words', hfed', ha'⟩ := exists_of_lastCopied ha
  obtain rfl := hunique link' hlink' info' words' hfed' (ha' ▸ rfl)
  obtain ⟨rfl, rfl⟩ := Prod.mk.inj (some.inj (hfed.symm.trans hfed'))
  rw [ha, ha']

/-! ### Inputs of a selector -/

def selectorInputs? (e : Effect) (object : Nat) : Option (Array Binary32) :=
  (shaderObject? e object).bind fun x =>
    match x.code with
    | .selector pre => some pre.registers
    | .shader _ => none

theorem selectorInputs?_runSelector {b : Playback} {d : Device} {object : Nat}
    {x : Effect.ShaderObject} {pre : Preshader} (hx : shaderObject? b.effect object = some x)
    (hcode : x.code = .selector pre) :
    selectorInputs? ((runSelector object).outcome b d).1.2.effect object =
      some ((selectorWrites b.effect.params (pre.symbols.zip x.preshaderParams)).1.apply
        pre.registers) := by
  have hselector : (shaderObject? b.effect object).any (·.isSelector) = true := by
    rw [hx, any_some, Effect.ShaderObject.isSelector, hcode]
  rw [runSelector_outcome]
  simp only [hselector, if_true]
  rw [selectorInputs?, Effect.shaderObject?_primed, hx, map_some, if_pos rfl,
    Effect.ShaderObject.primed_of_selector hcode]
  rfl

section Agreement

variable {params : List Effect.Param} {links : List (Symbol × Nat)}
  (hset : ∀ link ∈ links, link.1.registerSet = .float4)

include hset

theorem InputCell.isSome_lastCopied (h : InputCell params links k) :
    (lastCopied params links fun info words s => selectedFloat info words s k).isSome ∧
      (lastCopied params links fun info words s => copiedFloat info words s k).isSome := by
  obtain ⟨link, hlink, info, words, hfed, htakes⟩ := h
  obtain ⟨w, -, hselected, hcopied⟩ := htakes.exists_word (hset link hlink)
  exact ⟨Device.isSome_lastCopied (fun info words s => selectedFloat info words s k) hlink hfed
      (isSome_of_eq_some hselected),
    Device.isSome_lastCopied (fun info words s => copiedFloat info words s k) hlink hfed
      (isSome_of_eq_some hcopied)⟩

/-- If no other parameter reaches a component, what is left there comes from one word. -/
theorem Apart.lastCopied_eq (hapart : Apart params links) (hlink : link ∈ links)
    (hfed : fed? params link = some (info, words)) (htakes : TakesComponent info words link.1 k) :
    ∃ w, words[k - 4 * link.1.index]? = some w ∧
      (lastCopied params links fun info words s => selectedFloat info words s k) = some ⟨w⟩ ∧
      (lastCopied params links fun info words s => copiedFloat info words s k) =
        some (if info.elem = .float ∨ info.cls = .struct then ⟨w⟩ else floatOfWord w) := by
  obtain ⟨w, hw, hselected, hcopied⟩ := htakes.exists_word (hset link hlink)
  have hunique := hapart link hlink info words hfed k htakes
  refine ⟨w, hw, hselected ▸ ?_, hcopied ▸ ?_⟩
  · exact lastCopied_eq_of_unique hlink hfed (isSome_of_eq_some hselected)
      fun link' hlink' info' words' hfed' h => hunique link' hlink' info' words' hfed' (.inl h)
  · exact lastCopied_eq_of_unique hlink hfed (isSome_of_eq_some hcopied)
      fun link' hlink' info' words' hfed' h => hunique link' hlink' info' words' hfed' (.inr h)

end Agreement

/-- After a selector has run, its inputs are compared with those that an embedded preshader would
have from the same parameters, symbols and registers, on the components that symbols take from their
parameters. They are the same exactly if for each of these components that is in the registers, the
last word that is copied for the selector is, as a float, what the last one that is copied for an
embedded preshader leaves there. If no two parameters meet in a component, they are the same exactly
if every word of a parameter of integers or booleans is the float that it is converted to. -/
theorem selector_inputs_agree_iff {b : Playback} {object : Nat} {x : Effect.ShaderObject}
    {pre : Preshader} (hx : shaderObject? b.effect object = some x)
    (hcode : x.code = .selector pre) (hset : ∀ s ∈ pre.symbols, s.registerSet = .float4)
    (hwords : ∀ n ∈ x.preshaderParams, ∀ p, b.effect.params[n]? = some p →
      ∃ words, p.value.words = .ok words) (d : Device) :
    let links := pre.symbols.zip x.preshaderParams
    let embedded := (copyParameters b.effect.params x.preshaderParams pre.symbols
      ⟨pre.registers, none, none⟩).floats
    ∃ inputs, selectorInputs? ((runSelector object).outcome b d).1.2.effect object = some inputs ∧
      ((∀ k, InputCell b.effect.params links k → inputs[k]? = embedded[k]?) ↔
        ∀ k < pre.registers.size, InputCell b.effect.params links k →
          (lastCopied b.effect.params links fun info words s => selectedFloat info words s k) =
            lastCopied b.effect.params links fun info words s => copiedFloat info words s k) ∧
      (Apart b.effect.params links →
        ((∀ k, InputCell b.effect.params links k → inputs[k]? = embedded[k]?) ↔
          ∀ link ∈ links, ∀ info words, fed? b.effect.params link = some (info, words) →
            info.elem ≠ .float → info.cls ≠ .struct →
              ∀ k < pre.registers.size, TakesComponent info words link.1 k →
                ∀ w, words[k - 4 * link.1.index]? = some w → floatOfWord w = ⟨w⟩)) := by
  intro links embedded
  have hsets : ∀ link ∈ links, link.1.registerSet = .float4 :=
    fun link hlink => hset link.1 (List.of_mem_zip hlink).1
  have hcells := Writes.apply_agree_iff
    (value?_selectorWrites fun link hlink => hwords link.2 (List.of_mem_zip hlink).2)
    (value?_linkWrites_floats b.effect.params links)
    (fun k hk => InputCell.isSome_lastCopied hsets hk) pre.registers
  have hembedded : embedded =
      (linkWrites b.effect.params links).floats.apply pre.registers := by
    simp [embedded, copyParameters_eq, ParameterTarget.write, links]
  rw [hembedded]
  refine ⟨_, selectorInputs?_runSelector hx hcode, hcells, fun hapart => hcells.trans ?_⟩
  constructor
  · intro h link hlink info words hfed helem hcls k hk htakes w hw
    obtain ⟨w', hw', hselected, hcopied⟩ := hapart.lastCopied_eq hsets hlink hfed htakes
    obtain rfl := Option.some.inj (hw.symm.trans hw')
    have hsame := h k hk ⟨link, hlink, info, words, hfed, htakes⟩
    rw [hselected, hcopied, if_neg (not_or.mpr ⟨helem, hcls⟩)] at hsame
    exact (Option.some.inj hsame).symm
  · rintro h k hk ⟨link, hlink, info, words, hfed, htakes⟩
    obtain ⟨w, hw, hselected, hcopied⟩ := hapart.lastCopied_eq hsets hlink hfed htakes
    rw [hselected, hcopied]
    split_ifs with hverbatim
    · rfl
    · obtain ⟨helem, hcls⟩ := not_or.mp hverbatim
      rw [h link hlink info words hfed helem hcls k hk htakes w hw]

def indexSelector : Preshader where
  literals := #[]
  tempCount := 0
  symbols := [⟨"Index", .float4, 0, 1, ⟨.scalar, .float, 1, 1, 0, []⟩⟩]
  registers := Array.replicate 4 .zero
  instructions := [⟨.mov, 1, [⟨.input, 0, []⟩, ⟨.output, 0, []⟩]⟩]

def indexEffect : Effect where
  profile := .glsl120
  diagnostics := []
  params := [⟨⟨some "Index", none, ⟨.scalar, .int, 1, 1, 0, []⟩, .registers [1, 0, 0, 0]⟩, []⟩]
  techniques := []
  objects := #[⟨.pixelShader, .shader ⟨none, none, .selector indexSelector, [], [0], []⟩⟩]
  technique := none
  pass := none

/-- The selector finds another number than an embedded preshader would: the integer one, as the bits
of a float, is not the float one. -/
theorem selector_inputs_agree_iff_index :
    ∃ inputs, selectorInputs?
        ((runSelector 0).outcome (soloPlayback indexEffect) soloDevice).1.2.effect 0 = some inputs ∧
      ¬∀ k, InputCell indexEffect.params (indexSelector.symbols.zip [0]) k →
        inputs[k]? = (copyParameters indexEffect.params [0] indexSelector.symbols
          ⟨indexSelector.registers, none, none⟩).floats[k]? := by
  obtain ⟨inputs, hinputs, -, hiff⟩ := @selector_inputs_agree_iff (soloPlayback indexEffect) 0 _
    indexSelector rfl rfl (by decide) (by
      rintro n hn p hp
      obtain rfl := List.mem_singleton.mp hn
      obtain rfl := Option.some.inj hp
      exact ⟨_, rfl⟩) soloDevice
  refine ⟨inputs, hinputs, fun hagree => ?_⟩
  have hapart : Apart indexEffect.params (indexSelector.symbols.zip [0]) := by
    intro link hlink _ _ _ _ _ link' hlink' _ _ _ _
    rw [List.mem_singleton.mp hlink, List.mem_singleton.mp hlink']
  have hone := (hiff hapart).mp hagree _ List.mem_cons_self _ _ rfl (by decide) (by decide) 0
    (by decide) ⟨by decide, by decide, by decide⟩ 1 rfl
  exact absurd hone (by decide)

end Device

end ShaderPipeline
