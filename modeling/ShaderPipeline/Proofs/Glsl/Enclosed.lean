import ShaderPipeline.Proofs.Glsl.Braces
import ShaderPipeline.Proofs.Layout.FlowFaults
import ShaderPipeline.Proofs.Lowering.Agreement

/-!
# Statements inside of functions

Every brace that a shader opens is closed again, and none is closed that was not opened. Statements
stand inside of functions up to a return outside of all blocks. That ends the function; what follows
it before the next label is written outside of functions.
-/

namespace ShaderPipeline.Glsl

open BodyState List String BodyProgress

variable {l : Layout} {i : Instruction} {strict inside : Bool} {blocks : List Block} {α : Type}
  {lines : List Line} {s : Statement} {d : Nat}

/-- Whether all statements are written while a function is open. -/
def isEnclosed : List Instruction → List Block → Bool → Bool
  | [], _, _ => true
  | i :: is, blocks, inside =>
    (inside || isSilent i blocks) &&
      isEnclosed is (openedBy i blocks) (opensFunction i blocks inside)

theorem opensFunction_of_not_silent (h : isSilent i blocks = false) :
    opensFunction i blocks inside = inside := by
  rw [opensFunction, h, if_neg (by simp), if_neg (by simp)]

/-- Outside of functions there are no blocks, as long as nothing is written there. -/
theorem openedBy_eq_nil (hsilent : isSilent i blocks = true)
    (hblocks : inside = false → blocks = [])
    (hclosed : opensFunction i blocks inside = false) : openedBy i blocks = [] := by
  unfold isSilent at hsilent
  unfold opensFunction isSilent at hclosed
  unfold openedBy Instruction.flowRole
  cases hop : i.opcode <;> rw [hop] at hsilent hclosed
  case comment | stop | phase | nop | dcl | defFloat | defInt | defBool => exact hblocks hclosed
  case label => cases hclosed
  case ret => exact isEmpty_iff.mp hsilent
  all_goals cases hsilent

/-- A body follows the blocks to its end. If a statement is written while no function is open, it
stands at depth zero. -/
theorem follows_foldl {is : List Instruction} {p : BodyProgress} (hfitting : Fitting is blocks)
    (hfaults : (is.foldl (step l) p).faults = [])
    (henclosed : strict = true → isEnclosed is blocks inside = true)
    (h : p.body.Follows strict inside blocks) :
    (∃ inside', (is.foldl (step l) p).body.Follows strict inside' []) ∧
      ((inside = false → blocks = []) → isEnclosed is blocks inside = false → ∃ n s before,
        .inside n s :: before <:+ (is.foldl (step l) p).body.lines ∧ Reads strict before 0) := by
  induction is generalizing p blocks inside with
  | nil =>
    obtain rfl : blocks = [] := hfitting
    exact ⟨⟨inside, h⟩, nofun⟩
  | cons i is ih =>
    obtain ⟨hfits, hfitting⟩ := hfitting
    have hrun := (run_of_faults_eq_nil (exists_run_foldl (p := p.step l i) hfaults).1).2
    have henclosed' hstrict := Bool.and_eq_true_iff.mp (henclosed hstrict)
    rw [isEnclosed, Bool.and_eq_false_iff]
    cases hsilent : isSilent i blocks with
    | true =>
      obtain ⟨hend, houtside⟩ := ih hfitting hfaults (fun hstrict => (henclosed' hstrict).2)
        (follows_of_isSilent hfits hsilent h hrun)
      exact ⟨hend, fun hblocks hlater => houtside (openedBy_eq_nil hsilent hblocks)
        (hlater.resolve_left (by simp))⟩
    | false =>
      simp only [opensFunction_of_not_silent hsilent] at henclosed' ⊢
      obtain ⟨hfollows, hwrites⟩ := turns_instruction hfits hsilent (fun hstrict => by
        simpa [hsilent] using (henclosed' hstrict).1) _ _ _ hrun h
      obtain ⟨hend, houtside⟩ := ih hfitting hfaults (fun hstrict => (henclosed' hstrict).2)
        hfollows
      refine ⟨hend, fun hblocks hlater => ?_⟩
      cases inside with
      | true => exact houtside nofun (hlater.resolve_left (by simp))
      | false =>
        obtain rfl := hblocks rfl
        obtain ⟨n, s, hline⟩ := hwrites rfl
        exact ⟨n, s, _, hline.trans (suffix_foldl_step is _), h.depth⟩

/-- The text of lines, of which the last one stands first. -/
def textOf (lines : List Line) : String := String.join (lines.reverse.map Line.text)

theorem Reads.depthAfter (h : Reads strict lines d) :
    depthAfter (textOf lines).toList 0 = some d := by
  induction lines generalizing d with
  | nil => exact h ▸ rfl
  | cons line lines ih =>
    obtain ⟨e, h, -, hline⟩ := h
    rw [textOf, reverse_cons, map_append, join_append, toList_append,
      depthAfter_append, ← textOf, ih h]
    simpa using hline

/-- Every statement that a strict reader reads stands inside a function. -/
theorem Reads.exists_pos {before : List Line} {n : Nat} (h : Reads true lines d)
    (hbefore : .inside n s :: before <:+ lines) : ∃ e, Reads true before e ∧ 0 < e := by
  obtain ⟨after, rfl⟩ := hbefore
  induction after generalizing d with
  | nil =>
    obtain ⟨e, h, he, -⟩ := h
    exact ⟨e, h, he rfl rfl⟩
  | cons line after ih =>
    obtain ⟨e, h, -⟩ := h
    exact ih h

theorem follows_prologue (hentry : Plain l.options.entry) :
    ((start l).prologue l).Follows strict true [] := by
  have hstart : (start l).Follows strict true [] :=
    ⟨rfl, nofun, rfl, reads_openFunction hentry rfl, rfl, fun _ => rfl⟩
  unfold prologue
  split_ifs
  · exact hstart
  · have hplain : ∀ o ∈ outputVariables l, Plain o.2 := by
      intro o ho
      obtain ⟨_, -, ho⟩ := mem_filterMap.mp ho
      split at ho <;> cases ho
      next heq => exact plain_of_outputName heq
    obtain ⟨lines, heq, hlines⟩ := reads_foldl_write (outputVariables l)
      (f := fun o : Output × String => .assign (.name o.2) (.splat .zero))
      (fun o ho => ⟨hplain o ho, rfl, trivial, trivial⟩) (fun _ => ⟨rfl, rfl⟩)
      hstart.depth fun _ => Nat.one_pos
    rw [heq]
    exact { hstart with depth := hlines }

/-! ### Headers -/

/-- A line of a header whose names have no braces. -/
def HeaderLine.Plain : HeaderLine → Prop
  | version _ | lighting | blank => True
  | extension a b | precision a b | uniformArray a b _ | slotName a b _ | sampler a b
  | global a b => Glsl.Plain a ∧ Glsl.Plain b
  | floatConstant n _ | intConstant n _ | boolConstant n _ | vertexInput n | varying n
  | subroutine n => Glsl.Plain n

theorem HeaderLine.Plain.moves {line : HeaderLine} (h : line.Plain) : Moves line.text 0 0 := by
  have hlist {q : Quad String} (hq : ∀ t ∈ q.toList, Glsl.Plain t) :
      Glsl.Plain (commaSeparated q) := plain_intercalate hq
  have hint (n : Int) : Glsl.Plain (toString n) := by
    cases n with
    | ofNat n => exact plain_repr n
    | negSucc n => exact plain_append (a := "-").mpr ⟨rfl, plain_repr (n + 1)⟩
  cases line <;> delta text
  case lighting =>
    simp only [lightingFunction, String.join_cons]
    refine (Glsl.Plain.moves (by decide +kernel) 0).append ((moves_of_depthAfter rfl).append ?_)
    iterate 7 refine (Glsl.Plain.moves (by decide +kernel) 1).append ?_
    exact moves_of_depthAfter rfl
  all_goals
    refine Glsl.Plain.moves ?_ 0
    simp_all +decide [Plain]
  case floatConstant => exact hlist (by simp [Quad.toList, Quad.map])
  case intConstant => exact hlist (by simp [Quad.toList, Quad.map, hint])
  case boolConstant => split_ifs <;> rfl

theorem plain_attribute (hstage : l.stage = .pixel) {a : Attribute} (ha : a ∈ l.attributes) :
    Plain a.name := by
  have hvarying : ∃ s : Semantic, a.name = s.varyingName := by
    unfold Layout.attributes at ha
    rw [hstage] at ha
    split_ifs at ha <;> simp at ha <;> grind
  obtain ⟨s, hs⟩ := hvarying
  exact hs ▸ plain_varyingName s

/-- A register is declared by its definition or its slot. -/
theorem plain_registerLines {line : String → α → HeaderLine} {definition : Nat → Option α}
    {slot : Nat → Option Nat} {name : Nat → String} {array : String} (hname : ∀ n, Plain (name n))
    (harray : Plain array) (hline : ∀ name v, Plain name → (line name v).Plain) (ns : List Nat) :
    ∀ x ∈ ns.filterMap fun n => registerLine (name n) array line (definition n) (slot n),
      x.Plain := by
  intro x hx
  obtain ⟨n, -, hx⟩ := mem_filterMap.mp hx
  unfold registerLine at hx
  split at hx <;> cases hx
  · exact hline _ _ (hname n)
  · exact ⟨hname n, harray⟩

theorem plain_interfaceLines : ∀ line ∈ interfaceLines l, line.Plain := by
  unfold interfaceLines
  split
  · refine forall_mem_append.mpr ⟨forall_mem_map.mpr fun i _ =>
      plain_append.mpr ⟨rfl, plain_repr i.1⟩, forall_mem_map.mpr fun t ht => ?_⟩
    obtain ⟨o, -, rfl⟩ := mem_map.mp (mem_filter.mp ht).1
    exact plain_outputTarget o
  · next hstage => exact forall_mem_map.mpr fun a ha => plain_attribute hstage ha

theorem forall_mem_ite {P : HeaderLine → Prop} {c : Prop} [Decidable c]
    {lines lines' : List HeaderLine} (h : ∀ line ∈ lines, P line) (h' : ∀ line ∈ lines', P line) :
    ∀ line ∈ if c then lines else lines', P line := by
  split_ifs
  · exact h
  · exact h'

theorem plain_header : ∀ line ∈ header l, line.Plain := by
  have htag {t : String} (ht : Plain t) : Plain (l.tag ++ t) := plain_append.mpr ⟨plain_tag _, ht⟩
  have hname {t : String} (ht : Plain t) (n : Nat) : Plain (l.tag ++ t ++ toString n) :=
    plain_append.mpr ⟨htag ht, plain_repr n⟩
  have hpacked {type name : String} {count : Nat} (htype : Plain type) (hname : Plain name) :
      ∀ line ∈ packedArray type name count, line.Plain :=
    forall_mem_ite (forall_mem_singleton.mpr ⟨htype, hname⟩) (forall_mem_nil _)
  simp only [header, forall_mem_append]
  refine ⟨⟨⟨⟨⟨⟨⟨⟨⟨⟨⟨?_, ?_⟩, ?_⟩, ?_⟩, ?_⟩, ?_⟩, ?_⟩, plain_interfaceLines⟩, ?_⟩, ?_⟩, ?_⟩, ?_⟩
  · simp only [preamble, forall_mem_append]
    refine ⟨⟨⟨⟨⟨forall_mem_singleton.mpr trivial, ?_⟩, ?_⟩, ?_⟩, ?_⟩, ?_⟩
    all_goals (try split_ifs) <;> simp +decide [HeaderLine.Plain]
  · simp only [packedArrays, forall_mem_append]
    exact ⟨⟨hpacked rfl (htag rfl), hpacked rfl (htag rfl)⟩, hpacked rfl (htag rfl)⟩
  · exact plain_registerLines (hname (t := "_c") rfl) (by exact htag rfl)
      (by exact fun _ _ h => h) _
  · exact forall_mem_map.mpr fun u _ => ⟨rfl, plain_uniformName _ u⟩
  · exact plain_registerLines (hname (t := "_i") rfl) (by exact htag rfl)
      (by exact fun _ _ h => h) _
  · exact plain_registerLines (hname (t := "_b") rfl) (by exact htag rfl)
      (by exact fun _ _ h => h) _
  · refine forall_mem_map.mpr fun n _ => ⟨?_, hname (t := "_s") rfl n.1⟩
    cases n.2.kind <;> rfl
  · simp only [registerVariables, forall_mem_append]
    refine ⟨⟨⟨⟨?_, ?_⟩, ?_⟩, ?_⟩, forall_mem_ite (forall_mem_nil _) fun line hline => ?_⟩
    · exact forall_mem_map.mpr fun n _ => ⟨rfl, hname (t := "_r") rfl n⟩
    · exact forall_mem_map.mpr fun n _ => ⟨rfl, hname (t := "_a") rfl n⟩
    · exact forall_mem_ite (forall_mem_singleton.mpr ⟨rfl, htag rfl⟩) (forall_mem_nil _)
    · exact forall_mem_ite (forall_mem_nil _)
        (forall_mem_map.mpr fun n _ => ⟨rfl, plain_append.mpr ⟨rfl, plain_repr n⟩⟩)
    · obtain ⟨o, -, hline⟩ := mem_filterMap.mp hline
      split at hline <;> cases hline
      next heq => exact ⟨rfl, BodyState.plain_of_outputName heq⟩
  · exact forall_mem_ite (forall_mem_singleton.mpr trivial) (forall_mem_nil _)
  · exact forall_mem_map.mpr fun n _ => hname (t := "_l") rfl n
  · exact forall_mem_singleton.mpr trivial

theorem moves_header : Moves (join ((header l).map HeaderLine.text)) 0 0 :=
  moves_join (forall_mem_map.mpr fun line hline => (plain_header line hline).moves)

theorem moves_entryCall {entry : String} (hentry : Plain entry) :
    Moves (join ((entryCall entry).map Line.text)) 0 0 := by
  unfold entryCall
  split_ifs
  · exact moves_of_depthAfter rfl
  · have hopened : Reads false [.openFunction Options.defaultEntry] 1 :=
      reads_openFunction (by decide) rfl
    have hcall := reads_write (s := .call entry) (d := 1)
      (b := ⟨[.openFunction Options.defaultEntry], 1, [], 0, 0, 0, true, false⟩) hentry hopened
      (by simp)
    exact moves_of_depthAfter (Reads.depthAfter ⟨_, hcall, nofun, rfl⟩ :
      depthAfter (textOf [.closeFunction, _, _]).toList 0 = some 0)

section Bodies

variable {is : List Instruction} (hfitting : Fitting is [])
  (hfaults : (writeBody l is).faults = []) (hentry : Plain l.options.entry)

include hfitting hfaults hentry

theorem reads_writeBody (strict : Bool) (henclosed : strict = true → isEnclosed is [] true = true) :
    Reads strict (writeBody l is).body.lines 0 := by
  obtain ⟨⟨inside, h⟩, -⟩ := follows_foldl hfitting hfaults henclosed (follows_prologue hentry)
  exact h.closeFunction.depth

/-- The braces of the whole text match. -/
theorem depthAfter_text : depthAfter (ofInstructions l is).1.text.toList 0 = some 0 := by
  have hbody := moves_of_depthAfter
    (reads_writeBody hfitting hfaults hentry false nofun).depthAfter
  have hend : Moves "\n" 0 0 := moves_of_depthAfter rfl
  unfold Program.text
  dsimp only
  split_ifs
  · exact (moves_header.append hbody).append (moves_of_depthAfter (t := "") rfl) 0
  · exact (moves_header.append hbody).append (hend.append (moves_entryCall hentry)) 0

/-- All statements stand inside of functions exactly if none is written while no function is
open. -/
theorem statements_enclosed_iff :
    (∀ before n t after, (ofInstructions l is).1.body = before ++ .inside n t :: after →
      ∃ d, 0 < d ∧ depthAfter (join ((header l).map HeaderLine.text) ++
        join (before.map Line.text)).toList 0 = some d) ↔ isEnclosed is [] true = true := by
  have hbefore (before : List Line) : depthAfter (join ((header l).map HeaderLine.text) ++
      textOf before).toList 0 = depthAfter (textOf before).toList 0 := by
    have hheader := moves_header (l := l) 0
    rw [Nat.add_zero] at hheader
    rw [toList_append, depthAfter_append, hheader, Option.bind_some]
  constructor
  · intro hinside
    by_contra henclosed
    have hfollows : ((start l).prologue l).Follows false true [] := follows_prologue hentry
    obtain ⟨n, t, before, hline, hreads⟩ := (follows_foldl hfitting hfaults (by nofun) hfollows).2
      nofun (Bool.eq_false_iff.mpr henclosed)
    obtain ⟨after, hafter⟩ := hline.trans (suffix_closeFunction l _)
    obtain ⟨d, hd, hdepth⟩ := hinside before.reverse n t after.reverse
      ((congrArg reverse hafter).symm.trans (by simp))
    obtain rfl : d = 0 := Option.some.inj
      (hdepth.symm.trans ((hbefore before).trans hreads.depthAfter))
    exact absurd hd (by decide)
  · intro henclosed before n t after hbody
    have hreads := reads_writeBody hfitting hfaults hentry true fun _ => henclosed
    have hline : .inside n t :: before.reverse <:+ (writeBody l is).body.lines :=
      ⟨after.reverse, by rw [← reverse_eq_iff.mpr hbody.symm]; simp⟩
    obtain ⟨d, hreads, hd⟩ := hreads.exists_pos hline
    have hdepth := (hbefore before.reverse).trans hreads.depthAfter
    rw [textOf, reverse_reverse] at hdepth
    exact ⟨d, hd, hdepth⟩

end Bodies

end ShaderPipeline.Glsl

namespace ShaderPipeline

open Glsl

/-- A survey without faults has seen all blocks closed. -/
theorem fitting_of_allFaults {e : Surroundings} {is : List Instruction}
    (h : (Survey.ofInstructions e is).allFaults = []) : Fitting is [] := by
  obtain ⟨hquiet, hflow⟩ := Survey.quiet_ofInstructions e is
  obtain ⟨hq, hblocks, -⟩ := (Survey.Progress.quiet_allFaults_iff _).mp (by simp [h] :
    ∀ fault ∈ (Survey.ofInstructions e is).allFaults, fault.1.isFlow = false)
  exact ((FlowState.quiet_iff is (Nat.zero_le _)).mp ⟨hquiet.mp hq, hflow ▸ hblocks⟩).1

/-- For every shader that is lowered without faults to the shading language, with an entry function
whose name has no braces:

* the braces of the text match: the depth never falls below zero, and is zero at the end;
* all statements stand inside of functions exactly if no instruction that writes one stands between
  a return that ends a function and the next label. -/
theorem Shader.statements_inside_iff {profile : Profile} {options : Options} {s : Shader}
    (hglsl : profile.isGlsl = true) (hentry : Plain options.entry)
    (hok : (LoweredShader.ofShader profile options s).isOk = true) :
    let code := LoweredShader.ofShader profile options s
    let p := (ofInstructions (s.layout profile options (Annexes.ofShader s).symbols)
      s.instructions).1
    code.output = p.text ∧ depthAfter code.output.toList 0 = some 0 ∧
      ((∀ before n t after, p.body = before ++ .inside n t :: after → ∃ d, 0 < d ∧
        depthAfter (String.join (p.header.map HeaderLine.text) ++
          String.join (before.map Line.text)).toList 0 = some d) ↔
        isEnclosed s.instructions [] true = true) := by
  intro code p
  have hfitting := fitting_of_allFaults (isOk_ofShader_iff.mp hok).2.1
  have hfaults := Glsl.faults_eq_nil_of_isOk hglsl hok
  have hprofile : (s.layout profile options (Annexes.ofShader s).symbols).profile.isGlsl = true :=
    hglsl
  have houtput : code.output = p.text := by
    rw [LoweredShader.output_ofShader profile options s hok, writeShader, if_pos hprofile]
  refine ⟨houtput, ?_, statements_enclosed_iff hfitting hfaults hentry⟩
  rw [houtput]
  exact depthAfter_text hfitting hfaults hentry

/-- A pixel shader that goes on after it has returned. -/
def returningShader : Shader where
  version := ⟨.pixel, 2, 0⟩
  instructions :=
    let copy (index position : Nat) : Instruction := { Instruction.marker index position .mov with
      length := 3
      operands := [.dst ⟨⟨.colorOut, 0, none⟩, .full⟩, .src ⟨⟨.temp, 0, none⟩, .identity, .plain⟩] }
    [copy 0 1, .marker 1 4 .ret, copy 2 5, .marker 3 8 .stop]

/-- Its braces match, and not all of its statements stand inside of functions. -/
theorem Shader.statements_inside_iff_returning :
    let p := (ofInstructions (returningShader.layout .glsl default [])
      returningShader.instructions).1
    depthAfter p.text.toList 0 = some 0 ∧
      ¬∀ before n t after, p.body = before ++ .inside n t :: after → ∃ d, 0 < d ∧
        depthAfter (String.join (p.header.map HeaderLine.text) ++
          String.join (before.map Line.text)).toList 0 = some d := by
  have hok : (LoweredShader.ofShader .glsl default returningShader).isOk = true := by
    decide +kernel
  obtain ⟨houtput, hdepth, hiff⟩ := statements_inside_iff rfl (by decide) hok
  exact ⟨houtput ▸ hdepth, fun h => absurd (hiff.mp h) (by decide +kernel)⟩

end ShaderPipeline
