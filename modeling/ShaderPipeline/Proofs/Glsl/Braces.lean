import ShaderPipeline.Proofs.Glsl.Plain
import ShaderPipeline.Proofs.Glsl.Written
import ShaderPipeline.Proofs.Layout.Nesting

/-!
# Braces

A body is read brace by brace: `depthAfter` is the depth after a text. Each instruction that fits
the open blocks leaves open what the blocks after it say, so the braces of a body are always those
of the open function and of the open blocks.
-/

namespace ShaderPipeline.Glsl

open List Scope BodyState BodyM Instruction

variable {l : Layout} {i : Instruction} {strict inside : Bool} {blocks blocks' : List Block}
  {b b' : BodyState} {α β : Type} {lines : List Line} {s : Statement} {t u : String} {a c d : Nat}

/-! ### Reading braces -/

/-- The brace depth after a text, unless it falls below zero on the way. -/
def depthAfter : List Char → Nat → Option Nat
  | [], d => some d
  | c :: cs, d =>
    if c = '\x7b' then depthAfter cs (d + 1)
    else if c = '\x7d' then if d = 0 then none else depthAfter cs (d - 1)
    else depthAfter cs d

theorem depthAfter_append (cs ds : List Char) (d : Nat) :
    depthAfter (cs ++ ds) d = (depthAfter cs d).bind (depthAfter ds) := by
  induction cs generalizing d with
  | nil => rfl
  | cons c cs ih =>
    rw [cons_append, depthAfter, depthAfter]
    split_ifs
    · exact ih _
    · rfl
    · exact ih _
    · exact ih _

/-- A text leads from one depth to another, and from what lies below it likewise. -/
def Moves (t : String) (a c : Nat) : Prop := ∀ d, depthAfter t.toList (d + a) = some (d + c)

theorem moves_of_depthAfter (h : depthAfter t.toList a = some c) : Moves t a c := by
  intro d
  generalize t.toList = cs at h ⊢
  induction cs generalizing a with
  | nil => cases h; rfl
  | cons x cs ih =>
    rw [depthAfter] at h ⊢
    split_ifs at h ⊢
    · exact ih h
    · omega
    · rw [Nat.add_sub_assoc (by omega)]
      exact ih h
    · exact ih h

theorem Plain.moves (h : Plain t) (a : Nat) : Moves t a a := by
  refine moves_of_depthAfter ?_
  unfold Plain at h
  generalize t.toList = cs at h ⊢
  induction cs with
  | nil => rfl
  | cons x cs ih =>
    simp only [all_cons, Bool.and_eq_true, bne_iff_ne] at h
    rw [depthAfter, if_neg h.1.1, if_neg h.1.2]
    exact ih h.2

theorem Moves.append {e : Nat} (ht : Moves t a c) (hu : Moves u c e) : Moves (t ++ u) a e := by
  intro d
  rw [String.toList_append, depthAfter_append, ht d]
  exact hu d

theorem moves_join {ts : List String} (h : ∀ t ∈ ts, Moves t a a) : Moves (String.join ts) a a := by
  induction ts with
  | nil => exact moves_of_depthAfter rfl
  | cons t ts ih =>
    rw [String.join_cons]
    exact (h t mem_cons_self).append (ih fun u hu => h u (mem_cons_of_mem _ hu))

namespace Statement

/-- A statement whose names and expressions have no braces. -/
@[simp] def Plain : Statement → Prop
  | assign t v => t.Plain ∧ v.Plain
  | assignIf c t v => c.Plain ∧ t.Plain ∧ v.Plain
  | hold _ v => v.Plain
  | openIf c | breakIf c | discardIf c => c.Plain
  | initCounter n e | openFor n e | advance n e => Glsl.Plain n ∧ e.Plain
  | call f => Glsl.Plain f
  | callIf c f => c.Plain ∧ Glsl.Plain f
  | openBlock | closeBlock | orElse | breakLoop | ret => True

/-- The block that a statement ends. -/
@[simp] def closes : Statement → Nat
  | closeBlock | orElse => 1
  | _ => 0

/-- The block that a statement starts. -/
@[simp] def opens : Statement → Nat
  | openBlock | openIf _ | openFor _ _ | orElse => 1
  | _ => 0

theorem Plain.moves (h : s.Plain) : Moves s.text s.closes s.opens := by
  have hends {t u : String} {d : Nat} (hu : depthAfter u.toList 0 = some d) (ht : Glsl.Plain t) :
      Moves (t ++ u) 0 d := (ht.moves 0).append (moves_of_depthAfter hu)
  have htext {e : Expr} (he : e.Plain) : Glsl.Plain e.text := he.text
  have htype : ∀ kind, Glsl.Plain (vectorType kind) := by rintro ⟨⟩ <;> rfl
  cases s <;> delta text <;> simp only [closes, opens, Plain] at h ⊢
  case openBlock | closeBlock | orElse | breakLoop | ret => exact moves_of_depthAfter rfl
  case openIf | openFor | breakIf => exact hends rfl (by simp_all +decide)
  case callIf =>
    refine Moves.append (Moves.append (hends rfl ?_) (h.2.moves 1)) (moves_of_depthAfter rfl)
    simp_all +decide
  all_goals exact Glsl.Plain.moves (by simp_all +decide [heldName]) 0

end Statement

/-- Whether a line is that of an instruction. -/
def Line.isStatement : Line → Bool
  | .inside _ _ => true
  | _ => false

/-- Lines, of which the last one stands first, lead to a depth. A strict reader refuses statements
outside of functions. -/
def Reads (strict : Bool) : List Line → Nat → Prop
  | [], d => d = 0
  | line :: rest, d => ∃ e, Reads strict rest e ∧
      (strict = true → line.isStatement = true → 0 < e) ∧ depthAfter line.text.toList e = some d

/-- The kind of an open loop. -/
def OpenLoop.block : OpenLoop → Block
  | .counted _ _ => .loop
  | .repeated => .repetition

/-- The braces of the open function and of the blocks, of which a loop has two. -/
def openBraces (inside : Bool) : List Block → Nat
  | [] => inside.toNat
  | .loop :: blocks => openBraces inside blocks + 2
  | _ :: blocks => openBraces inside blocks + 1

theorem openBraces_pos (hopen : strict = true → inside = true) (hstrict : strict = true) :
    0 < openBraces inside blocks := by
  rcases blocks with _ | ⟨_ | _ | _, blocks⟩
  · rw [hopen hstrict]
    exact Nat.one_pos
  all_goals exact Nat.succ_pos _

namespace BodyState

/-- The open loops are those among the open blocks, and the depth is that of the open braces. -/
structure Follows (strict inside : Bool) (blocks : List Block) (b : BodyState) : Prop where
  loops : b.loops.map OpenLoop.block = blocks.filter (· ≠ .condition)
  steps : ∀ n step, .counted n step ∈ b.loops → step.Plain
  count : b.openBlocks = blocks.length
  depth : Reads strict b.lines (openBraces inside blocks)
  isOpen : (b.mainOpen || b.functionOpen) = inside
  main : b.mainOpen = true → b.functionOpen = false

theorem reads_write (hs : s.Plain) (h : Reads strict b.lines (d + s.closes))
    (hd : strict = true → 0 < d + s.closes) : Reads strict (b.write s).lines (d + s.opens) := by
  refine ⟨_, h, fun hstrict _ => hd hstrict, ?_⟩
  have hindent : Plain (indentation b.indent) := by
    rw [Plain, indentation, String.toList_ofList, all_replicate]
    simp
  have hend : Plain "\n" := rfl
  exact ((hindent.moves _).append hs.moves).append (hend.moves _) d

/-- Assignments leave the depth as it is. -/
theorem reads_foldl_write {γ : Type} (xs : List γ) {f : γ → Statement}
    (hf : ∀ x ∈ xs, (f x).Plain) (hflat : ∀ x, (f x).closes = 0 ∧ (f x).opens = 0)
    (h : Reads strict b.lines d) (hd : strict = true → 0 < d) : ∃ lines,
    xs.foldl (fun b x => b.write (f x)) b = { b with lines := lines } ∧ Reads strict lines d := by
  induction xs generalizing b with
  | nil => exact ⟨b.lines, rfl, h⟩
  | cons x xs ih =>
    obtain ⟨hx, hxs⟩ := forall_mem_cons.mp hf
    have hwritten := @reads_write strict b (f x) d hx
    rw [(hflat x).1, (hflat x).2] at hwritten
    exact ih hxs (b := b.write (f x)) (hwritten h hd)

theorem plain_of_outputName {file : RegisterFile} {n : Nat} {name : String}
    (h : outputName l.tag file n = .ok name) : Plain name :=
  yields_ok.mp (h ▸ yields_outputName l.stage file n)

theorem plain_outputTarget (o : Output) : Plain (l.outputTarget o) := by
  unfold Layout.outputTarget
  split
  · split_ifs <;> simp +decide
  · split_ifs <;> rfl
  · rfl
  · rfl
  · exact plain_varyingName _

theorem plain_outputCopy (o : Output) : (outputCopy l o).Plain := by
  refine ⟨plain_outputTarget o, ?_⟩
  generalize hcopied : (if l.version.isEarlyPixel then Expr.name "ps_r0" else _) = source
  have hsource : source.Plain := by
    rw [← hcopied]
    split_ifs
    · rfl
    · split
      · next heq => exact plain_of_outputName heq
      · exact ⟨rfl, trivial, trivial⟩
  split_ifs <;> exact hsource

section Follows

variable (h : b.Follows strict inside blocks) (hopen : strict = true → inside = true)

include h hopen

theorem Follows.write (hs : s.Plain) (hcloses : s.closes = 0 := by rfl)
    (hopens : s.opens = 0 := by rfl) : (b.write s).Follows strict inside blocks := by
  have hwritten := @reads_write strict b s (openBraces inside blocks) hs
  rw [hcloses, hopens] at hwritten
  exact { h with depth := hwritten h.depth (openBraces_pos hopen) }

theorem Follows.openWith (hs : s.Plain) (hcloses : s.closes = 0 := by rfl)
    (hopens : s.opens = 1 := by rfl) :
    (b.openWith s).Follows strict inside (.condition :: blocks) where
  loops := by simpa [BodyState.openWith, BodyState.write] using h.loops
  steps := h.steps
  count := congrArg (· + 1) h.count
  depth := by
    have hwritten := @reads_write strict b s (openBraces inside blocks) hs
    rw [hcloses, hopens] at hwritten
    exact hwritten h.depth (openBraces_pos hopen)
  isOpen := h.isOpen
  main := h.main

theorem Follows.epilogue : ∃ lines, b.epilogue l = { b with lines := lines } ∧
    BodyState.Follows strict inside blocks { b with lines := lines } := by
  obtain ⟨lines, heq, hlines⟩ := reads_foldl_write l.survey.outputs
    (fun o _ => plain_outputCopy (l := l) o) (fun _ => ⟨rfl, rfl⟩) h.depth (openBraces_pos hopen)
  exact ⟨lines, heq, { h with depth := hlines }⟩

/-- A result is held inside a block of its own. -/
theorem Follows.guarded {kind : ValueKind} {value target predicate : Expr} {p : Source}
    {cs : List Component} {indent indent' : Nat} (hvalue : value.Plain) (htarget : target.Plain)
    (hpredicate : predicate.Plain) :
    ({ ({ b.write .openBlock with indent := indent }.write (.hold kind value)).storeHeld target
      predicate p cs with indent := indent' }.write .closeBlock).Follows strict inside blocks := by
  have hopened : Reads strict (b.write .openBlock).lines (openBraces inside blocks + 1) :=
    reads_write (s := .openBlock) trivial h.depth (openBraces_pos hopen)
  have hheld := reads_write (b := { b.write .openBlock with indent := indent })
    (s := .hold kind value) hvalue hopened fun _ => Nat.succ_pos _
  obtain ⟨lines, heq, hlines⟩ := reads_foldl_write cs (f := fun c => .assignIf (inverted
      p.modifier (.select predicate [p.swizzle.get c])) (.select target [c])
      (.select (.name heldName) [c]))
    (fun c _ => ⟨plain_inverted hpredicate, htarget, rfl⟩) (fun _ => ⟨rfl, rfl⟩) hheld
    fun _ => Nat.succ_pos _
  rw [storeHeld, heq]
  exact { h with depth := reads_write (s := .closeBlock) trivial hlines fun _ => Nat.succ_pos _ }

end Follows

theorem Follows.close (h : b.Follows strict inside (.condition :: blocks)) :
    b.close.Follows strict inside blocks where
  loops := by simpa [BodyState.close, BodyState.write] using h.loops
  steps := h.steps
  count := by simp [BodyState.close, BodyState.write, h.count]
  depth := by
    exact reads_write (s := .closeBlock) (b := { b with indent := _, openBlocks := _ }) trivial
      h.depth fun _ => Nat.succ_pos _
  isOpen := h.isOpen
  main := h.main

theorem Follows.closeFunction (h : b.Follows strict inside []) :
    (b.closeFunction l).Follows strict false [] := by
  have ⟨hloops, hsteps, hcount, hdepth, hopen, hmain⟩ := h
  unfold BodyState.closeFunction
  split_ifs with hmainOpen hfunction
  · have hinside : inside = true := by rw [← hopen, hmainOpen, Bool.true_or]
    subst hinside
    obtain ⟨lines, heq, hlines⟩ := h.epilogue (l := l) fun _ => rfl
    rw [heq]
    exact ⟨hloops, hsteps, rfl, ⟨_, hlines.depth, nofun, rfl⟩, hmain hmainOpen, nofun⟩
  · have hinside : inside = true := by rw [← hopen, hfunction, Bool.or_true]
    subst hinside
    exact ⟨hloops, hsteps, rfl, ⟨_, hdepth, nofun, rfl⟩, by simpa using hmainOpen, fun _ => rfl⟩
  · have hinside : inside = false := by simp_all
    exact ⟨hloops, hsteps, rfl, hinside ▸ hdepth, hinside ▸ hopen, hmain⟩

theorem reads_openFunction {name : String} (hname : Plain name) (h : Reads strict lines 0) :
    Reads strict (.openFunction name :: lines) 1 := by
  have hstart : Plain ("void " ++ name) := by simpa +decide using hname
  exact ⟨0, h, nofun, (hstart.moves 0).append (moves_of_depthAfter (t := "()\n\x7b\n") rfl) 0⟩

theorem Follows.openFunction (h : b.Follows strict false []) {name : String} (hname : Plain name) :
    (b.openFunction name).Follows strict true [] := by
  have hclosed := Bool.or_eq_false_iff.mp h.isOpen
  exact ⟨h.loops, h.steps, h.count, reads_openFunction hname h.depth, Bool.or_true _, fun hmain =>
    absurd (hmain.symm.trans hclosed.1) (by decide)⟩

end BodyState

/-! ### Instructions -/

/-- The next line is that of an instruction. -/
def Writes (b b' : BodyState) : Prop := ∃ n s, .inside n s :: b.lines <:+ b'.lines

/-- A step follows the blocks, and outside of all blocks it writes a statement. -/
def Turns (strict inside : Bool) (blocks blocks' : List Block) (m : BodyM α) : Prop :=
  ∀ b b' x, m.run.run b = (.ok x, b') → b.Follows strict inside blocks →
    b'.Follows strict inside blocks' ∧ (blocks = [] → Writes b b')

theorem turns_modify {f : BodyState → BodyState} (hf : ∀ b : BodyState,
      b.Follows strict inside blocks →
        (f b).Follows strict inside blocks' ∧ (blocks = [] → Writes b (f b))) :
    Turns strict inside blocks blocks' (modify f : BodyM Unit) := by
  intro b b' x hrun h
  cases hrun
  exact hf b h

theorem turns_inScope_bind {P : α → Prop} {f : Scope → Except Fault α} {g : α → BodyM β}
    (hf : ∀ s, Yields P (f s)) (hg : ∀ x, P x → Turns strict inside blocks blocks' (g x)) :
    Turns strict inside blocks blocks' (inScope l f >>= g) := by
  intro b b' y hrun
  obtain ⟨x, hx, hrun⟩ := run_inScope_bind.mp hrun
  exact hg x (yields_ok.mp (hx ▸ hf _)) b b' y hrun

section Open

variable (hopen : strict = true → inside = true)

include hopen

theorem turns_write (hs : s.Plain) (hcloses : s.closes = 0 := by rfl)
    (hopens : s.opens = 0 := by rfl) :
    Turns strict inside blocks blocks (modify (·.write s) : BodyM Unit) :=
  turns_modify fun _ h => ⟨h.write hopen hs hcloses hopens, fun _ => ⟨_, _, suffix_rfl⟩⟩

theorem turns_openWith (hs : s.Plain) (hcloses : s.closes = 0 := by rfl)
    (hopens : s.opens = 1 := by rfl) :
    Turns strict inside blocks (.condition :: blocks) (modify (·.openWith s) : BodyM Unit) :=
  turns_modify fun _ h => ⟨h.openWith hopen hs hcloses hopens, fun _ => ⟨_, _, suffix_rfl⟩⟩

theorem turns_assign {e : Expr} (he : e.Plain) :
    Turns strict inside blocks blocks (assign l i e) := by
  refine turns_inScope_bind (fun _ => yields_true _) fun d _ => ?_
  have hvalue : (if d.reg.file.valueKind = .float then resultValue i.result e else e).Plain := by
    split_ifs
    · exact plain_resultValue he
    · exact he
  refine turns_inScope_bind (fun _ => yields_register _) fun target htarget => ?_
  cases i.predicate with
  | some p =>
    refine turns_inScope_bind (fun _ => yields_register _) fun predicate hpredicate =>
      turns_modify fun b h => ⟨h.guarded hopen hvalue htarget hpredicate, fun _ =>
        ⟨b.indent, .openBlock, ?_⟩⟩
    refine List.IsSuffix.trans ?_ (suffix_cons _ _)
    refine List.IsSuffix.trans ?_ (suffix_storeHeld _ target predicate p _)
    exact suffix_cons _ _
  | none =>
    by_cases hfull : d.mask.isFull = true
    · rw [if_pos hfull]
      exact turns_write hopen ⟨htarget, hvalue⟩
    · rw [if_neg hfull]
      exact turns_write hopen ⟨htarget, hvalue⟩

theorem turns_openLoop : Turns strict inside blocks (.loop :: blocks) (openLoop l i) := by
  refine turns_inScope_bind (fun _ => yields_sourceAt 1) fun bounds hbounds =>
    turns_modify fun b h => ⟨?_, fun _ =>
      ⟨_, .openBlock, (suffix_cons _ _).trans (suffix_cons _ _)⟩⟩
  have hname : Plain s!"{l.tag}_aL{b.loopDepth}" := by simp +decide [Layout.tag]
  have hcount : Plain s!"{l.tag}_lc{b.loopDepth}" := by simp +decide [Layout.tag]
  have hopened := (h.openWith hopen (s := .openBlock) trivial).write hopen
    (s := .initCounter _ (bounds.pick [.y])) ⟨hname, hbounds⟩
  have hfor := hopened.openWith hopen (s := .openFor _ bounds.x) ⟨hcount, hbounds⟩
  refine ⟨congrArg (Block.loop :: ·) h.loops, fun n step hstep => ?_, hopened.count, hfor.depth,
    h.isOpen, h.main⟩
  rcases mem_cons.mp hstep with heq | hstep
  · cases heq
    exact hbounds
  · exact h.steps n step hstep

theorem turns_openRep :
    Turns strict inside blocks (.repetition :: blocks) (openRep l i) := by
  refine turns_inScope_bind (fun _ => yields_sourceAt 0) fun count hcount =>
    turns_modify fun b h => ⟨?_, fun _ => ⟨_, _, suffix_rfl⟩⟩
  have hname : Plain s!"{l.tag}_rc{b.repDepth}" := by simp +decide [Layout.tag]
  have hopened := h.openWith hopen (s := .openFor _ count.x) ⟨hname, hcount⟩
  exact ⟨congrArg (Block.repetition :: ·) h.loops, fun n step hstep => h.steps n step
    ((mem_cons.mp hstep).resolve_left nofun), hopened.count, hopened.depth, h.isOpen, h.main⟩

theorem turns_ret (hblocks : blocks ≠ []) :
    Turns strict inside blocks blocks (ret l) := by
  refine turns_modify fun b h => ?_
  rw [if_pos (h.count ▸ length_pos_of_ne_nil hblocks)]
  split_ifs
  · obtain ⟨lines, heq, hlines⟩ := h.epilogue (l := l) hopen
    rw [heq]
    exact ⟨hlines.write hopen trivial, (absurd · hblocks)⟩
  · exact ⟨h.write hopen trivial, (absurd · hblocks)⟩

end Open

/-- A loop that ends is the innermost one. -/
theorem turns_closeLoop : Turns strict inside (.loop :: blocks) blocks (closeLoop l) := by
  intro b b' _ hrun h
  obtain ⟨loop, rest, hb, hloop, hrest⟩ := map_eq_cons_iff.mp h.loops
  obtain ⟨lines, indent, loops, _⟩ := b
  cases loop with
  | repeated => cases hloop
  | counted n step =>
    have hname : Plain s!"{l.tag}_aL{n}" := by simp +decide [Layout.tag]
    have hadvanced := reads_write (s := .advance _ step)
      ⟨hname, h.steps n step (hb ▸ mem_cons_self)⟩ h.depth fun _ => Nat.succ_pos _
    cases hb
    cases hrun
    have hclosed := reads_write (s := .closeBlock) (b := { write _ _ with
      indent := indent - 1 }) trivial hadvanced fun _ => Nat.succ_pos _
    refine ⟨⟨hrest, fun n step hstep => h.steps n step (mem_cons_of_mem _ hstep),
      congrArg (· - 1) h.count, ?_, h.isOpen, h.main⟩, nofun⟩
    exact reads_write (s := .closeBlock)
      (b := { write _ _ with indent := indent - 1 - 1 }) trivial hclosed fun _ =>
      Nat.succ_pos _

/-- A repetition that ends is the innermost one. -/
theorem turns_closeRep : Turns strict inside (.repetition :: blocks) blocks closeRep := by
  intro b b' _ hrun h
  obtain ⟨loop, rest, hb, hloop, hrest⟩ := map_eq_cons_iff.mp h.loops
  obtain ⟨lines, indent, loops, _⟩ := b
  cases loop with
  | counted n step => cases hloop
  | repeated =>
    cases hb
    cases hrun
    refine ⟨⟨hrest, fun n step hstep => h.steps n step (mem_cons_of_mem _ hstep),
      congrArg (· - 1) h.count, ?_, h.isOpen, h.main⟩, nofun⟩
    exact reads_write (s := .closeBlock) (b := ⟨_, _, _, _, _, _, _, _⟩) trivial h.depth
      fun _ => Nat.succ_pos _

theorem yields_comparison (s : Scope) : Yields Expr.Plain (do
    let c ← comparisonOf i
    return .binary (.compare c) (← s.scalarAt i 0) (← s.scalarAt i 1)) :=
  yields_bind fun _ => (yields_scalarAt 0).bind fun _ ha =>
    (yields_scalarAt 1).bind fun _ hb => ⟨ha, hb⟩

theorem yields_conditionAt (n : Nat) (s : Scope) :
    Yields Expr.Plain (do s.condition (← i.needSrc n)) := by
  refine yields_bind fun src => (yields_register _).bind fun e he => ?_
  split
  · exact plain_inverted he
  · exact plain_inverted (e := .select e _) he
  · trivial

theorem yields_labelAt (s : Scope) :
    Yields Plain (do return s!"{s.tag}_l{(← i.needSrc 0).reg.index}") :=
  yields_bind fun src => by simp +decide [plain_scopeTag]

/-- Whether an instruction writes no statement, but at most starts or ends a function. -/
def isSilent (i : Instruction) (blocks : List Block) : Bool :=
  i.opcode.isDeclaration || i.opcode == .nop || i.opcode == .label ||
    i.opcode == .ret && blocks.isEmpty

/-- Whether a function is open after an instruction. -/
def opensFunction (i : Instruction) (blocks : List Block) (inside : Bool) : Bool :=
  if isSilent i blocks ∧ i.opcode = .label then true
  else if isSilent i blocks ∧ i.opcode = .ret then false
  else inside

/-- An instruction that fits and writes statements. -/
theorem turns_instruction (hfits : Fits i blocks) (hwrites : isSilent i blocks = false)
    (hopen : strict = true → inside = true) :
    Turns strict inside blocks (openedBy i blocks) (instruction l i) := by
  unfold Fits flowRole at hfits
  unfold openedBy flowRole instruction
  unfold isSilent at hwrites
  cases hop : i.opcode <;> rw [hop] at hfits hwrites
  case comment | stop | phase | nop | dcl | defFloat | defInt | defBool | label => cases hwrites
  case ret => exact turns_ret hopen (by rintro rfl; cases hwrites)
  case texKill =>
    refine turns_inScope_bind (fun _ => yields_bind fun _ => yields_register _)
      fun e he => turns_write hopen ?_
    exact ⟨rfl, ⟨rfl, he, ⟨rfl, trivial, trivial⟩, trivial⟩, trivial⟩
  case breakCompare =>
    exact turns_inScope_bind yields_comparison fun c hc => turns_write hopen (s := .breakIf c) hc
  case breakPredicate =>
    exact turns_inScope_bind (yields_conditionAt 0) fun c hc =>
      turns_write hopen (s := .breakIf c) hc
  case call =>
    exact turns_inScope_bind yields_labelAt fun f hf => turns_write hopen (s := .call f) hf
  case callNonzero =>
    exact turns_inScope_bind yields_labelAt fun f hf => turns_inScope_bind (yields_conditionAt 1)
      fun c hc => turns_write hopen (s := .callIf c f) ⟨hc, hf⟩
  case breakAlways => exact turns_write hopen (s := .breakLoop) trivial
  case ifBool =>
    exact turns_inScope_bind (yields_conditionAt 0) fun c hc =>
      turns_openWith hopen (s := .openIf c) hc
  case ifCompare =>
    exact turns_inScope_bind yields_comparison fun c hc => turns_openWith hopen (s := .openIf c) hc
  case orElse =>
    obtain ⟨rest, rfl⟩ := head?_eq_some_iff.mp hfits
    refine turns_modify fun b h => ⟨{ h with depth := ?_ }, nofun⟩
    exact reads_write (b := { b with indent := b.indent - 1 }) (s := .orElse) trivial
      h.depth fun _ => Nat.succ_pos _
  case endIf =>
    obtain ⟨rest, rfl⟩ := head?_eq_some_iff.mp hfits
    exact turns_modify fun b h => ⟨h.close, nofun⟩
  case loop => exact turns_openLoop hopen
  case rep => exact turns_openRep hopen
  case endLoop =>
    obtain ⟨rest, rfl⟩ := head?_eq_some_iff.mp hfits
    exact turns_closeLoop
  case endRep =>
    obtain ⟨rest, rfl⟩ := head?_eq_some_iff.mp hfits
    exact turns_closeRep
  all_goals
    exact turns_inScope_bind (fun _ => yields_value) fun _ => turns_assign hopen

/-- An instruction that writes no statement. -/
theorem follows_of_isSilent (hfits : Fits i blocks) (hsilent : isSilent i blocks = true)
    (h : b.Follows strict inside blocks) (hrun : (instruction l i).run.run b = (.ok (), b')) :
    b'.Follows strict (opensFunction i blocks inside) (openedBy i blocks) := by
  unfold Fits flowRole at hfits
  unfold openedBy opensFunction flowRole
  rw [hsilent]
  unfold instruction at hrun
  unfold isSilent at hsilent
  cases hop : i.opcode <;> rw [hop] at hrun hfits hsilent
  case comment | stop | phase | nop | dcl | defFloat | defInt | defBool =>
    cases hrun
    exact h
  case label =>
    obtain rfl : blocks = [] := hfits
    obtain ⟨name, hname, hrun⟩ := run_inScope_bind.mp hrun
    cases hrun
    exact h.closeFunction.openFunction (yields_ok.mp (hname ▸ yields_labelAt _))
  case ret =>
    obtain rfl : blocks = [] := isEmpty_iff.mp hsilent
    have hclosed := h.closeFunction (l := l)
    cases hrun
    change BodyState.Follows strict false [] (if 0 < b.openBlocks then _ else b.closeFunction l)
    rw [if_neg (by simp [h.count])]
    exact hclosed
  all_goals cases hsilent

end ShaderPipeline.Glsl
