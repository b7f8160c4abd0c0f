import ShaderPipeline.Proofs.Layout.Nesting
import ShaderPipeline.Proofs.Layout.Recorded

/-!
# Faults of flow control

The survey of a shader reports a fault of flow control if and only if the instructions do not nest,
a label is defined twice, or a label is called and not defined. All other parts of the survey leave
the flow of control alone and report other faults.

That a condition has several `else` is not reported.
-/

namespace ShaderPipeline

open Instruction List Fault FlowState

namespace Instruction

variable {i : Instruction}

def target? (i : Instruction) : Option Nat := (i.src? 0).map (·.reg.index)

def defines? (i : Instruction) : Option Nat := if i.opcode = .label then i.target? else none

def calls? (i : Instruction) : Option Nat :=
  if i.opcode = .call ∨ i.opcode = .callNonzero then i.target? else none

theorem calls?_of_role (hi : i.flowRole ≠ .plain) : i.calls? = none := by
  refine if_neg ?_
  rintro (hop | hop) <;> exact hi (congrArg Opcode.flowRole hop)

theorem defines?_of_role (hi : i.flowRole ≠ .label) : i.defines? = none := by
  refine if_neg fun hop => hi ?_
  exact congrArg Opcode.flowRole hop

end Instruction

/-- The instructions derive from the grammar, in which conditions are divided as often as is
allowed. Every label is defined once, and what is called is defined somewhere. -/
structure WellNested (allowed : Nat → Prop) (is : List Instruction) : Prop where
  nested : Nested allowed 0 false 0 is
  labels : (is.filterMap (·.defines?)).Nodup
  calls : ∀ n ∈ is.filterMap (·.calls?), n ∈ is.filterMap (·.defines?)

/-! ### Steps of the stack machine -/

namespace FlowState

variable {f : FlowState} {i : Instruction}

/-- What an instruction other than a label does, by its role, the depth of nesting apart. A plain
one may have other faults, and a call is remembered. -/
inductive Nests (f : FlowState) (i : Instruction) : Option Fault × FlowState → Prop
  | plain {fault : Option Fault} {calls : List (Nat × Nat)} (hi : i.flowRole = .plain)
      (hfault : ∀ x ∈ fault, x.isFlow = false)
      (hcalls : calls.map Prod.fst = i.calls?.toList ++ f.calls.map Prod.fst) :
      Nests f i (fault, { f with calls })
  | opens (b : Block) (hi : i.flowRole = .opens b) : Nests f i (none, f.opened b)
  | divides (hi : i.flowRole = .divides) :
      Nests f i (if f.blocks.head? = some .condition then none else some .elseWithoutIf, f)
  | closes (op : Opcode) (b : Block) (hi : i.flowRole = .closes b) :
      Nests f i (f.closeFault op b, f.closed)
  | leaves (hi : i.flowRole = .leaves) :
      Nests f i (if f.inLoop then none else some .breakOutsideLoop, f)

/-- Only the label of a call can be missing. -/
theorem nests_of_call (hrole : i.flowRole = .plain)
    (hi : i.opcode = .call ∨ i.opcode = .callNonzero) :
    f.Nests i (match i.needSrc 0 with
      | .error fault => (some fault, f)
      | .ok s => (none, { f with calls := (s.reg.index, i.position) :: f.calls })) := by
  have hcalls : i.calls? = i.target? := if_pos hi
  unfold needSrc
  unfold target? at hcalls
  cases hs : i.src? 0 with
  | none => exact .plain hrole (by simp [isFlow]) (by simp [hcalls, hs])
  | some s => exact .plain hrole (by simp) (by simp [hcalls, hs])

theorem nests_of_idle (hrole : i.flowRole = .plain) {fault : Option Fault}
    (hi : i.opcode ≠ .call ∧ i.opcode ≠ .callNonzero) (hfault : ∀ x ∈ fault, x.isFlow = false) :
    f.Nests i (fault, f) := by
  refine .plain hrole hfault ?_
  rw [calls?, if_neg (not_or.mpr hi)]
  rfl

theorem nests_nest (f : FlowState) (hi : i.opcode ≠ .label) : f.Nests i (f.nest i) := by
  have hrole : ∀ {op : Opcode}, i.opcode = op → i.flowRole = op.flowRole := congrArg Opcode.flowRole
  unfold nest
  split
  case h_1 hop => exact nests_of_call (hrole hop) (Or.inl hop)
  case h_2 hop => exact nests_of_call (hrole hop) (Or.inr hop)
  case h_3 hop | h_4 hop | h_5 hop | h_6 hop => exact .opens _ (hrole hop)
  case h_7 hop => exact .divides (hrole hop)
  case h_8 hop | h_9 hop | h_10 hop => exact .closes _ _ (hrole hop)
  case h_11 hop | h_12 hop | h_13 hop => exact .leaves (hrole hop)
  case h_14 n hop => exact nests_of_idle (hrole hop) (by simp [hop]) (by simp [isFlow])
  case h_15 =>
    refine nests_of_idle ?_ ⟨by assumption, by assumption⟩ (by simp)
    unfold flowRole Opcode.flowRole
    split <;> first | rfl | exact absurd ‹_› ‹_›

/-- Only what opens a block can nest too deeply. -/
theorem Nests.opens_or_le {r : Option Fault × FlowState} (h : f.Nests i r) :
    (∃ b, i.flowRole = .opens b ∧ r = (none, f.opened b)) ∨
      r.2.blocks.length ≤ f.blocks.length := by
  cases h with
  | opens b hi => exact Or.inl ⟨b, hi, rfl⟩
  | plain | divides | leaves => exact Or.inr (Nat.le_refl _)
  | closes op b hi =>
    refine Or.inr ?_
    rw [closed, length_tail]
    exact Nat.sub_le _ _

/-- What an instruction does where the open blocks are not too many. -/
inductive Steps (f : FlowState) (i : Instruction) : Option Fault × FlowState → Prop
  | nests {r : Option Fault × FlowState} (h : f.Nests i r)
      (hdepth : r.2.blocks.length ≤ maxDepth) : Steps f i r
  | deep {b : Block} (hi : i.flowRole = .opens b) (hdepth : maxDepth < f.blocks.length + 1) :
      Steps f i (some .nestsTooDeeply, f.opened b)
  | inside (hi : i.opcode = .label) (hblocks : f.blocks ≠ []) :
      Steps f i (some .labelInsideBlock, f)
  | unnamed (hi : i.opcode = .label) (hblocks : f.blocks = []) (htarget : i.target? = none) :
      Steps f i (some (.missingSource i.opcode 0), f)
  | twice {n : Nat} (hi : i.opcode = .label) (hblocks : f.blocks = [])
      (htarget : i.target? = some n) (hn : n ∈ f.labels) : Steps f i (some (.labelTwice n), f)
  | label {n : Nat} (hi : i.opcode = .label) (hblocks : f.blocks = [])
      (htarget : i.target? = some n) (hn : n ∉ f.labels) :
      Steps f i (none, { f with labels := putNumber n f.labels })

theorem steps_label (hi : i.opcode = .label) : f.Steps i (f.label i) := by
  unfold label
  by_cases hblocks : f.blocks = []
  · rw [if_neg (by simp [hblocks])]
    have htarget : i.target? = (i.src? 0).map (·.reg.index) := rfl
    unfold needSrc
    cases hs : i.src? 0 with
    | none =>
      rw [hs] at htarget
      exact .unnamed hi hblocks htarget
    | some s =>
      rw [hs] at htarget
      dsimp only
      split_ifs with hn
      · exact .twice hi hblocks htarget (contains_iff_mem.mp hn)
      · exact .label hi hblocks htarget fun h => hn (contains_iff_mem.mpr h)
  · rw [if_pos (by simpa using hblocks)]
    exact .inside hi hblocks

theorem steps_step (hdepth : f.blocks.length ≤ maxDepth) (i : Instruction) :
    f.Steps i (f.step i) := by
  unfold step
  split_ifs with hidle hlabel
  · refine .nests (nests_of_idle ?_ ?_ (by simp)) hdepth
    · unfold flowRole
      cases hop : i.opcode <;> simp_all [Opcode.isDeclaration, Opcode.flowRole]
    · constructor <;> intro hop <;> simp [hop, Opcode.isDeclaration] at hidle
  · exact steps_label hlabel
  · have h := nests_nest f hlabel
    rcases h.opens_or_le with ⟨b, hi, hnest⟩ | hle
    · rw [hnest] at h ⊢
      dsimp only
      split_ifs with hdeep
      · exact .deep hi hdeep
      · exact .nests h (Nat.not_lt.mp hdeep)
    · replace hle := Nat.le_trans hle hdepth
      rcases hnest : f.nest i with ⟨_ | fault, f'⟩ <;> rw [hnest] at h hle
      · dsimp only
        rw [if_neg (Nat.not_lt.mpr hle)]
        exact .nests h hle
      · exact .nests h hle

section Steps

variable {r : Option Fault × FlowState} (h : f.Steps i r)
include h

/-- What an instruction does to the open blocks does not depend on labels and calls. -/
theorem Steps.blocks : r.2.blocks = openedBy i f.blocks := by
  unfold openedBy
  cases h with
  | nests h _ => cases h <;> simp only [*] <;> rfl
  | deep hi _ => simp only [hi]; rfl
  | inside hi _ | unnamed hi _ _ | twice hi _ _ _ | label hi _ _ _ =>
    simp [flowRole, hi, Opcode.flowRole]

theorem Steps.calls : r.2.calls.map Prod.fst = i.calls?.toList ++ f.calls.map Prod.fst := by
  cases h with
  | nests h _ =>
    cases h with
    | plain _ _ hcalls => exact hcalls
    | opens b hi | divides hi | closes op b hi | leaves hi =>
      rw [calls?_of_role (by simp [hi])]
      rfl
  | deep hi _ =>
    rw [calls?_of_role (by simp [hi])]
    rfl
  | inside hi _ | unnamed hi _ _ | twice hi _ _ _ | label hi _ _ _ =>
    simp [calls?, hi]

/-- An instruction is not at fault if it fits where it stands and defines no label again. -/
theorem Steps.quiet_iff : (∀ fault ∈ r.1, fault.isFlow = false) ↔
    Fits i f.blocks ∧ ∀ n ∈ i.defines?, n ∉ f.labels := by
  cases h with
  | nests h hdepth =>
    have hdefines : i.defines? = none := by
      cases h <;> exact defines?_of_role (by simp [*])
    rw [hdefines]
    cases h with
    | plain hi hfault _ => simpa [Fits, hi] using hfault
    | opens b hi => simpa [Fits, hi] using (Nat.lt_of_succ_le hdepth : f.blocks.length < maxDepth)
    | divides hi => simp [Fits, hi, isFlow]
    | closes op b hi => simp [Fits, hi, closeFault, isFlow]
    | leaves hi => simp [Fits, hi, inLoop, repeats, isFlow]
  | deep hi hdepth =>
    have hnot : ¬Fits i f.blocks := by
      simp only [Fits, hi]
      omega
    simp [hnot, isFlow]
  | inside hi hblocks | unnamed hi hblocks htarget | twice hi hblocks htarget hn
  | label hi hblocks htarget hn =>
    simp_all [Fits, flowRole, Opcode.flowRole, defines?, isFlow]

theorem Steps.mem_labels (hquiet : ∀ fault ∈ r.1, fault.isFlow = false) (n : Nat) :
    n ∈ r.2.labels ↔ n ∈ i.defines? ∨ n ∈ f.labels := by
  cases h with
  | nests h _ =>
    have hdefines : i.defines? = none := by
      cases h <;> exact defines?_of_role (by simp [*])
    cases h <;> simp [hdefines, opened, closed]
  | unnamed hi _ htarget => simp [defines?, hi, htarget]
  | label hi _ htarget _ => simp [defines?, hi, htarget, mem_putNumber]
  | deep | inside | twice => simp [isFlow] at hquiet

end Steps

/-! ### Runs of the stack machine -/

/-- No instruction of a list is at fault as to flow control. -/
def Quiet : FlowState → List Instruction → Prop
  | _, [] => True
  | f, i :: rest => (∀ fault ∈ (f.step i).1, fault.isFlow = false) ∧ Quiet (f.step i).2 rest

/-- The state after a list of instructions. -/
def after (f : FlowState) (is : List Instruction) : FlowState :=
  is.foldl (fun f i => (f.step i).2) f

/-- An instruction that is not at fault leaves the open blocks not too many. -/
theorem length_blocks_step (hdepth : f.blocks.length ≤ maxDepth)
    (hquiet : ∀ fault ∈ (f.step i).1, fault.isFlow = false) :
    (f.step i).2.blocks.length ≤ maxDepth := by
  have h := steps_step hdepth i
  rw [h.blocks]
  exact (h.quiet_iff.mp hquiet).1.length_le hdepth

/-- The instructions that are not at fault and leave nothing open. -/
theorem quiet_iff (is : List Instruction) (hdepth : f.blocks.length ≤ maxDepth) :
    f.Quiet is ∧ (f.after is).blocks = [] ↔ Fitting is f.blocks ∧
      (is.filterMap (·.defines?)).Nodup ∧ ∀ n ∈ is.filterMap (·.defines?), n ∉ f.labels := by
  induction is generalizing f with
  | nil => simp [Quiet, after, Fitting]
  | cons i rest ih =>
    have h := steps_step hdepth i
    have hstep : f.Quiet (i :: rest) ∧ (f.after (i :: rest)).blocks = [] ↔
        (∀ fault ∈ (f.step i).1, fault.isFlow = false) ∧
          (f.step i).2.Quiet rest ∧ ((f.step i).2.after rest).blocks = [] := and_assoc
    rw [hstep]
    by_cases hquiet : ∀ fault ∈ (f.step i).1, fault.isFlow = false
    · obtain ⟨hfits, hnew⟩ := h.quiet_iff.mp hquiet
      rw [and_iff_right hquiet, ih (length_blocks_step hdepth hquiet), h.blocks, Fitting,
        and_iff_right hfits, filterMap_cons]
      simp only [h.mem_labels hquiet]
      cases hdefines : i.defines? with
      | none => simp
      | some n =>
        have hn := hnew n hdefines
        simp only [Option.mem_some_iff, not_or, nodup_cons, mem_cons, forall_eq_or_imp,
          hn, not_false_eq_true, true_and]
        constructor
        · rintro ⟨hfit, hnodup, hall⟩
          exact ⟨hfit, ⟨fun hmem => (hall n hmem).1 rfl, hnodup⟩, fun m hm => (hall m hm).2⟩
        · rintro ⟨hfit, ⟨hnot, hnodup⟩, hall⟩
          exact ⟨hfit, hnodup, fun m hm => ⟨fun hmn => hnot (hmn ▸ hm), hall m hm⟩⟩
    · have hnot := mt h.quiet_iff.mpr hquiet
      simp only [hquiet, false_and, false_iff, Fitting]
      rintro ⟨⟨hfits, -⟩, -, hnew⟩
      refine hnot ⟨hfits, fun n hn => hnew n ?_⟩
      rw [Option.mem_def] at hn
      simp [hn]

variable (is : List Instruction)

theorem mem_labels_after (hdepth : f.blocks.length ≤ maxDepth) (h : f.Quiet is) (n : Nat) :
    n ∈ (f.after is).labels ↔ n ∈ is.filterMap (·.defines?) ∨ n ∈ f.labels := by
  induction is generalizing f with
  | nil => simp [after]
  | cons i rest ih =>
    have hrest := ih (length_blocks_step hdepth h.1) h.2
    rw [(steps_step hdepth i).mem_labels h.1] at hrest
    refine hrest.trans ?_
    cases hdefines : i.defines? with
    | none => simp [hdefines]
    | some m => simp [hdefines, or_left_comm, or_assoc, eq_comm]

theorem mem_calls_after (hdepth : f.blocks.length ≤ maxDepth) (h : f.Quiet is) (n : Nat) :
    n ∈ (f.after is).calls.map Prod.fst ↔
      n ∈ is.filterMap (·.calls?) ∨ n ∈ f.calls.map Prod.fst := by
  induction is generalizing f with
  | nil => simp [after]
  | cons i rest ih =>
    have hrest := ih (length_blocks_step hdepth h.1) h.2
    rw [(steps_step hdepth i).calls, mem_append, Option.mem_toList] at hrest
    refine hrest.trans ?_
    cases hcalls : i.calls? with
    | none => simp [hcalls]
    | some m => simp [hcalls, or_left_comm, or_assoc, eq_comm]

end FlowState

/-! ### Whole shaders -/

namespace Survey

variable (e : Surroundings) (is : List Instruction) (p : Progress)

/-- No fault of flow control has been found. -/
def Progress.Quiet : Prop := ∀ fault ∈ p.faults, fault.1.isFlow = false

/-- A step that has nothing to do with flow control finds no fault of it. -/
theorem Progress.quiet_run_of_aside {step : SurveyM Unit} (h : Aside step) (p : Progress)
    (i : Instruction) : ((p.run i step).Quiet ↔ p.Quiet) ∧
      (p.run i step).survey.flow = p.survey.flow := by
  obtain ⟨hflow, hfault⟩ := h p.survey
  refine ⟨?_, ?_⟩
  · unfold Progress.run
    rcases hrun : step.run.run p.survey with ⟨fault | _, v⟩
    · rw [hrun] at hfault
      simpa [Progress.Quiet] using fun _ => hfault fault rfl
    · rfl
  · rw [survey_run]
    exact hflow

theorem Progress.quiet_run_scan (i : Instruction) :
    ((p.run i (scan e i)).Quiet ↔
      p.Quiet ∧ ∀ fault ∈ (p.survey.flow.step i).1, fault.isFlow = false) ∧
      (p.run i (scan e i)).survey.flow = (p.survey.flow.step i).2 := by
  rcases scan_cases e i with ⟨⟨kind, hi⟩, hscan⟩ | ⟨-, rest, hrest, hscan⟩ <;> rw [hscan]
  · have hstep : p.survey.flow.step i = (none, p.survey.flow) := by
      refine if_pos (Or.inl ?_)
      rcases defines?_eq_some_iff.mp hi with ⟨hop, -⟩ | ⟨hop, -⟩ | ⟨hop, -⟩ <;> rw [hop] <;> rfl
    rw [hstep]
    simpa using p.quiet_run_of_aside (records_define i hi).aside i
  · obtain ⟨hflow, hfault⟩ := hrest.aside { p.survey with flow := (p.survey.flow.step i).2 }
    unfold Progress.run
    rw [run_bind, run_noteFlow]
    cases hstep : (p.survey.flow.step i).1 with
    | some fault => simp [Progress.Quiet, and_comm]
    | none =>
      dsimp only [Option.elim_none]
      rcases hrun : rest.run.run { p.survey with flow := (p.survey.flow.step i).2 } with
        ⟨fault | _, v⟩ <;> rw [hrun] at hflow hfault
      · simpa [Progress.Quiet, hfault fault rfl] using hflow
      · simpa [Progress.Quiet] using hflow

theorem aside_declare (i : Instruction) : Aside (declare e i) := by
  rcases declare_cases e i with ⟨fault, hfault, hrun⟩ | ⟨f, hrun, hflow, -⟩ <;> rw [hrun]
  · exact fun v => ⟨rfl, fun _ h => Except.error.inj h ▸ hfault⟩
  · exact fun v => ⟨hflow v, nofun⟩

theorem quiet_declarations :
    ((declarations e is p).Quiet ↔ p.Quiet) ∧
      (declarations e is p).survey.flow = p.survey.flow := by
  unfold declarations
  induction is.filter (·.opcode = .dcl) generalizing p with
  | nil => exact ⟨Iff.rfl, rfl⟩
  | cons i rest ih =>
    obtain ⟨hquiet, hflow⟩ := p.quiet_run_of_aside (aside_declare e i) i
    obtain ⟨hquiet', hflow'⟩ := ih (p.run i (declare e i))
    exact ⟨hquiet'.trans hquiet, hflow'.trans hflow⟩

theorem quiet_instructions :
    ((instructions e is p).Quiet ↔ p.Quiet ∧ p.survey.flow.Quiet is) ∧
      (instructions e is p).survey.flow = p.survey.flow.after is := by
  unfold instructions
  induction is generalizing p with
  | nil => exact ⟨(and_iff_left trivial).symm, rfl⟩
  | cons i rest ih =>
    obtain ⟨hquiet, hflow⟩ := p.quiet_run_scan e i
    obtain ⟨hquiet', hflow'⟩ := ih (p.run i (scan e i))
    rw [hquiet, hflow, and_assoc] at hquiet'
    rw [hflow] at hflow'
    exact ⟨hquiet', hflow'⟩

theorem quiet_ofInstructions :
    ((ofInstructions e is).Quiet ↔ FlowState.start.Quiet is) ∧
      (ofInstructions e is).survey.flow = FlowState.start.after is := by
  obtain ⟨hquiet, hflow⟩ := quiet_declarations e is ⟨[], .start⟩
  have himplicit : (implicitOutput e (declarations e is ⟨[], .start⟩).survey).flow = .start := by
    unfold implicitOutput
    split_ifs
    · exact hflow
    · exact hflow
  have h := quiet_instructions e is
    ⟨(declarations e is ⟨[], .start⟩).faults,
      implicitOutput e (declarations e is ⟨[], .start⟩).survey⟩
  rw [himplicit] at h
  refine ⟨h.1.trans (and_iff_right ?_), h.2⟩
  exact hquiet.mpr (by simp [Progress.Quiet])

end Survey

/-- What is reported of flow control: faults of instructions, blocks left open, and calls of labels
that are not defined. -/
theorem Survey.Progress.quiet_allFaults_iff (p : Survey.Progress) :
    (∀ fault ∈ p.allFaults, fault.1.isFlow = false) ↔ p.Quiet ∧ p.survey.flow.blocks = [] ∧
      ∀ n ∈ p.survey.flow.calls.map Prod.fst, n ∈ p.survey.flow.labels := by
  unfold Survey.Progress.allFaults
  simp only [forall_mem_append, and_assoc]
  refine and_congr ?_ (and_congr ?_ ?_)
  · simp only [forall_mem_map, mem_reverse, Survey.Progress.Quiet]
  · by_cases hblocks : p.survey.flow.blocks = [] <;> simp [hblocks, isFlow]
  · simp only [forall_mem_map, mem_filter, mem_reverse]
    simp [isFlow]

/-- A shader is accepted, as to flow control, when its instructions derive from the grammar in which
a condition may be divided any number of times, labels are defined once and calls have a label. It
is as it should be when in addition no condition is divided twice, which goes unreported. -/
theorem flow_accepted_iff (e : Surroundings) (is : List Instruction) :
    ((∀ fault ∈ (Survey.ofInstructions e is).allFaults, fault.1.isFlow = false) ↔
      WellNested (fun _ => True) is) ∧
    (WellNested (· ≤ 1) is ↔
      (∀ fault ∈ (Survey.ofInstructions e is).allFaults, fault.1.isFlow = false) ∧
        SingleElse is) := by
  obtain ⟨hquiet, hflow⟩ := Survey.quiet_ofInstructions e is
  have hdepth : FlowState.start.blocks.length ≤ FlowState.maxDepth := Nat.zero_le _
  have haccepted : (∀ fault ∈ (Survey.ofInstructions e is).allFaults, fault.1.isFlow = false) ↔
      WellNested (fun _ => True) is := by
    rw [Survey.Progress.quiet_allFaults_iff, hquiet, hflow]
    constructor
    · rintro ⟨hq, hblocks, hcalls⟩
      obtain ⟨hfit, hnodup, -⟩ := (FlowState.quiet_iff is hdepth).mp ⟨hq, hblocks⟩
      refine ⟨(fitting_iff_nested is).mp hfit, hnodup, fun n hn => ?_⟩
      have hn' := hcalls n ((FlowState.mem_calls_after is hdepth hq n).mpr (Or.inl hn))
      simpa [FlowState.start] using (FlowState.mem_labels_after is hdepth hq n).mp hn'
    · rintro ⟨hnested, hnodup, hcalls⟩
      obtain ⟨hq, hblocks⟩ := (FlowState.quiet_iff (f := .start) is hdepth).mpr
        ⟨(fitting_iff_nested is).mpr hnested, hnodup, by simp [FlowState.start]⟩
      refine ⟨hq, hblocks, fun n hn => ?_⟩
      have hn' := (FlowState.mem_calls_after is hdepth hq n).mp hn
      refine (FlowState.mem_labels_after is hdepth hq n).mpr (Or.inl (hcalls n ?_))
      simpa [FlowState.start] using hn'
  refine ⟨haccepted, ?_⟩
  rw [haccepted]
  constructor
  · rintro ⟨hnested, hnodup, hcalls⟩
    obtain ⟨hnested, hsingle⟩ := (nested_single_iff is).mp hnested
    exact ⟨⟨hnested, hnodup, hcalls⟩, hsingle⟩
  · rintro ⟨⟨hnested, hnodup, hcalls⟩, hsingle⟩
    exact ⟨(nested_single_iff is).mpr ⟨hnested, hsingle⟩, hnodup, hcalls⟩

def twiceDivided : List Instruction :=
  [.marker 0 1 .ifBool, .marker 1 2 .orElse, .marker 2 3 .orElse, .marker 3 4 .endIf]

/-- It is accepted, and it is not as it should be. -/
theorem flow_accepted_twice_divided : ∃ e : Surroundings,
    (∀ fault ∈ (Survey.ofInstructions e twiceDivided).allFaults, fault.1.isFlow = false) ∧
      ¬WellNested (· ≤ 1) twiceDivided := by
  obtain ⟨haccepted, hsingle⟩ := flow_accepted_iff ⟨⟨.vertex, 3, 0⟩, .glsl120, default⟩ twiceDivided
  refine ⟨_, haccepted.mpr ⟨?_, by decide, by decide⟩, fun h => ?_⟩
  · have hbody : Nested (fun _ => True) 1 false 2 [.marker 1 2 .orElse, .marker 2 3 .orElse] :=
      .divide rfl (.divide rfl .nil)
    exact .condition rfl rfl (by decide) trivial hbody .nil
  · exact absurd (hsingle.mp h).2 (by decide)

end ShaderPipeline
