import ShaderPipeline.Layout.Survey
import ShaderPipeline.Proofs.Layout.Ordered

/-!
# What a survey has recorded

A survey lists the constants that are read, directly or relatively, those that are defined, and the
samplers read through a bump environment. Its lists are in increasing order of numbers, each number
once. If no instruction has a fault, it lists exactly what the instructions mention.

A step may stop at any point, so a property of surveys is kept by a step if it is kept by everything
that the step does on the way. What the steps do is said once, by `Survey.Records`.
-/

namespace ShaderPipeline

open Instruction RegisterRef

variable {fault : Fault} {i : Instruction} {op : Opcode} {step : Instruction → SurveyM Unit}
  {p : Progress}

def Fault.isFlow : Fault → Bool
  | .labelInsideBlock | .labelTwice _ | .elseWithoutIf | .unmatchedClose _ | .breakOutsideLoop
  | .nestsTooDeeply | .unterminatedBlocks _ | .undefinedLabel _ => true
  | _ => false

/-- An entry in the lists of a survey. -/
inductive Mention where
  /-- A constant register that is read under its own number. -/
  | used (kind : ValueKind) (n : Nat)
  /-- A float register that a relative access starts from. -/
  | relative (n : Nat)
  /-- A constant register that the shader defines. -/
  | defined (kind : ValueKind) (n : Nat)
  /-- A sampler that is read through a bump environment. -/
  | bump (sampler : Nat)
  deriving DecidableEq, Repr

def RegisterRef.mention? (r : RegisterRef) : Option Mention :=
  match r.file with
  | .const => some (if r.relative.isSome then .relative r.index else .used .float r.index)
  | .constInt => some (.used .int r.index)
  | .constBool => some (.used .bool r.index)
  | _ => none

def Operand.register? : Operand → Option RegisterRef
  | .dst d => some d.reg
  | .src s => some s.reg
  | .imm _ => none

def Opcode.defines? : Opcode → Option ValueKind
  | .defFloat => some .float
  | .defInt => some .int
  | .defBool => some .bool
  | _ => none

namespace Instruction

def registers (i : Instruction) : List RegisterRef :=
  (i.predicate.map (·.reg)).toList ++ i.operands.filterMap Operand.register? ++
    Survey.impliedReads i

def bumpSampler? (i : Instruction) : Option Nat :=
  if Survey.isBump i.opcode then i.dst?.map (·.reg.index) else none

/-- The entries that an instruction makes. Declarations and labels make none. -/
def mentions (i : Instruction) : List Mention :=
  match i.opcode.defines? with
  | some kind => (i.dst?.map fun d => .defined kind d.reg.index).toList
  | none =>
    if i.opcode.isDeclaration ∨ i.opcode = .nop ∨ i.opcode = .label then []
    else (i.bumpSampler?.map .bump).toList ++ i.registers.filterMap RegisterRef.mention?

end Instruction

namespace Survey

/-- Every list of a survey is in increasing order, and outputs of the depth file are depths. -/
structure Ordered (v : Survey) : Prop where
  temps : Increasing id v.temps
  addresses : Increasing id v.addresses
  textures : Increasing id v.textures
  colors : Increasing id v.colors
  inputs : Increasing Prod.fst v.inputs
  outputs : Increasing Output.key v.outputs
  floatDefs : Increasing Prod.fst v.floatDefs
  intDefs : Increasing Prod.fst v.intDefs
  boolDefs : Increasing Prod.fst v.boolDefs
  floatUsed : Increasing id v.floatUsed
  intUsed : Increasing id v.intUsed
  boolUsed : Increasing id v.boolUsed
  samplers : Increasing Prod.fst v.samplers
  depths : ∀ o ∈ v.outputs, o.file = .depthOut → o.semantic.usage = .depth

def Lists (v : Survey) : Mention → Prop
  | .used .float n => n ∈ v.floatUsed
  | .used .int n => n ∈ v.intUsed
  | .used .bool n => n ∈ v.boolUsed
  | .relative n => n ∈ v.relative
  | .defined .float n => (v.floatDefs.lookup n).isSome
  | .defined .int n => (v.intDefs.lookup n).isSome
  | .defined .bool n => (v.boolDefs.lookup n).isSome
  | .bump n => (v.samplers.lookup n).any (·.bump)

variable {α : Type}

/-- A step keeps a property of surveys, whether it stops at a fault or not. -/
def Keeps (P : Survey → Prop) (m : SurveyM α) : Prop :=
  ∀ v, P v → P (m.run.run v).2

/-- A step that comes to its end has added the entries `ms` and no others. -/
def Notes (ms : List Mention) (m : SurveyM α) : Prop :=
  ∀ v a v', m.run.run v = (.ok a, v') → ∀ x, v'.Lists x ↔ v.Lists x ∨ x ∈ ms

/-- A step leaves the flow of control alone and stops only at other faults. -/
def Aside (m : SurveyM α) : Prop :=
  ∀ v, (m.run.run v).2.flow = v.flow ∧ ∀ fault, (m.run.run v).1 = .error fault →
    fault.isFlow = false

/-- A step keeps the lists in order, has nothing to do with flow control, and adds the entries `ms`
if it comes to its end. It changes definitions only if it makes an entry for one. -/
structure Records {α : Type} (ms : List Mention) (m : SurveyM α) : Prop where
  keeps : Keeps Ordered m
  aside : Aside m
  notes : Notes ms m
  defs : (∀ n, .defined .float n ∉ ms) → ∀ v, (m.run.run v).2.floatDefs = v.floatDefs

section Records

variable {α β : Type} {ms ns : List Mention} {f : Survey → Survey}

theorem run_bind (m : SurveyM α) (f : α → SurveyM β) (v : Survey) :
    (m >>= f).run.run v = match m.run.run v with
      | (.ok a, v') => (f a).run.run v'
      | (.error fault, v') => (.error fault, v') := by
  simp only [ExceptT.run_bind, StateT.run_bind]
  rcases m.run.run v with ⟨_ | a, v'⟩ <;> rfl

theorem records_pure (a : α) : Records [] (pure a : SurveyM α) where
  keeps _ h := h
  aside _ := ⟨rfl, fun _ => nofun⟩
  notes v b v' h x := by
    obtain rfl : v = v' := congrArg Prod.snd h
    simp
  defs _ _ := rfl

theorem records_throw (h : fault.isFlow = false) : Records ms (throw fault : SurveyM α) where
  keeps _ h := h
  aside _ := ⟨rfl, fun _ hfault => Except.error.inj hfault ▸ h⟩
  notes _ _ _ h := nomatch congrArg Prod.fst h
  defs _ _ := rfl

theorem records_modify (hordered : ∀ v, v.Ordered → (f v).Ordered)
    (hlists : ∀ v x, (f v).Lists x ↔ v.Lists x ∨ x ∈ ms) (hflow : ∀ v, (f v).flow = v.flow)
    (hdefs : (∀ n, .defined .float n ∉ ms) → ∀ v, (f v).floatDefs = v.floatDefs) :
    Records ms (modify f : SurveyM Unit) where
  keeps := hordered
  aside v := ⟨hflow v, fun _ => nofun⟩
  notes v a v' h := by
    obtain rfl : f v = v' := congrArg Prod.snd h
    exact hlists v
  defs := hdefs

theorem records_other (hordered : ∀ v, v.Ordered → (f v).Ordered)
    (hsame : ∀ v, ((f v).Lists, (f v).flow, (f v).floatDefs) = (v.Lists, v.flow, v.floatDefs)) :
    Records [] (modify f : SurveyM Unit) := by
  simp only [Prod.mk.injEq] at hsame
  exact records_modify hordered (fun v x => by simp [hsame v]) (fun v => (hsame v).2.1)
    fun _ v => (hsame v).2.2

theorem Records.bind {m : SurveyM α} {f : α → SurveyM β} (hm : Records ms m)
    (hf : ∀ a, Records ns (f a)) : Records (ms ++ ns) (m >>= f) where
  keeps v hv := by
    have hkept := hm.keeps v hv
    rw [run_bind]
    rcases hresult : m.run.run v with ⟨_ | a, v'⟩ <;> rw [hresult] at hkept
    · exact hkept
    · exact (hf a).keeps v' hkept
  aside v := by
    obtain ⟨hflow, hfault⟩ := hm.aside v
    rw [run_bind]
    rcases hresult : m.run.run v with ⟨fault | a, v'⟩ <;> rw [hresult] at hflow hfault
    · exact ⟨hflow, fun fault' h => hfault fault' (congrArg _ (Except.error.inj h))⟩
    · exact ((hf a).aside v').imp_left (·.trans hflow)
  notes v b v' h x := by
    rw [run_bind] at h
    rcases hfirst : m.run.run v with ⟨_ | a, u⟩ <;> rw [hfirst] at h
    · exact nomatch congrArg Prod.fst h
    · rw [(hf a).notes u b v' h x, hm.notes v a u hfirst x, List.mem_append, or_assoc]
  defs hnone v := by
    have hfirst := hm.defs (fun n hn => hnone n (List.mem_append_left _ hn)) v
    rw [run_bind]
    rcases hresult : m.run.run v with ⟨_ | a, v'⟩ <;> rw [hresult] at hfirst
    · exact hfirst
    · exact ((hf a).defs (fun n hn => hnone n (List.mem_append_right _ hn)) v').trans hfirst

/-- A first part that adds nothing. -/
theorem Records.after {m : SurveyM α} {f : α → SurveyM β} (hm : Records [] m)
    (hf : ∀ a, Records ns (f a)) : Records ns (m >>= f) :=
  hm.bind hf

theorem records_get_bind {f : Survey → SurveyM β} (hf : ∀ v, Records ms (f v)) :
    Records ms (get >>= f) where
  keeps v := (hf v).keeps v
  aside v := (hf v).aside v
  notes v := (hf v).notes v
  defs hnone v := (hf v).defs hnone v

theorem records_update {f : Survey → Survey → Survey}
    (h : Records ms (modify fun v => f v v : SurveyM Unit)) :
    Records ms (get >>= fun v => modify (f v) : SurveyM Unit) := h

theorem records_check_bind {x : Except Fault α} {f : α → SurveyM β}
    (hx : ∀ fault, x = .error fault → fault.isFlow = false)
    (hf : ∀ a, x = .ok a → Records ms (f a)) : Records ms (check x >>= f) := by
  cases x with
  | ok a => exact hf a rfl
  | error fault => exact records_throw (hx fault rfl)

theorem records_ite {c : Prop} [Decidable c] {m n : SurveyM α} (hm : c → Records ms m)
    (hn : ¬c → Records ms n) : Records ms (if c then m else n) := by
  split_ifs with h
  · exact hm h
  · exact hn h

theorem records_guard {c : Prop} [Decidable c] (h : fault.isFlow = false) :
    Records [] (if c then throw fault else pure () : SurveyM Unit) :=
  records_ite (fun _ => records_throw h) fun _ => records_pure ()

end Records

/-! ### Steps of a survey -/

section Steps

variable (e : Surroundings) (r : RegisterRef)

attribute [local simp] Lists

theorem ordered_putOutput {v : Survey} (h : v.Ordered) (file : RegisterFile) (n : Nat)
    (s : Semantic) (hs : file = .depthOut → s.usage = .depth := by simp) :
    (v.putOutput file n s).Ordered where
  __ := h
  outputs := h.outputs.putBy _
  depths o ho hfile := by
    rcases mem_putBy ho with rfl | ho
    · exact hs hfile
    · exact h.depths o ho hfile

theorem records_noteRelative : Records [] (noteRelative e r) := by
  unfold noteRelative
  cases r.relative with
  | none => exact records_pure ()
  | some a =>
    have hfile : Records [] (if r.file ≠ .const then
        throw (.unsupported (.relativeFile r.file) e.profile) else pure () : SurveyM Unit) :=
      records_guard rfl
    dsimp only
    split
    · exact .after (records_other (fun _ h => { h with addresses := h.addresses.putBy _ })
        fun _ => rfl) fun _ => hfile
    · exact .after (records_pure ()) fun _ => hfile
    · exact .after (records_throw rfl) fun _ => hfile

theorem records_noteInput (n : Nat) : Records [] (noteInput e n) :=
  records_ite (fun _ => records_get_bind fun _ => records_guard rfl) fun _ =>
    records_other (fun _ h => { h with colors := h.colors.putBy _ }) fun _ => rfl

theorem isFlow_of_rasterUsage {n : Nat} (h : rasterUsage n = .error fault) :
    fault.isFlow = false := by
  unfold rasterUsage at h
  split at h <;> cases h
  rfl

theorem records_noteFile : Records r.mention?.toList (noteFile e r) := by
  unfold noteFile mention?
  cases r.file with
  | temp => exact records_other (fun _ h => { h with temps := h.temps.putBy _ }) fun _ => rfl
  | input => exact records_noteInput e r.index
  | const =>
    refine records_ite (fun h => ?_) (fun h => ?_)
    · rw [if_pos h]
      refine records_modify (fun _ h => { h with }) (fun v x => ?_)
        (fun _ => rfl) fun _ _ => rfl
      rcases x with ⟨_ | _ | _, n⟩ | n | ⟨_ | _ | _, n⟩ | n <;> simp [or_comm]
    · rw [if_neg h]
      refine records_modify (fun _ h => { h with floatUsed := h.floatUsed.putBy _ }) (fun v x => ?_)
        (fun _ => rfl) fun _ _ => rfl
      rcases x with ⟨_ | _ | _, n⟩ | n | ⟨_ | _ | _, n⟩ | n <;>
        simp [mem_putNumber, or_comm, eq_comm (a := r.index)]
  | addr =>
    exact records_other (fun _ h => { h with addresses := h.addresses.putBy _ }) fun _ => rfl
  | texture =>
    exact records_other (fun _ h => { h with textures := h.textures.putBy _ }) fun _ => rfl
  | rastOut =>
    exact records_check_bind (fun _ h => isFlow_of_rasterUsage h) fun _ _ =>
      records_other (fun _ h => ordered_putOutput h _ _ _) fun _ => rfl
  | attrOut | texCoordOut => exact records_other (fun _ h => ordered_putOutput h _ _ _) fun _ => rfl
  | output => exact records_get_bind fun _ => records_guard rfl
  | colorOut =>
    have hput : Records [] (modify (putOutput .colorOut r.index ⟨.color, r.index⟩)) :=
      records_other (fun _ h => ordered_putOutput h _ _ _) fun _ => rfl
    refine records_ite (fun _ => ?_) (fun _ => ?_)
    · exact .after (records_other (fun _ h => { h with }) fun _ => rfl) fun _ => hput
    · exact .after (records_pure ()) fun _ => hput
  | depthOut =>
    exact .after (records_other (fun _ h => { h with }) fun _ => rfl) fun _ =>
      records_other (fun _ h => ordered_putOutput h _ _ _) fun _ => rfl
  | constInt =>
    refine records_modify (fun _ h => { h with intUsed := h.intUsed.putBy _ }) (fun v x => ?_)
      (fun _ => rfl) fun _ _ => rfl
    rcases x with ⟨_ | _ | _, n⟩ | n | ⟨_ | _ | _, n⟩ | n <;>
      simp [mem_putNumber, or_comm, eq_comm (a := r.index)]
  | constBool =>
    refine records_modify (fun _ h => { h with boolUsed := h.boolUsed.putBy _ }) (fun v x => ?_)
      (fun _ => rfl) fun _ _ => rfl
    rcases x with ⟨_ | _ | _, n⟩ | n | ⟨_ | _ | _, n⟩ | n <;>
      simp [mem_putNumber, or_comm, eq_comm (a := r.index)]
  | predicate => exact records_other (fun _ h => { h with }) fun _ => rfl
  | miscType | sampler | loop | label => exact records_pure ()

theorem records_noteRead : Records r.mention?.toList (noteRead e r) :=
  .after (records_noteRelative e r) fun _ => records_noteFile e r

theorem records_noteWrite : Records r.mention?.toList (noteWrite e r) := by
  refine .after (records_noteRelative e r) fun _ => ?_
  rw [← List.append_nil r.mention?.toList]
  exact (records_noteFile e r).bind fun _ => records_guard rfl

theorem records_noteReads (rs : List RegisterRef) :
    Records (rs.filterMap mention?) (noteReads e rs) := by
  rw [List.filterMap_eq_flatMap_toList]
  induction rs with
  | nil => exact records_pure ()
  | cons r rest ih => exact (records_noteRead e r).bind fun _ => ih

theorem records_noteOperands (os : List Operand) :
    Records ((os.filterMap Operand.register?).filterMap mention?)
      (noteOperands e os) := by
  rw [List.filterMap_eq_flatMap_toList]
  induction os with
  | nil => exact records_pure ()
  | cons o rest ih =>
    cases o with
    | dst d => exact (records_noteWrite e d.reg).bind fun _ => ih
    | src s => exact (records_noteRead e s.reg).bind fun _ => ih
    | imm w => exact .after (records_pure ()) fun _ => ih

theorem isFlow_of_needSrc {n : Nat} (h : i.needSrc n = .error fault) : fault.isFlow = false := by
  unfold needSrc at h
  split at h <;> cases h
  rfl

theorem isFlow_of_needDst (h : i.needDst = .error fault) : fault.isFlow = false := by
  unfold needDst at h
  split at h <;> cases h
  rfl

theorem dst?_of_needDst {d : Destination} (h : i.needDst = .ok d) : i.dst? = some d := by
  unfold needDst at h
  split at h
  · next d' hd' => rw [hd', Except.ok.inj h]
  · cases h

/-- Only textures of the instruction's own stage are read through a bump environment. -/
theorem samplesOwnStage_of_isBump (h : isBump op = true) :
    samplesOwnStage op = true ∧ op ≠ .tex ∧ op ≠ .texLdl ∧ op ≠ .texLdd := by
  unfold isBump at h
  split at h
  · exact ⟨rfl, by decide⟩
  · exact ⟨rfl, by decide⟩
  · cases h

theorem records_noteSampler (i : Instruction) :
    Records (i.bumpSampler?.map .bump).toList (noteSampler e i) := by
  have hplain : isBump i.opcode = false → (i.bumpSampler?.map Mention.bump).toList = [] := by
    intro hop
    simp [bumpSampler?, hop]
  refine records_ite (fun hload => ?_) (fun _ => records_ite (fun _ => ?_) (fun hown => ?_))
  · rw [hplain]
    · exact records_check_bind (fun _ h => isFlow_of_needSrc h) fun s _ =>
        records_get_bind fun _ => records_guard rfl
    · by_contra hbump
      have hop := samplesOwnStage_of_isBump (Bool.not_eq_false _ ▸ hbump)
      simp [hop] at hload
  · refine records_check_bind (fun _ h => isFlow_of_needDst h) fun d hd => records_update ?_
    have hbump : (i.bumpSampler?.map Mention.bump).toList =
        if isBump i.opcode then [.bump d.reg.index] else [] := by
      unfold bumpSampler?
      split_ifs <;> simp [dst?_of_needDst hd]
    rw [hbump]
    refine records_modify (fun _ h => { h with samplers := h.samplers.putBy _ }) (fun v x => ?_)
      (fun _ => rfl) fun _ _ => rfl
    generalize huse : SamplerUse.mk _ _ = use
    have hbump' : use.bump = ((v.samplers.lookup d.reg.index).any (·.bump) || isBump i.opcode) := by
      rw [← huse]
      cases v.samplers.lookup d.reg.index <;> rfl
    rcases x with ⟨_ | _ | _, n⟩ | n | ⟨_ | _ | _, n⟩ | n
    case bump =>
      by_cases hn : n = d.reg.index
      · subst hn
        split_ifs with hop <;> simp [lookup_putAt, hbump', hop]
      · split_ifs <;> simp [lookup_putAt, hn]
    all_goals split_ifs <;> simp
  · rw [hplain]
    · exact records_pure ()
    · by_contra hbump
      exact hown (samplesOwnStage_of_isBump (Bool.not_eq_false _ ▸ hbump)).1

theorem defines?_eq_some_iff {kind : ValueKind} :
    op.defines? = some kind ↔ (op = .defFloat ∧ kind = .float) ∨ (op = .defInt ∧ kind = .int) ∨
      (op = .defBool ∧ kind = .bool) := by
  cases op <;> cases kind <;> simp [Opcode.defines?]

theorem records_define (i : Instruction) {kind : ValueKind} (hi : i.opcode.defines? = some kind) :
    Records i.mentions (define i) := by
  refine records_check_bind (fun _ h => isFlow_of_needDst h) fun d hd => ?_
  rw [mentions, hi, dst?_of_needDst hd]
  rcases defines?_eq_some_iff.mp hi with ⟨hop, rfl⟩ | ⟨hop, rfl⟩ | ⟨hop, rfl⟩ <;> rw [hop]
  · refine records_modify (fun _ h => { h with floatDefs := h.floatDefs.putBy _ }) (fun v x => ?_)
      (fun _ => rfl) fun hnone => absurd List.mem_cons_self (hnone _)
    rcases x with ⟨_ | _ | _, n⟩ | n | ⟨_ | _ | _, n⟩ | n
    case defined.float => exact isSome_lookup_putAt.trans (by simp)
    all_goals simp
  · refine records_modify (fun _ h => { h with intDefs := h.intDefs.putBy _ }) (fun v x => ?_)
      (fun _ => rfl) fun _ _ => rfl
    rcases x with ⟨_ | _ | _, n⟩ | n | ⟨_ | _ | _, n⟩ | n
    case defined.int => exact isSome_lookup_putAt.trans (by simp)
    all_goals simp
  · refine records_modify (fun _ h => { h with boolDefs := h.boolDefs.putBy _ }) (fun v x => ?_)
      (fun _ => rfl) fun _ _ => rfl
    rcases x with ⟨_ | _ | _, n⟩ | n | ⟨_ | _ | _, n⟩ | n
    case defined.bool => exact isSome_lookup_putAt.trans (by simp)
    all_goals simp

theorem defines?_eq_none (h : ¬(op = .defFloat ∨ op = .defInt ∨ op = .defBool)) :
    op.defines? = none := by
  unfold Opcode.defines?
  split <;> simp_all

theorem run_noteFlow (i : Instruction) (v : Survey) :
    (noteFlow i).run.run v =
      ((v.flow.step i).1.elim (.ok ()) .error, { v with flow := (v.flow.step i).2 }) := by
  unfold noteFlow
  generalize FlowState.step = step
  change (_ : SurveyM Unit).run.run { v with flow := (step v.flow i).2 } = _
  cases (step v.flow i).1 <;> rfl

/-- An instruction that defines no constant is followed as to flow control first, and the rest of
its scan does not change that. -/
theorem scan_cases (i : Instruction) :
    (∃ kind, i.opcode.defines? = some kind) ∧ scan e i = define i ∨
      i.opcode.defines? = none ∧ ∃ rest : SurveyM Unit, Records i.mentions rest ∧
        scan e i = noteFlow i >>= fun _ => rest := by
  unfold scan
  by_cases hdef : i.opcode = .defFloat ∨ i.opcode = .defInt ∨ i.opcode = .defBool
  · rw [if_pos hdef]
    refine Or.inl ⟨?_, rfl⟩
    rcases hdef with hop | hop | hop <;> exact ⟨_, congrArg Opcode.defines? hop⟩
  · rw [if_neg hdef, mentions, defines?_eq_none hdef]
    refine Or.inr ⟨rfl, _, records_ite (fun hidle => ?_) (fun hidle => ?_), rfl⟩
    · rw [if_pos hidle]
      exact records_pure ()
    · rw [if_neg hidle, registers, List.filterMap_append, List.filterMap_append]
      refine .after (records_other (fun _ h => { h with }) fun _ => rfl) fun _ => ?_
      rw [List.append_assoc]
      exact (records_noteSampler e i).bind fun _ => (records_noteReads e _).bind fun _ =>
        (records_noteOperands e _).bind fun _ => records_noteReads e _

theorem keeps_scan (i : Instruction) : Keeps Ordered (scan e i) := by
  rcases scan_cases e i with ⟨⟨kind, hi⟩, hscan⟩ | ⟨-, rest, hrest, hscan⟩ <;> rw [hscan]
  · exact (records_define i hi).keeps
  · intro v h
    have hflow : Ordered { v with flow := (v.flow.step i).2 } := { h with }
    rw [run_bind, run_noteFlow]
    cases (v.flow.step i).1 with
    | some fault => exact hflow
    | none => exact hrest.keeps _ hflow

theorem notes_scan (i : Instruction) : Notes i.mentions (scan e i) := by
  rcases scan_cases e i with ⟨⟨kind, hi⟩, hscan⟩ | ⟨-, rest, hrest, hscan⟩ <;> rw [hscan]
  · exact (records_define i hi).notes
  · intro v a v' h
    rw [run_bind, run_noteFlow] at h
    cases hfault : (v.flow.step i).1 <;> rw [hfault] at h
    · exact hrest.notes { v with flow := (v.flow.step i).2 } a v' h
    · cases h

theorem declare_cases (i : Instruction) :
    (∃ fault, fault.isFlow = false ∧ declare e i = throw fault) ∨
      ∃ f, declare e i = modify f ∧ (∀ v, (f v).flow = v.flow) ∧
        (∀ v, v.Ordered → (f v).Ordered) ∧ ∀ v, (∀ x, ¬v.Lists x) → ∀ x, ¬(f v).Lists x := by
  unfold declare
  split
  · dsimp only
    split
    · refine Or.inr ⟨_, rfl, fun _ => rfl,
        fun v h => { h with samplers := h.samplers.putBy _ }, fun v h x => ?_⟩
      have hx := h x
      rcases x with ⟨_ | _ | _, n⟩ | n | ⟨_ | _ | _, n⟩ | n
      case bump =>
        simp only [Lists, lookup_putAt] at hx ⊢
        split_ifs
        · simp
        · exact hx
      all_goals exact hx
    · split_ifs
      · exact Or.inr ⟨_, rfl, fun _ => rfl, fun v h => { h with inputs := h.inputs.putBy _ },
          fun _ h => h⟩
      · exact Or.inr ⟨_, rfl, fun _ => rfl, fun v h => { h with colors := h.colors.putBy _ },
          fun _ h => h⟩
    · exact Or.inr ⟨_, rfl, fun _ => rfl, fun v h => { h with textures := h.textures.putBy _ },
        fun _ h => h⟩
    · exact Or.inr ⟨_, rfl, fun _ => rfl, fun v h => ordered_putOutput h _ _ _, fun _ h => h⟩
    · exact Or.inr ⟨id, rfl, fun _ => rfl, fun v h => h, fun _ h => h⟩
    · exact Or.inl ⟨_, rfl, rfl⟩
  · exact Or.inl ⟨_, rfl, rfl⟩

end Steps

/-! ### Whole shaders -/

theorem survey_run (p : Progress) (i : Instruction) (step : SurveyM Unit) :
    (p.run i step).survey = (step.run.run p.survey).2 := by
  unfold Progress.run
  rcases step.run.run p.survey with ⟨_ | _, v⟩ <;> rfl

theorem keeps_foldl {P : Survey → Prop} (hstep : ∀ i, Keeps P (step i)) (is : List Instruction)
    (h : P p.survey) : P (is.foldl (fun p i => p.run i (step i)) p).survey := by
  induction is generalizing p with
  | nil => exact h
  | cons i rest ih =>
    refine ih ?_
    rw [survey_run]
    exact hstep i p.survey h

/-- Declarations keep the lists in order and make no entries. -/
theorem keeps_declare (i : Instruction) (e : Surroundings) :
    Keeps (fun v => v.Ordered ∧ ∀ x, ¬v.Lists x) (declare e i) := by
  rcases declare_cases e i with ⟨fault, -, hrun⟩ | ⟨f, hrun, -, hordered, hlists⟩ <;>
    rw [hrun]
  · exact fun v h => h
  · exact fun v h => ⟨hordered v h.1, hlists v h.2⟩

theorem declared (e : Surroundings) (is : List Instruction) :
    (implicitOutput e (declarations e is ⟨[], .start⟩).survey).Ordered ∧
      ∀ x, ¬(implicitOutput e (declarations e is ⟨[], .start⟩).survey).Lists x := by
  have hstart : Survey.start.Ordered ∧ ∀ x, ¬Survey.start.Lists x := by
    refine ⟨by constructor <;> first | exact List.Pairwise.nil | exact nofun, fun x => ?_⟩
    rcases x with ⟨_ | _ | _, n⟩ | n | ⟨_ | _ | _, n⟩ | n <;> simp [start, Lists]
  obtain ⟨hordered, hlists⟩ : (declarations e is ⟨[], .start⟩).survey.Ordered ∧
      ∀ x, ¬(declarations e is ⟨[], .start⟩).survey.Lists x :=
    keeps_foldl (keeps_declare · e) _ hstart
  unfold implicitOutput
  split_ifs
  · refine ⟨ordered_putOutput ?_ _ _ _, hlists⟩
    exact { hordered with temps := hordered.temps.putBy 0 }
  · exact ⟨hordered, hlists⟩

theorem ordered_ofInstructions (e : Surroundings) (is : List Instruction) :
    (ofInstructions e is).survey.Ordered :=
  keeps_foldl (keeps_scan e) is (declared e is).1

theorem run_of_faults_eq_nil {step : SurveyM Unit} (h : (p.run i step).faults = []) :
    p.faults = [] ∧ step.run.run p.survey = (.ok (), (p.run i step).survey) := by
  unfold Progress.run at h ⊢
  rcases hrun : step.run.run p.survey with ⟨_ | _, v⟩ <;> rw [hrun] at h
  · exact absurd h (List.cons_ne_nil _ _)
  · exact ⟨h, rfl⟩

/-- Instructions without faults add all their entries. -/
theorem lists_foldl {ms : Instruction → List Mention} (hstep : ∀ i, Notes (ms i) (step i))
    (is : List Instruction) (h : (is.foldl (fun p i => p.run i (step i)) p).faults = []) :
    p.faults = [] ∧ ∀ x, (is.foldl (fun p i => p.run i (step i)) p).survey.Lists x ↔
      p.survey.Lists x ∨ ∃ i ∈ is, x ∈ ms i := by
  induction is generalizing p with
  | nil => exact ⟨h, fun x => by simp⟩
  | cons i rest ih =>
    obtain ⟨hfaults, hrest⟩ := ih h
    obtain ⟨hbefore, hrun⟩ := run_of_faults_eq_nil hfaults
    refine ⟨hbefore, fun x => ?_⟩
    rw [List.foldl_cons, hrest x, hstep i _ _ _ hrun x, List.exists_mem_cons_iff, or_assoc]

/-- A survey without faults lists what the instructions mention. -/
theorem lists_ofInstructions {e : Surroundings} {is : List Instruction}
    (h : (ofInstructions e is).faults = []) (x : Mention) :
    (ofInstructions e is).survey.Lists x ↔ ∃ i ∈ is, x ∈ i.mentions := by
  have hall := (lists_foldl (notes_scan e) is h).2 x
  exact hall.trans (or_iff_right ((declared e is).2 x))

end Survey

def Shader.Mentions (s : Shader) (x : Mention) : Prop := ∃ i ∈ s.instructions, x ∈ i.mentions

instance (s : Shader) (x : Mention) : Decidable (s.Mentions x) :=
  inferInstanceAs (Decidable (∃ i ∈ s.instructions, x ∈ i.mentions))

end ShaderPipeline
