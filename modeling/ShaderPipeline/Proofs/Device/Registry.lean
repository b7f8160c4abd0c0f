import Mathlib.Data.Multiset.UnionInter
import ShaderPipeline.Proofs.Device.Subjects

/-!
# Names of objects in a record of calls

The driver names the objects it creates. `Registry.after` replays a record of calls and gives the
names of the objects that exist then: each one that was created as often as it was created and not
deleted since. A record is admitted (`Admits`) if its calls name objects that exist only, and so
delete only such objects.
-/

namespace ShaderPipeline.Device

open Multiset List

variable {x : ObjectName}

/-- The name of an object, by the kind of object. -/
inductive ObjectName where
  | shader (name : Nat)
  | program (name : Nat)
  | assembly (name : Nat)
  deriving DecidableEq

namespace ObjectName

def number : ObjectName → Nat
  | shader n | program n | assembly n => n

def ofShader (glsl : Bool) (n : Nat) : ObjectName := if glsl then .shader n else .assembly n

end ObjectName

namespace Call

def creates? : Call → Option ObjectName
  | .createShader _ n => some (.shader n)
  | .createProgram n => some (.program n)
  | .genProgramArb n => some (.assembly n)
  | _ => none

def deletes? : Call → Option ObjectName
  | .deleteShader n => some (.shader n)
  | .deleteProgram n => some (.program n)
  | .deleteProgramArb n => some (.assembly n)
  | _ => none

/-- The objects that a call names. Zero stands for none where a program is put in use. -/
def names : Call → List ObjectName
  | .shaderSource n _ => [.shader n]
  | .attachShader p s => [.program p, .shader s]
  | .linkProgram p => [.program p]
  | .useProgram p => if p = 0 then [] else [.program p]
  | .bindProgramArb _ p => if p = 0 then [] else [.assembly p]
  | .deleteShader n => [.shader n]
  | .deleteProgram n => [.program n]
  | .deleteProgramArb n => [.assembly n]
  | _ => []

@[simp] theorem mem_names_useProgram {n : Nat} :
    x ∈ (useProgram n).names ↔ n ≠ 0 ∧ x = .program n := by
  by_cases hn : n = 0 <;> simp [names, hn]

@[simp] theorem mem_names_bindProgramArb {target n : Nat} :
    x ∈ (bindProgramArb target n).names ↔ n ≠ 0 ∧ x = .assembly n := by
  by_cases hn : n = 0 <;> simp [names, hn]

theorem mem_names_of_deletes {c : Call} (h : c.deletes? = some x) : x ∈ c.names := by
  cases c <;> simp_all [deletes?, names]

def Leaves (c : Call) : Prop := c.creates? = none ∧ c.deletes? = none

end Call

variable (cs : List Call)

def createdBy : List ObjectName := cs.filterMap Call.creates?

def deletedBy : List ObjectName := cs.filterMap Call.deletes?

/-- Calls have created an object and not deleted it. -/
def Alive (x : ObjectName) : Prop := x ∈ createdBy cs ∧ x ∉ deletedBy cs

/-- Every call names only objects that the calls before it have created and not deleted. -/
def NamesAlive : Prop :=
  ∀ before c rest, cs = before ++ c :: rest → ∀ x ∈ c.names, Alive before x

abbrev Registry := Multiset ObjectName

namespace Registry

/-- What exists after a call. -/
def step (known : Registry) (c : Call) : Registry :=
  ↑c.creates?.toList + (known - ↑c.deletes?.toList)

/-- What exists after calls. -/
def after (known : Registry) (cs : List Call) : Registry := cs.foldl step known

def Admits (known : Registry) : List Call → Prop
  | [] => True
  | c :: cs => (∀ x ∈ c.names, x ∈ known) ∧ Admits (known.step c) cs

variable {known : Registry} {cs cs' : List Call}

theorem after_append (known : Registry) (cs cs' : List Call) :
    known.after (cs ++ cs') = (known.after cs).after cs' := foldl_append

theorem admits_append :
    known.Admits (cs ++ cs') ↔ known.Admits cs ∧ (known.after cs).Admits cs' := by
  induction cs generalizing known with
  | nil => exact (iff_of_eq (true_and _)).symm
  | cons c cs ih => rw [cons_append, Admits, Admits, ih, and_assoc]; rfl

/-- Calls that create and delete nothing are admitted if what they name exists. -/
theorem admits_of_leaves (h : ∀ c ∈ cs, c.Leaves) (hnames : ∀ c ∈ cs, ∀ x ∈ c.names, x ∈ known) :
    known.Admits cs ∧ known.after cs = known := by
  induction cs with
  | nil => exact ⟨trivial, rfl⟩
  | cons c cs ih =>
    have hstep : known.step c = known := by
      obtain ⟨hcreates, hdeletes⟩ := h c mem_cons_self
      rw [step, hcreates, hdeletes]
      exact (zero_add _).trans (tsub_zero known)
    obtain ⟨hadmits, hafter⟩ := ih (fun c' hc' => h c' (mem_cons_of_mem c hc'))
      fun c' hc' => hnames c' (mem_cons_of_mem c hc')
    refine ⟨⟨hnames c mem_cons_self, ?_⟩, ?_⟩
    · rwa [hstep]
    · rw [after, List.foldl_cons, hstep]
      exact hafter

/-! ### What was created and deleted -/

theorem step_add_deleted {c : Call} (h : ∀ x ∈ c.names, x ∈ known) :
    known.step c + ↑c.deletes?.toList = known + ↑c.creates?.toList := by
  have hle : (↑c.deletes?.toList : Registry) ≤ known := by
    cases hd : c.deletes? with
    | none => exact zero_le known
    | some x => exact singleton_le.mpr (h x (Call.mem_names_of_deletes hd))
  rw [step, add_assoc, tsub_add_cancel_of_le hle, add_comm]

/-- What was created, or existed before, exists or was deleted. -/
theorem after_add_deleted (h : known.Admits cs) :
    known.after cs + ↑(deletedBy cs) = known + ↑(createdBy cs) := by
  induction cs generalizing known with
  | nil => rfl
  | cons c cs ih =>
    have hcons : ∀ f : Call → Option ObjectName,
        (↑((c :: cs).filterMap f) : Registry) = ↑(f c).toList + ↑(cs.filterMap f) := by
      intro f
      cases hf : f c with
      | none => rw [filterMap_cons_none hf]; exact (zero_add _).symm
      | some x => rw [filterMap_cons_some hf]; rfl
    rw [deletedBy, createdBy, hcons, hcons, add_left_comm]
    calc (↑c.deletes?.toList : Registry) + ((known.step c).after cs + ↑(deletedBy cs))
        = ↑c.deletes?.toList + (known.step c + ↑(createdBy cs)) := by rw [ih h.2]
      _ = known.step c + ↑c.deletes?.toList + ↑(createdBy cs) := by
          rw [add_left_comm, add_assoc]
      _ = known + (↑c.creates?.toList + ↑(createdBy cs)) := by
          rw [step_add_deleted h.1, add_assoc]

theorem mem_of_mem_after (hx : x ∈ known.after cs) : x ∈ known ∨ x ∈ createdBy cs := by
  induction cs using reverseRecOn with
  | nil => exact Or.inl hx
  | append_singleton cs c ih =>
    rw [createdBy, filterMap_append, mem_append]
    rw [after_append, after, List.foldl_cons, foldl_nil, step] at hx
    rcases mem_add.mp hx with hx | hx
    · refine Or.inr (Or.inr (mem_filterMap.mpr ⟨c, List.mem_singleton.mpr rfl, ?_⟩))
      exact Option.mem_toList.mp hx
    · exact (ih (mem_of_le tsub_le_self hx)).imp_right Or.inl

section Fresh

variable (h : Admits 0 cs) (hfresh : (createdBy cs).Nodup)
include h hfresh

theorem nodup_after_add_deleted : (after 0 cs + ↑(deletedBy cs)).Nodup := by
  rw [after_add_deleted h, zero_add]
  exact coe_nodup.mpr hfresh

/-- If all names are new, what exists was created and not deleted. -/
theorem alive_of_mem (hx : x ∈ after 0 cs) : Alive cs x := by
  have hnodup := nodup_after_add_deleted h hfresh
  refine ⟨(mem_of_mem_after hx).resolve_left (notMem_zero x), fun hdeleted => ?_⟩
  exact disjoint_left.mp (nodup_add.mp hnodup).2.2 hx hdeleted

/-- If all names are new, calls name only objects that were created and not deleted before. -/
theorem namesAlive : NamesAlive cs := by
  rintro before c rest rfl x hx
  obtain ⟨hbefore, hnames, -⟩ := admits_append.mp h
  refine alive_of_mem hbefore ?_ (hnames x hx)
  rw [createdBy, filterMap_append] at hfresh
  exact hfresh.of_append_left

/-- If all names are new and nothing is left, every object was deleted once. -/
theorem count_deleted_of_after_eq_zero (hzero : after 0 cs = 0) (hx : x ∈ createdBy cs) :
    (deletedBy cs).count x = 1 := by
  have hsum := after_add_deleted h
  rw [hzero, zero_add, zero_add] at hsum
  rw [← coe_count, hsum, coe_count]
  exact count_eq_one_of_mem hfresh hx

end Fresh

/-- Every object gets a name that no other object has at that time, and that is not zero. -/
def Distinct (cs : List Call) : Prop :=
  ∀ before c rest, cs = before ++ c :: rest →
    ∀ x ∈ c.creates?, x ∉ after 0 before ∧ x.number ≠ 0

theorem Distinct.of_append (h : Distinct (cs ++ cs')) : Distinct cs :=
  fun before c rest hcs => h before c (rest ++ cs') (by rw [hcs, append_assoc]; rfl)

/-- If objects that exist at one time have different names, no name exists twice. -/
theorem Distinct.nodup_after (h : Distinct cs) : (after 0 cs).Nodup := by
  induction cs using reverseRecOn with
  | nil => exact nodup_zero
  | append_singleton cs c ih =>
    have hrest : (after 0 cs - ↑c.deletes?.toList).Nodup :=
      nodup_of_le tsub_le_self (ih h.of_append)
    rw [after_append]
    cases hc : c.creates? with
    | none =>
      have hstep : (after 0 cs).after [c] = after 0 cs - ↑c.deletes?.toList := by
        rw [after, List.foldl_cons, foldl_nil, step, hc]
        exact zero_add _
      rwa [hstep]
    | some x =>
      have hstep : (after 0 cs).after [c] = x ::ₘ (after 0 cs - ↑c.deletes?.toList) := by
        rw [after, List.foldl_cons, foldl_nil, step, hc]
        rfl
      rw [hstep, Multiset.nodup_cons]
      exact ⟨fun hx => (h cs c [] rfl x hc).1 (mem_of_le tsub_le_self hx), hrest⟩

theorem Distinct.number_ne_zero (h : Distinct cs) (hx : x ∈ after 0 cs) : x.number ≠ 0 := by
  induction cs using reverseRecOn with
  | nil => exact absurd hx (notMem_zero x)
  | append_singleton cs c ih =>
    rw [after_append, after, List.foldl_cons, foldl_nil, step] at hx
    rcases mem_add.mp hx with hx | hx
    · exact (h cs c [] rfl x (Option.mem_toList.mp hx)).2
    · exact ih h.of_append (mem_of_le tsub_le_self hx)

/-- Names that are never given again are different at all times. -/
theorem Distinct.of_nodup (h : (createdBy cs).Nodup) (hnumber : ∀ x ∈ createdBy cs, x.number ≠ 0) :
    Distinct cs := by
  rintro before c rest rfl x hx
  have hcreated : createdBy (before ++ c :: rest) = createdBy before ++ x :: createdBy rest := by
    rw [createdBy, filterMap_append, filterMap_cons_some hx]
    rfl
  rw [hcreated] at h hnumber
  refine ⟨fun hafter => ?_, hnumber x (mem_append_right _ mem_cons_self)⟩
  have hmem := (mem_of_mem_after hafter).resolve_left (notMem_zero x)
  exact (nodup_append.mp h).2.2 x hmem x mem_cons_self rfl

end Registry

end ShaderPipeline.Device
