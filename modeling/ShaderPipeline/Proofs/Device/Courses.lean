import ShaderPipeline.Proofs.Device.Growth

/-!
# Courses of requests

A course leads from one client to a later one. It goes on through failed requests, and between
requests the driver may come to answer otherwise.
-/

namespace ShaderPipeline.Device

def callsSince (before d : Device) : List Call := d.calls.toList.drop before.calls.size

theorem callsSince_of_append {before d : Device} {cs : List Call}
    (h : d.calls.toList = before.calls.toList ++ cs) : callsSince before d = cs := by
  rw [callsSince, h, ← Array.length_toList, List.drop_left]

theorem callsSince_self (d : Device) : callsSince d d = [] :=
  callsSince_of_append (List.append_nil _).symm

theorem sameProgram_self (p : Option LinkedProgram) : sameProgram p p = true := by
  cases p with
  | none => rfl
  | some p => exact beq_self_eq_true p.id

/-- A step that makes calls about some subjects. It keeps the binding, and also what is kept about
drawing if none of the calls is about that. -/
structure Talks (subjects : List Subject) (d d' : Device) : Prop where
  profile : d'.profile = d.profile
  bound : d'.bound = d.bound
  drawState : .drawing ∉ subjects → d'.drawState = d.drawState
  calls : ∃ cs, d'.calls.toList = d.calls.toList ++ cs ∧ About subjects cs

namespace Talks

variable {subjects subjects' : List Subject} {d d' d'' : Device}

theorem of_speaks (h : Speaks subjects d d') (hsub : subjects ⊆ subjects' := by simp) :
    Talks subjects' d d' :=
  ⟨h.profile, h.bound, (h.mono hsub).drawState, (h.mono hsub).calls⟩

theorem of_eq (hprofile : d'.profile = d.profile) (hbound : d'.bound = d.bound)
    (hstate : d'.drawState = d.drawState) (hcalls : d'.calls = d.calls) : Talks subjects d d' :=
  ⟨hprofile, hbound, fun _ => hstate, [], by rw [hcalls, List.append_nil], .nil _⟩

theorem trans (h : Talks subjects d d') (h' : Talks subjects d' d'') : Talks subjects d d'' := by
  obtain ⟨cs, hcs, habout⟩ := h.calls
  obtain ⟨cs', hcs', habout'⟩ := h'.calls
  exact ⟨h'.profile.trans h.profile, h'.bound.trans h.bound,
    fun hnot => (h'.drawState hnot).trans (h.drawState hnot), cs ++ cs',
    by rw [hcs', hcs, List.append_assoc], habout.append habout'⟩

theorem collected (h : Talks subjects d d') (hobject : .object ∈ subjects := by simp) :
    Talks subjects d d'.collected :=
  h.trans (.of_speaks (speaks_collected d') (by simpa using hobject))

end Talks

namespace Client

def answering (c : Client) (driver : Driver) : Client :=
  { c with device := { c.device with driver } }

/-- The same program is bound before and after a request, or none is. -/
def KeepsBound (c : Client) (r : Request) : Prop :=
  sameProgram (c.perform r).device.bound c.device.bound = true

/-- The clients that requests lead to from a client on. Between requests the driver may change its
answers. -/
inductive Leads (c₀ : Client) : List Request → Client → Prop
  | start : Leads c₀ [] c₀
  | step {requests : List Request} {c : Client} (before : Leads c₀ requests c) (r : Request)
      (allowed : c.Allows r) : Leads c₀ (requests ++ [r]) (c.perform r)
  | answer {requests : List Request} {c : Client} (before : Leads c₀ requests c)
      (driver : Driver) : Leads c₀ requests (c.answering driver)

/-- A course leads to a client, and its binding has not changed since it was another one: the one
right after the last change, or the first one. -/
inductive BoundSince (c₀ : Client) : Client → Client → Prop
  | start : BoundSince c₀ c₀ c₀
  | keep {m c : Client} (before : BoundSince c₀ m c) (r : Request) (allowed : c.Allows r)
      (kept : c.KeepsBound r) : BoundSince c₀ m (c.perform r)
  | change {m c : Client} (before : BoundSince c₀ m c) (r : Request) (allowed : c.Allows r)
      (changed : ¬c.KeepsBound r) : BoundSince c₀ (c.perform r) (c.perform r)
  | answer {m c : Client} (before : BoundSince c₀ m c) (driver : Driver) :
      BoundSince c₀ m (c.answering driver)

namespace BoundSince

variable {c₀ m c : Client}

/-- Calls are only ever added along a course. -/
theorem calls (h : BoundSince c₀ m c) :
    c.device.calls.toList = m.device.calls.toList ++ callsSince m.device c.device := by
  have hprefix : m.device.calls.toList <+: c.device.calls.toList := by
    induction h with
    | start => exact List.prefix_refl _
    | keep _ r _ _ ih => exact ih.trans (calls_perform _ r)
    | change => exact List.prefix_refl _
    | answer _ _ ih => exact ih
  obtain ⟨cs, hcs⟩ := hprefix
  rw [callsSince_of_append hcs.symm, hcs]

theorem profile (h : BoundSince c₀ m c) : c.device.profile = c₀.device.profile := by
  induction h with
  | start => rfl
  | keep _ r _ _ ih => exact (profile_perform _ r).trans ih
  | change _ r _ _ ih => exact (profile_perform _ r).trans ih
  | answer _ _ ih => exact ih

theorem callsSince_perform (h : BoundSince c₀ m c) {r : Request} {cs : List Call}
    (hcs : (c.perform r).device.calls.toList = c.device.calls.toList ++ cs) :
    callsSince m.device (c.perform r).device = callsSince m.device c.device ++ cs :=
  callsSince_of_append (by rw [hcs, h.calls, List.append_assoc])

end BoundSince

end Client

end ShaderPipeline.Device
