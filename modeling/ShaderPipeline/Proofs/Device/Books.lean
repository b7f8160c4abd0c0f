import Mathlib.Logic.Relation
import ShaderPipeline.Proofs.Device.Accounts

/-!
# The books of a device

The books of a device hold what matters for its objects: the store, the record of calls, what the
device itself refers to (the linked pairs and the bound program) and what is referred to from
outside. Whatever is done with a device comes down to a few moves on its books (`Books.Move`): to
make an object, to hold one or let go of it, to hand a program over to the device or to take it
back, to delete what is queued, and to make calls that name only what is referred to.
-/

namespace ShaderPipeline.Device

open Multiset Call ObjectName

variable {p : LinkedProgram} {x : CompiledShader}

/-- The objects that a program is put in use by. Zero stands for none. -/
def ProgramNames.objects (glsl : Bool) (names : ProgramNames) : List ObjectName :=
  if glsl then ([names.program].filter (· ≠ 0)).map .program
  else ([names.vertex, names.pixel].filter (· ≠ 0)).map .assembly

/-- What matters of a device for its objects, and the references to these from outside. -/
structure Books where
  glsl : Bool
  store : Store
  bound : Option LinkedProgram
  links : List ((Nat × Nat) × LinkedProgram)
  calls : List Call
  shaders : Multiset CompiledShader
  programs : Multiset LinkedProgram

def books (d : Device) (shaders : Multiset CompiledShader) (programs : Multiset LinkedProgram) :
    Books :=
  ⟨d.profile.isGlsl, d.store, d.bound, d.linkCache, d.calls.toList, shaders, programs⟩

namespace Books

def programRefs (b : Books) : Multiset LinkedProgram :=
  b.programs + ↑(b.links.map (·.2)) + ↑b.bound.toList

def shaderRefs (b : Books) : Multiset CompiledShader := b.shaders + shadersOf b.programRefs

theorem mem_shaderRefs_of_program {b : Books} (hp : p ∈ b.programRefs) :
    (∀ s ∈ p.vertex, s ∈ b.shaderRefs) ∧ ∀ s ∈ p.pixel, s ∈ b.shaderRefs := by
  have hmem : ∀ s ∈ p.shaders, s ∈ b.shaderRefs := fun s hs =>
    mem_add.mpr (Or.inr (mem_shadersOf.mpr ⟨p, hp, hs⟩))
  exact ⟨fun s hs => hmem s (mem_add.mpr (Or.inl (Option.mem_toList.mpr hs))),
    fun s hs => hmem s (mem_add.mpr (Or.inr (Option.mem_toList.mpr hs)))⟩

variable {b b' : Books}

theorem programRefs_of_cons (hprograms : b'.programs = p ::ₘ b.programs)
    (hlinks : b'.links = b.links) (hbound : b'.bound = b.bound) :
    b'.programRefs = p ::ₘ b.programRefs := by
  rw [programRefs, hprograms, hlinks, hbound, cons_add, cons_add]
  rfl

theorem eq_or_mem_of_cons {q : LinkedProgram} (hq : q ∈ b'.programRefs)
    (hprograms : b'.programs = p ::ₘ b.programs) (hlinks : b'.links = b.links)
    (hbound : b'.bound = b.bound) : q = p ∨ q ∈ b.programRefs :=
  mem_cons.mp (programRefs_of_cons hprograms hlinks hbound ▸ hq)

/-- The moves, by which only shaders whose code has a property are made. -/
inductive Move (P : LoweredShader → Prop) (b : Books) : Books → Prop
  /-- Calls that name only programs which are referred to. -/
  | say (cs : List Call) (leaves : ∀ c ∈ cs, c.Leaves)
      (refers : ∀ c ∈ cs, ∀ x ∈ c.names, ∃ p ∈ b.programRefs, x ∈ p.names.objects b.glsl) :
      Move P b { b with calls := b.calls ++ cs }
  /-- Other shadows of programs. -/
  | remember (shadows : Array Shadow) : Move P b { b with store := { b.store with shadows } }
  /-- What is queued is deleted. -/
  | collect : Move P b { b with
      store := { b.store with released := [] }
      calls := b.calls ++ deletions b.glsl b.store.released }
  /-- A new shader. -/
  | compile (n : Nat) (stage : Stage) (code : LoweredShader) (fine : P code) : Move P b { b with
      store := (b.store.addShader n stage code).2
      calls := b.calls ++ sourceCalls b.glsl code stage n
      shaders := (b.store.addShader n stage code).1 ::ₘ b.shaders }
  /-- A shader that the driver refuses. -/
  | refuse (n : Nat) (stage : Stage) (code : LoweredShader) : Move P b { b with
      calls := b.calls ++ (sourceCalls b.glsl code stage n ++ refusalCalls b.glsl stage n) }
  /-- A new program. -/
  | link (p : LinkedProgram) (generation : UInt64)
      (id_eq : p.id = (b.store.addProgram p.vertex p.pixel generation).1)
      (named : p.names.vertex = nameOf p.vertex ∧ p.names.pixel = nameOf p.pixel)
      (held : ∀ x ∈ p.shaders, x ∈ b.shaderRefs) : Move P b { b with
        store := (b.store.addProgram p.vertex p.pixel generation).2
        calls := b.calls ++ if b.glsl then
          createCalls p.names.program (p.vertex.toList ++ p.pixel.toList) else []
        programs := p ::ₘ b.programs }
  /-- A program that the driver refuses. -/
  | refuseLink (n : Nat) (shaders : List CompiledShader) (glsl : b.glsl = true)
      (held : ∀ x ∈ shaders, x ∈ b.shaderRefs) :
      Move P b { b with calls := b.calls ++ (createCalls n shaders ++ [.deleteProgram n]) }
  /-- One more reference to a shader. -/
  | holdShader (x : CompiledShader) (held : x ∈ b.shaderRefs) : Move P b { b with
      store := b.store.holdShader x
      shaders := x ::ₘ b.shaders }
  /-- One reference to a shader less. -/
  | dropShader (x : CompiledShader) (held : x ∈ b.shaders) : Move P b { b with
      store := b.store.dropShader x
      shaders := b.shaders.erase x }
  /-- One more reference to a program. -/
  | holdProgram (p : LinkedProgram) (held : p ∈ b.programRefs) : Move P b { b with
      store := b.store.holdProgram p
      programs := p ::ₘ b.programs }
  /-- One reference to a program less. -/
  | dropProgram (p : LinkedProgram) (held : p ∈ b.programs) : Move P b { b with
      store := b.store.dropProgram p
      programs := b.programs.erase p }
  /-- A reference is handed over to the linked pairs. -/
  | keepPair (p : LinkedProgram) (held : p ∈ b.programs) : Move P b { b with
      links := b.links ++ [((nameOf p.vertex, nameOf p.pixel), p)]
      programs := b.programs.erase p }
  /-- References are taken back from the linked pairs. -/
  | evict (keep : (Nat × Nat) × LinkedProgram → Bool) : Move P b { b with
      links := b.links.filter keep
      programs := ↑((b.links.filter (!keep ·)).map (·.2)) + b.programs }
  /-- A reference is handed over to the binding, and that to the old program is taken back. -/
  | rebind (p : Option LinkedProgram) (held : ∀ q ∈ p, q ∈ b.programs) : Move P b { b with
      bound := p
      programs := ↑b.bound.toList + (b.programs - ↑p.toList) }

section Transfers

variable {b : Books}

theorem programRefs_keepPair (held : p ∈ b.programs) :
    ({ b with
      links := b.links ++ [((nameOf p.vertex, nameOf p.pixel), p)]
      programs := b.programs.erase p } : Books).programRefs = b.programRefs := by
  have hpair : (↑((b.links ++ [((nameOf p.vertex, nameOf p.pixel), p)]).map (·.2)) :
      Multiset LinkedProgram) = p ::ₘ ↑(b.links.map (·.2)) := by
    rw [List.map_append, ← coe_add, add_comm]
    rfl
  rw [programRefs, hpair, add_cons, ← cons_add, cons_erase held]
  rfl

theorem programRefs_evict (b : Books) (keep : (Nat × Nat) × LinkedProgram → Bool) :
    ({ b with
      links := b.links.filter keep
      programs := ↑((b.links.filter (!keep ·)).map (·.2)) + b.programs } : Books).programRefs =
        b.programRefs := by
  have hparts : (↑((b.links.filter keep).map (·.2)) : Multiset LinkedProgram) +
      ↑((b.links.filter (!keep ·)).map (·.2)) = ↑(b.links.map (·.2)) := by
    rw [coe_add, ← List.map_append, coe_eq_coe]
    exact (List.filter_append_perm keep b.links).map _
  rw [programRefs, programRefs, ← hparts]
  dsimp only
  ac_rfl

theorem programRefs_rebind {p : Option LinkedProgram} (held : ∀ q ∈ p, q ∈ b.programs) :
    ({ b with
      bound := p
      programs := ↑b.bound.toList + (b.programs - ↑p.toList) } : Books).programRefs =
        b.programRefs := by
  have hle : (↑p.toList : Multiset LinkedProgram) ≤ b.programs := by
    cases p with
    | none => exact zero_le _
    | some q => exact singleton_le.mpr (held q rfl)
  calc ↑b.bound.toList + (b.programs - ↑p.toList) + ↑(b.links.map (·.2)) + ↑p.toList
      = b.programs - ↑p.toList + ↑p.toList + ↑(b.links.map (·.2)) + ↑b.bound.toList := by ac_rfl
    _ = b.programRefs := by rw [tsub_add_cancel_of_le hle, programRefs]

end Transfers

abbrev Proceeds (P : LoweredShader → Prop) : Books → Books → Prop := Relation.ReflTransGen (Move P)

abbrev Reaches : Books → Books → Prop := Proceeds fun _ => True

variable {P : LoweredShader → Prop}

/-! ### The ledger -/

/-- The accounts of the store are right for the objects that exist by the record, every call of
which names objects that exist. Programs keep the names of their shaders, and the linked pairs are
kept by these. -/
structure Ledger (b : Books) : Prop where
  accounts : Accounts b.glsl b.store b.shaders b.programRefs (Registry.after 0 b.calls)
  admitted : Registry.Admits 0 b.calls
  named : ∀ p ∈ b.programRefs, p.names.vertex = nameOf p.vertex ∧ p.names.pixel = nameOf p.pixel
  keyed : ∀ e ∈ b.links, e.1 = (nameOf e.2.vertex, nameOf e.2.pixel)

/-! ### Calls and the objects that exist -/

section Calls

open Registry

variable {known : Registry} (glsl : Bool)

theorem admits_deletion (r : Released) (h : ↑(r.object? glsl).toList ≤ known) :
    known.Admits (deletions glsl [r]) ∧
      known.after (deletions glsl [r]) = known - ↑(r.object? glsl).toList := by
  cases r with
  | shader n =>
    have hmem : ofShader glsl n ∈ known := singleton_le.mp h
    cases glsl <;> exact ⟨⟨by simpa [names, ofShader] using hmem, trivial⟩, zero_add _⟩
  | program n =>
    cases glsl with
    | false => exact ⟨trivial, (tsub_zero known).symm⟩
    | true =>
      have hmem : program n ∈ known := singleton_le.mp h
      exact ⟨⟨by simpa [names] using hmem, trivial⟩, zero_add _⟩

theorem admits_deletions (rs : List Released) (h : ↑(rs.filterMap (·.object? glsl)) ≤ known) :
    known.Admits (deletions glsl rs) ∧
      known.after (deletions glsl rs) = known - ↑(rs.filterMap (·.object? glsl)) := by
  induction rs generalizing known with
  | nil => exact ⟨trivial, (tsub_zero known).symm⟩
  | cons r rs ih =>
    have hsplit : (↑((r :: rs).filterMap (·.object? glsl)) : Registry) =
        ↑(r.object? glsl).toList + ↑(rs.filterMap (·.object? glsl)) := by
      cases hr : r.object? glsl <;> simp [hr]
    have hcalls : deletions glsl (r :: rs) = deletions glsl [r] ++ deletions glsl rs := by
      simp [deletions]
    rw [hsplit] at h ⊢
    obtain ⟨hadmits, hafter⟩ := admits_deletion glsl r (le_of_add_le_left h)
    obtain ⟨hrest, hafter'⟩ := ih (le_tsub_of_add_le_left h)
    rw [hcalls, admits_append, after_append, hafter, hafter', tsub_tsub]
    exact ⟨⟨hadmits, hrest⟩, rfl⟩

theorem admits_sourceCalls (code : LoweredShader) (stage : Stage) (n : Nat) :
    known.Admits (sourceCalls glsl code stage n) ∧
      known.after (sourceCalls glsl code stage n) = .ofShader glsl n ::ₘ known := by
  cases glsl with
  | true =>
    simp [sourceCalls, Admits, after, step, names, creates?, deletes?, ofShader]
  | false =>
    by_cases hn : n = 0 <;>
      simp [sourceCalls, Admits, after, step, names, creates?, deletes?, ofShader, hn]

theorem admits_refusalCalls (stage : Stage) (n : Nat) :
    Admits (.ofShader glsl n ::ₘ known) (refusalCalls glsl stage n) ∧
      after (.ofShader glsl n ::ₘ known) (refusalCalls glsl stage n) = known := by
  cases glsl <;>
    simp [refusalCalls, Admits, after, step, names, creates?, deletes?, ofShader]

theorem admits_createCalls (n : Nat) {shaders : List CompiledShader}
    (h : ∀ x ∈ shaders, .shader x.name ∈ known) :
    known.Admits (createCalls n shaders) ∧
      known.after (createCalls n shaders) = .program n ::ₘ known := by
  have hcreate : known.step (.createProgram n) = .program n ::ₘ known := by
    simp [step, creates?, deletes?]
  have hcalls : ∀ c ∈ shaders.map (fun s => attachShader n s.name) ++ [.linkProgram n],
      c.Leaves ∧ ∀ x ∈ c.names, x ∈ program n ::ₘ known := by
    intro c hc
    rcases List.mem_append.mp hc with hc | hc
    · obtain ⟨s, hs, rfl⟩ := List.mem_map.mp hc
      exact ⟨⟨rfl, rfl⟩, by simp [names, h s hs]⟩
    · obtain rfl := List.mem_singleton.mp hc
      exact ⟨⟨rfl, rfl⟩, by simp [names]⟩
  obtain ⟨hadmits, hafter⟩ :=
    admits_of_leaves (fun c hc => (hcalls c hc).1) fun c hc => (hcalls c hc).2
  refine ⟨⟨by simp [names], hcreate ▸ hadmits⟩, ?_⟩
  rw [← hcreate] at hafter
  exact hafter.trans hcreate

end Calls

/-! ### Moves keep the ledger -/

namespace Ledger

variable {b b' : Books}

/-- The ledger before the first call. -/
theorem initial (glsl : Bool) : Ledger ⟨glsl, .empty, none, [], [], 0, 0⟩ where
  accounts :=
    { shaderCounts := ⟨fun _ => rfl, fun _ hx => absurd hx (notMem_zero _)⟩
      programCounts := ⟨fun _ => rfl, fun _ hp => absurd hp (notMem_zero _)⟩
      balanced := by cases glsl <;> rfl }
  admitted := trivial
  named _ hp := absurd hp (notMem_zero _)
  keyed _ he := absurd he List.not_mem_nil

theorem mem_of_shader (h : Ledger b) (hx : x ∈ b.shaderRefs) :
    x.object b.glsl ∈ Registry.after 0 b.calls :=
  h.accounts.mem_of_shader hx

theorem mem_of_program (h : Ledger b) (hp : p ∈ b.programRefs) {x : ObjectName}
    (hx : x ∈ p.names.objects b.glsl) : x ∈ Registry.after 0 b.calls := by
  have haccounts := h.accounts
  obtain ⟨hvertex, hpixel⟩ := mem_shaderRefs_of_program hp
  unfold ProgramNames.objects at hx
  cases hg : b.glsl with
  | true =>
    rw [hg] at haccounts
    rw [hg, if_pos rfl] at hx
    obtain ⟨n, hn, rfl⟩ := List.mem_map.mp hx
    obtain rfl := List.mem_singleton.mp (List.mem_of_mem_filter hn)
    exact haccounts.mem_of_program hp
  | false =>
    -- A name of a stage that is not zero is that of the stage's shader.
    have hstage : ∀ {y : Option CompiledShader}, (∀ s ∈ y, s ∈ b.shaderRefs) → nameOf y ≠ 0 →
        .assembly (nameOf y) ∈ Registry.after 0 b.calls := by
      intro y hy hne
      cases y with
      | none => exact absurd rfl hne
      | some s =>
        have hmem := h.mem_of_shader (hy s rfl)
        rwa [hg] at hmem
    rw [hg, if_neg Bool.false_ne_true, (h.named p hp).1, (h.named p hp).2] at hx
    obtain ⟨n, hn, rfl⟩ := List.mem_map.mp hx
    simp only [List.mem_filter, List.mem_cons, List.not_mem_nil, or_false, ne_eq,
      decide_eq_true_eq] at hn
    obtain ⟨rfl | rfl, hne⟩ := hn
    · exact hstage hvertex hne
    · exact hstage hpixel hne

theorem of_calls (h : Ledger b) {cs : List Call} {refs : Multiset LinkedProgram}
    (hadmits : (Registry.after 0 b.calls).Admits cs) (hcalls : b'.calls = b.calls ++ cs)
    (hrefs : b'.programRefs = refs)
    (haccounts : Accounts b'.glsl b'.store b'.shaders refs ((Registry.after 0 b.calls).after cs))
    (hnamed : ∀ p ∈ refs, p.names.vertex = nameOf p.vertex ∧ p.names.pixel = nameOf p.pixel)
    (hkeyed : ∀ e ∈ b'.links, e.1 = (nameOf e.2.vertex, nameOf e.2.pixel)) : Ledger b' where
  accounts := by rwa [hcalls, hrefs, Registry.after_append]
  admitted := by
    rw [hcalls]
    exact Registry.admits_append.mpr ⟨h.admitted, hadmits⟩
  named := hrefs ▸ hnamed
  keyed := hkeyed

theorem of_refs (h : Ledger b) (hglsl : b'.glsl = b.glsl) (hstore : b'.store = b.store)
    (hcalls : b'.calls = b.calls) (hshaders : b'.shaders = b.shaders)
    (hrefs : b'.programRefs = b.programRefs)
    (hkeyed : ∀ e ∈ b'.links, e.1 = (nameOf e.2.vertex, nameOf e.2.pixel)) : Ledger b' where
  accounts := by
    rw [hglsl, hstore, hcalls, hshaders, hrefs]
    exact h.accounts
  admitted := hcalls ▸ h.admitted
  named := hrefs ▸ h.named
  keyed := hkeyed

theorem mem_of_shaderRefs (h : Ledger b) (hg : b.glsl = true) (hx : x ∈ b.shaderRefs) :
    .shader x.name ∈ Registry.after 0 b.calls := by
  have hmem := h.mem_of_shader hx
  rwa [CompiledShader.object, hg] at hmem

theorem move (h : Ledger b) (hmove : Move P b b') : Ledger b' := by
  cases hmove with
  | say cs leaves refers =>
    obtain ⟨hadmits, hafter⟩ := Registry.admits_of_leaves leaves fun c hc x hx => by
      obtain ⟨p, hp, hx⟩ := refers c hc x hx
      exact h.mem_of_program hp hx
    exact h.of_calls hadmits rfl rfl (hafter.symm ▸ h.accounts) h.named h.keyed
  | remember shadows =>
    exact ⟨⟨h.accounts.shaderCounts, h.accounts.programCounts, h.accounts.balanced⟩, h.admitted,
      h.named, h.keyed⟩
  | collect =>
    obtain ⟨hadmits, hafter⟩ := admits_deletions b.glsl b.store.released h.accounts.queued_le
    exact h.of_calls hadmits rfl rfl (hafter.symm ▸ h.accounts.collect) h.named h.keyed
  | compile n stage code _ =>
    obtain ⟨hadmits, hafter⟩ := admits_sourceCalls b.glsl code stage n
    exact h.of_calls hadmits rfl rfl (hafter.symm ▸ h.accounts.addShader n stage code) h.named
      h.keyed
  | refuse n stage code =>
    obtain ⟨hadmits, hafter⟩ := admits_sourceCalls b.glsl code stage n
    obtain ⟨hadmits', hafter'⟩ := admits_refusalCalls b.glsl stage n
    refine h.of_calls (Registry.admits_append.mpr ⟨hadmits, hafter.symm ▸ hadmits'⟩) rfl rfl ?_
      h.named h.keyed
    rw [Registry.after_append, hafter, hafter']
    exact h.accounts
  | link p generation id_eq named held =>
    have hnamed : ∀ q ∈ p ::ₘ b.programRefs,
        q.names.vertex = nameOf q.vertex ∧ q.names.pixel = nameOf q.pixel :=
      fun q hq => (mem_cons.mp hq).elim (· ▸ named) (h.named q)
    have haccounts := h.accounts.addProgram id_eq held
    cases hg : b.glsl with
    | true =>
      obtain ⟨hadmits, hafter⟩ :=
        admits_createCalls p.names.program fun x hx => h.mem_of_shaderRefs hg (held x hx)
      rw [hg] at haccounts
      exact h.of_calls hadmits rfl (programRefs_of_cons rfl rfl rfl) (hafter.symm ▸ haccounts)
        hnamed h.keyed
    | false =>
      have hadmits : (Registry.after 0 b.calls).Admits [] := trivial
      rw [hg] at haccounts
      exact h.of_calls hadmits rfl (programRefs_of_cons rfl rfl rfl)
        ((zero_add _).subst haccounts) hnamed h.keyed
  | refuseLink n shaders glsl held =>
    obtain ⟨hadmits, hafter⟩ :=
      admits_createCalls n fun x hx => h.mem_of_shaderRefs glsl (held x hx)
    have hdelete := admits_deletion true (.program n) (singleton_le.mpr
      (mem_cons_self (program n) (Registry.after 0 b.calls)))
    refine h.of_calls (Registry.admits_append.mpr ⟨hadmits, hafter.symm ▸ hdelete.1⟩) rfl rfl ?_
      h.named h.keyed
    have hnone : Registry.after (.program n ::ₘ Registry.after 0 b.calls) [.deleteProgram n] =
        Registry.after 0 b.calls := hdelete.2.trans (by simp [Released.object?])
    rw [Registry.after_append, hafter, hnone]
    exact h.accounts
  | holdShader x held => exact ⟨h.accounts.holdShader held, h.admitted, h.named, h.keyed⟩
  | dropShader x held =>
    have haccounts := h.accounts
    rw [← cons_erase held] at haccounts
    exact ⟨haccounts.dropShader, h.admitted, h.named, h.keyed⟩
  | holdProgram p held =>
    have hadmits : (Registry.after 0 b.calls).Admits [] := trivial
    exact h.of_calls hadmits (List.append_nil _).symm (programRefs_of_cons rfl rfl rfl)
      (h.accounts.holdProgram held)
      (fun q hq => (mem_cons.mp hq).elim (· ▸ h.named p held) (h.named q)) h.keyed
  | dropProgram p held =>
    have hrefs : b.programRefs = p ::ₘ { b with programs := b.programs.erase p }.programRefs :=
      programRefs_of_cons (cons_erase held).symm rfl rfl
    have haccounts := h.accounts
    rw [hrefs] at haccounts
    refine ⟨haccounts.dropProgram, h.admitted, fun q hq => h.named q ?_, h.keyed⟩
    rw [hrefs]
    exact mem_cons_of_mem hq
  | keepPair p held =>
    refine h.of_refs rfl rfl rfl rfl (programRefs_keepPair held) fun e he => ?_
    rcases List.mem_append.mp he with he | he
    · exact h.keyed e he
    · rw [List.mem_singleton.mp he]
  | evict keep =>
    exact h.of_refs rfl rfl rfl rfl (programRefs_evict b keep)
      fun e he => h.keyed e (List.mem_of_mem_filter he)
  | rebind p held => exact h.of_refs rfl rfl rfl rfl (programRefs_rebind held) h.keyed

theorem reaches (h : Ledger b) (hreaches : Reaches b b') : Ledger b' := by
  induction hreaches with
  | refl => exact h
  | tail _ hmove ih => exact ih.move hmove

end Ledger

/-! ### What is referred to -/

/-- A shader that is referred to is an old one, or one with a code that has the property. A program
is an old one, or one with a new number. -/
structure Succeeds (P : LoweredShader → Prop) (b b' : Books) : Prop where
  size_le : b.store.programHolders.size ≤ b'.store.programHolders.size
  refs : ∀ q ∈ b'.programRefs, q ∈ b.programRefs ∨ b.store.programHolders.size ≤ q.id
  codes : ∀ x ∈ b'.shaderRefs, x ∈ b.shaderRefs ∨ P x.code

namespace Succeeds

variable {b b' b'' : Books}

theorem of_eq (hholders : b'.store.programHolders = b.store.programHolders)
    (hrefs : b'.programRefs = b.programRefs)
    (hshaders : ∀ x ∈ b'.shaders, x ∈ b.shaderRefs ∨ P x.code) : Succeeds P b b' :=
  ⟨hholders ▸ le_refl _, fun _ hq => Or.inl (hrefs ▸ hq), fun x hx =>
    (mem_add.mp hx).elim (hshaders x) fun hx => Or.inl (mem_add.mpr (Or.inr (hrefs ▸ hx)))⟩

/-- References to programs that come from those before refer to no new shader. -/
theorem of_refs (hsize : b.store.programHolders.size ≤ b'.store.programHolders.size)
    (hrefs : ∀ q ∈ b'.programRefs, q ∈ b.programRefs) (hshaders : b'.shaders = b.shaders) :
    Succeeds P b b' where
  size_le := hsize
  refs q hq := Or.inl (hrefs q hq)
  codes x hx := by
    refine Or.inl (mem_add.mpr ((mem_add.mp hx).imp (hshaders ▸ ·) fun hx => ?_))
    obtain ⟨q, hq, hx⟩ := mem_shadersOf.mp hx
    exact mem_shadersOf.mpr ⟨q, hrefs q hq, hx⟩

theorem trans (h : Succeeds P b b') (h' : Succeeds P b' b'') : Succeeds P b b'' where
  size_le := h.size_le.trans h'.size_le
  refs q hq := (h'.refs q hq).elim (h.refs q) fun hle => Or.inr (h.size_le.trans hle)
  codes x hx := (h'.codes x hx).elim (h.codes x) Or.inr

theorem of_move (hmove : Move P b b') : Succeeds P b b' := by
  have hheld : ∀ x ∈ b.shaders, x ∈ b.shaderRefs ∨ P x.code :=
    fun x hx => Or.inl (mem_add.mpr (Or.inl hx))
  cases hmove with
  | say | remember | collect | refuse | refuseLink => exact .of_eq rfl rfl hheld
  | compile n stage code fine =>
    exact .of_eq rfl rfl fun x hx => (mem_cons.mp hx).elim (fun h => Or.inr (h ▸ fine)) (hheld x)
  | link p generation id_eq named held =>
    have hid : p.id = b.store.programHolders.size := by simpa [Store.addProgram] using id_eq
    refine ⟨?_, fun q hq => ?_, fun x hx => ?_⟩
    · simp [Store.addProgram]
    · rcases eq_or_mem_of_cons (b := b) hq rfl rfl rfl with rfl | hq
      · exact Or.inr hid.ge
      · exact Or.inl hq
    · rcases mem_add.mp hx with hx | hx
      · exact hheld x hx
      · obtain ⟨q, hq, hxq⟩ := mem_shadersOf.mp hx
        rcases eq_or_mem_of_cons (b := b) hq rfl rfl rfl with rfl | hq
        · exact Or.inl (held x hxq)
        · exact Or.inl (mem_add.mpr (Or.inr (mem_shadersOf.mpr ⟨q, hq, hxq⟩)))
  | holdShader x held =>
    exact .of_eq rfl rfl fun y hy => (mem_cons.mp hy).elim (fun h => Or.inl (h ▸ held)) (hheld y)
  | dropShader x held =>
    exact .of_eq (Store.programHolders_dropShader _ x) rfl fun y hy => hheld y (mem_of_mem_erase hy)
  | holdProgram p held =>
    refine .of_refs (Array.size_modify ..).ge (fun q hq => ?_) rfl
    exact (eq_or_mem_of_cons (b := b) hq rfl rfl rfl).elim (· ▸ held) fun hq => hq
  | dropProgram p held =>
    refine .of_refs ?_ (fun q hq => ?_) rfl
    · rw [Store.programHolders_dropProgram, Array.size_modify]
    · have hrefs : b.programRefs = p ::ₘ { b with programs := b.programs.erase p }.programRefs :=
        programRefs_of_cons (cons_erase held).symm rfl rfl
      rw [hrefs]
      exact mem_cons_of_mem hq
  | keepPair p held => exact .of_eq rfl (programRefs_keepPair held) hheld
  | evict keep => exact .of_eq rfl (programRefs_evict b keep) hheld
  | rebind p held => exact .of_eq rfl (programRefs_rebind held) hheld

theorem of_proceeds (h : Proceeds P b b') : Succeeds P b b' := by
  induction h with
  | refl => exact .of_refs le_rfl (fun _ hq => hq) rfl
  | tail _ hmove ih => exact ih.trans (of_move hmove)

end Succeeds

/-- The number of a program is never given to another one. -/
theorem Reaches.eq_of_id_eq (hreaches : Reaches b b') (h : Ledger b) {q : LinkedProgram}
    (hp : p ∈ b.programRefs) (hq : q ∈ b'.programRefs) (hid : p.id = q.id) : p = q := by
  rcases (Succeeds.of_proceeds hreaches).refs q hq with hq | hle
  · exact h.accounts.programCounts.unique p hp q hq hid
  · exact absurd (h.accounts.programCounts.id_lt hp) (by omega)

end Books

end ShaderPipeline.Device
