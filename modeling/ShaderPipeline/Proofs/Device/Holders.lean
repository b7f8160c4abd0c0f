import ShaderPipeline.Proofs.Device.Client

/-!
# Holders of objects

The store counts how often an object is held. `Counted id holders refs` says that counts are right
for some references, and that a number belongs to one object. Holding an object once more adds a
reference, letting go removes one. `Store.Counts s refs` says so of the programs of a store; the
last reference to a program that goes releases the program's name.
-/

namespace ShaderPipeline.Device

open Multiset Released Array

/-- Each number is counted as often as there are references to the object with that number, and
belongs to one object. -/
structure Counted {α : Type} (id : α → Nat) (holders : Array Nat) (refs : Multiset α) : Prop where
  counted : ∀ i, (holders[i]?).getD 0 = refs.countP (id · = i)
  unique : ∀ a ∈ refs, ∀ b ∈ refs, id a = id b → a = b

namespace Counted

variable {α : Type} {id : α → Nat} {holders : Array Nat} {refs : Multiset α} {a b : α}

theorem id_lt (h : Counted id holders refs) (ha : a ∈ refs) : id a < holders.size := by
  by_contra hge
  have hcount := h.counted (id a)
  have hpos : 0 < refs.countP (id · = id a) := countP_pos.mpr ⟨a, ha, rfl⟩
  rw [getElem?_eq_none (by omega), Option.getD_none] at hcount
  omega

theorem hold (h : Counted id holders refs) (ha : a ∈ refs) :
    Counted id (holders.modify (id a) (· + 1)) (a ::ₘ refs) where
  counted i := by
    have hlt := h.id_lt ha
    rw [getElem?_modify, countP_cons, ← h.counted]
    by_cases hi : id a = i
    · subst hi
      simp [getElem?_eq_getElem hlt]
    · simp [hi]
  unique x hx y hy := by
    rw [mem_cons] at hx hy
    exact h.unique x (hx.elim (· ▸ ha) fun hx => hx) y (hy.elim (· ▸ ha) fun hy => hy)

theorem drop (h : Counted id holders (a ::ₘ refs)) :
    Counted id (holders.modify (id a) (· - 1)) refs where
  counted i := by
    have hcount := h.counted i
    rw [countP_cons] at hcount
    rw [getElem?_modify]
    by_cases hi : id a = i
    · subst hi
      rw [if_pos rfl] at hcount ⊢
      cases hh : holders[id a]? with
      | none => simp [hh] at hcount
      | some n => simp only [hh, Option.getD_some, Option.map_some] at hcount ⊢; omega
    · simpa [hi] using hcount
  unique x hx y hy := h.unique x (mem_cons_of_mem hx) y (mem_cons_of_mem hy)

/-- A reference is the last one if the object is held once. -/
theorem last_iff (h : Counted id holders (a ::ₘ refs)) : holders[id a]? = some 1 ↔ a ∉ refs := by
  have hlt := h.id_lt (mem_cons_self a refs)
  have hcount := h.counted (id a)
  rw [countP_cons, if_pos rfl, getElem?_eq_getElem hlt, Option.getD_some] at hcount
  have hnone : refs.countP (id · = id a) = 0 ↔ a ∉ refs := by
    rw [Multiset.countP_eq_zero]
    refine ⟨fun hall ha => hall a ha rfl, fun ha b hb hid => ha ?_⟩
    exact h.unique b (mem_cons_of_mem hb) a (mem_cons_self a refs) hid ▸ hb
  rw [getElem?_eq_getElem hlt, Option.some_inj, ← hnone]
  omega

theorem push (h : Counted id holders refs) (ha : id a = holders.size) :
    Counted id (holders.push 1) (a ::ₘ refs) where
  counted i := by
    have hcount := h.counted i
    rw [getElem?_push, countP_cons, ha]
    by_cases hi : i = holders.size
    · subst hi
      rw [getElem?_eq_none (le_refl _)] at hcount
      simp [← hcount]
    · simp [hi, Ne.symm hi, hcount]
  unique x hx y hy hxy := by
    rcases mem_cons.mp hx with rfl | hx' <;> rcases mem_cons.mp hy with rfl | hy'
    · rfl
    · exact absurd (hxy.symm.trans ha) (h.id_lt hy').ne
    · exact absurd (hxy.trans ha) (h.id_lt hx').ne
    · exact h.unique x hx' y hy' hxy

end Counted

namespace Store

/-- The store counts the references to each program. -/
structure Counts (s : Store) (refs : List LinkedProgram) : Prop where
  counted : ∀ i, (s.programHolders[i]?).getD 0 = refs.countP (·.id = i)
  unique : ∀ p ∈ refs, ∀ q ∈ refs, p.id = q.id → p = q

section Fields

variable (s : Store) (x : Option CompiledShader)

@[simp] theorem programHolders_release (r : Released) :
    (s.release r).programHolders = s.programHolders := rfl

@[simp] theorem programHolders_dropShader (x : CompiledShader) :
    (s.dropShader x).programHolders = s.programHolders := by
  unfold dropShader
  split_ifs <;> rfl

@[simp] theorem shadows_dropShader (x : CompiledShader) : (s.dropShader x).shadows = s.shadows := by
  unfold dropShader
  split_ifs <;> rfl

@[simp] theorem programHolders_dropShader? :
    (s.dropShader? x).programHolders = s.programHolders := by
  cases x <;> simp [dropShader?]

@[simp] theorem shadows_dropShader? : (s.dropShader? x).shadows = s.shadows := by
  cases x <;> simp [dropShader?]

@[simp] theorem programHolders_holdShader? :
    (s.holdShader? x).programHolders = s.programHolders := by
  cases x <;> rfl

@[simp] theorem shadows_holdShader? : (s.holdShader? x).shadows = s.shadows := by
  cases x <;> rfl

@[simp] theorem released_holdShader? : (s.holdShader? x).released = s.released := by
  cases x <;> rfl

theorem mem_released_dropShader {x : CompiledShader} {n : Nat} :
    program n ∈ (s.dropShader x).released ↔ program n ∈ s.released := by
  unfold dropShader
  split_ifs <;> simp [release]

theorem mem_released_dropShader? {x : Option CompiledShader} {n : Nat} :
    program n ∈ (s.dropShader? x).released ↔ program n ∈ s.released := by
  cases x with
  | none => rfl
  | some x => exact mem_released_dropShader s

@[simp] theorem programHolders_dropProgram (p : LinkedProgram) :
    (s.dropProgram p).programHolders = s.programHolders.modify p.id (· - 1) := by
  unfold dropProgram
  split_ifs <;> simp

@[simp] theorem shadows_dropProgram (p : LinkedProgram) :
    (s.dropProgram p).shadows = s.shadows := by
  unfold dropProgram
  split_ifs <;> simp [release]

/-- Letting go of a program releases its name exactly if there is no other holder. -/
theorem mem_released_dropProgram {p : LinkedProgram} {n : Nat} :
    program n ∈ (s.dropProgram p).released ↔
      program n ∈ s.released ∨
        (s.programHolders[p.id]? = some 1 ∧ n = p.names.program) := by
  unfold dropProgram
  split_ifs with h
  · rw [mem_released_dropShader?, mem_released_dropShader?]
    simp [release, h]
  · simp [h]

end Fields

variable {s s' : Store} {refs refs' : List LinkedProgram} {p q : LinkedProgram}

namespace Counts

theorem of_eq (h : s.Counts refs) (hs : s'.programHolders = s.programHolders) : s'.Counts refs :=
  ⟨fun i => by rw [hs, h.counted], h.unique⟩

theorem perm (h : s.Counts refs) (hp : refs.Perm refs') : s.Counts refs' :=
  ⟨fun i => by rw [h.counted, hp.countP_eq],
    fun p hp' q hq => h.unique p (hp.mem_iff.mpr hp') q (hp.mem_iff.mpr hq)⟩

theorem toCounted (h : s.Counts refs) : Counted LinkedProgram.id s.programHolders ↑refs :=
  ⟨h.counted, h.unique⟩

theorem of_counted (h : Counted LinkedProgram.id s.programHolders ↑refs) : s.Counts refs :=
  ⟨h.counted, h.unique⟩

theorem id_lt (h : s.Counts refs) (hp : p ∈ refs) : p.id < s.programHolders.size :=
  h.toCounted.id_lt hp

theorem hold (h : s.Counts refs) (hp : p ∈ refs) : (s.holdProgram p).Counts (p :: refs) :=
  of_counted (h.toCounted.hold hp)

theorem drop (h : s.Counts (p :: refs)) : (s.dropProgram p).Counts refs := by
  refine of_counted ?_
  rw [programHolders_dropProgram]
  exact h.toCounted.drop

/-- When a program is held once, no other reference is to it. -/
theorem ne_of_last (h : s.Counts (p :: refs)) (hone : s.programHolders[p.id]? = some 1)
    (hq : q ∈ refs) : q.id ≠ p.id := by
  intro hid
  have hcounted : Counted LinkedProgram.id s.programHolders (p ::ₘ ↑refs) := h.toCounted
  have hp : p ∉ refs := hcounted.last_iff.mp hone
  exact hp (h.unique q (List.mem_cons_of_mem p hq) p List.mem_cons_self hid ▸ hq)

theorem add (h : s.Counts refs) {vertex pixel : Option CompiledShader} {g : UInt64}
    (hp : p.id = (s.addProgram vertex pixel g).1) :
    (s.addProgram vertex pixel g).2.Counts (p :: refs) := by
  have hid : p.id = s.programHolders.size := by simpa [addProgram] using hp
  refine of_counted ?_
  simp only [addProgram, programHolders_holdShader?]
  exact h.toCounted.push hid

end Counts

end Store

end ShaderPipeline.Device
