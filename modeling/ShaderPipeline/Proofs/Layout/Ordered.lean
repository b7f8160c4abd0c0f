import Mathlib.Data.List.Basic
import Mathlib.Tactic.SplitIfs
import ShaderPipeline.Layout.Ordered

/-!
# Lists kept in order of a key

What is put into a list under a key is found there, everything else stays, and keys that increase go
on doing so.
-/

namespace ShaderPipeline

open List

variable {α β : Type} {n : Nat} {entries : List (Nat × β)}

def Increasing {α : Type} (key : α → Nat) (l : List α) : Prop :=
  l.Pairwise fun a b => key a < key b

theorem mem_putBy {key : α → Nat} {a b : α} {l : List α} (h : b ∈ putBy key a l) :
    b = a ∨ b ∈ l := by
  induction l with
  | nil => exact Or.inl (mem_singleton.mp h)
  | cons c rest ih =>
    rw [putBy] at h
    split_ifs at h
    · exact mem_cons.mp h
    · exact (mem_cons.mp h).imp_right (mem_cons_of_mem _)
    · rcases mem_cons.mp h with rfl | h
      · exact Or.inr mem_cons_self
      · exact (ih h).imp_right (mem_cons_of_mem _)

theorem Increasing.putBy {key : α → Nat} {l : List α} (h : Increasing key l) (a : α) :
    Increasing key (putBy key a l) := by
  induction l with
  | nil => exact pairwise_singleton _ _
  | cons b rest ih =>
    obtain ⟨hb, hrest⟩ := pairwise_cons.mp h
    rw [ShaderPipeline.putBy]
    split_ifs with hlt heq
    · refine pairwise_cons.mpr ⟨fun c hc => ?_, h⟩
      rcases mem_cons.mp hc with rfl | hc
      · exact hlt
      · exact Nat.lt_trans hlt (hb c hc)
    · exact pairwise_cons.mpr ⟨fun c hc => heq ▸ hb c hc, hrest⟩
    · refine pairwise_cons.mpr ⟨fun c hc => ?_, ih hrest⟩
      rcases mem_putBy hc with rfl | hc
      · omega
      · exact hb c hc

theorem Increasing.nodup_map {key : α → Nat} {l : List α} (h : Increasing key l) :
    (l.map key).Nodup :=
  pairwise_map.mpr (h.imp Nat.ne_of_lt)

/-- Where no number comes twice, an entry is found if it is in the list. -/
theorem lookup_eq_some_iff_of_nodup (h : (entries.map Prod.fst).Nodup) {b : β} :
    entries.lookup n = some b ↔ (n, b) ∈ entries := by
  induction entries with
  | nil => simp
  | cons e rest ih =>
    obtain ⟨he, hrest⟩ := nodup_cons.mp h
    rw [lookup_cons, mem_cons]
    by_cases hn : n = e.1
    · have hlater : (n, b) ∉ rest := fun hmem => he (mem_map.mpr ⟨_, hmem, hn⟩)
      simp [hn, Prod.ext_iff, eq_comm, hn ▸ hlater]
    · rw [beq_eq_false_iff_ne.mpr hn]
      simp [ih hrest, Prod.ext_iff, hn]

theorem Increasing.lookup_eq_some_iff (h : Increasing Prod.fst entries) {b : β} :
    entries.lookup n = some b ↔ (n, b) ∈ entries :=
  lookup_eq_some_iff_of_nodup h.nodup_map

/-- The order of entries does not matter. -/
theorem Increasing.lookup_reverse (h : Increasing Prod.fst entries) (n : Nat) :
    entries.reverse.lookup n = entries.lookup n := by
  have hreverse : (entries.reverse.map Prod.fst).Nodup := by
    rw [map_reverse]
    exact pairwise_reverse.mpr (h.nodup_map.imp Ne.symm)
  ext b
  rw [lookup_eq_some_iff_of_nodup hreverse, h.lookup_eq_some_iff, mem_reverse]

theorem mem_putNumber {m : Nat} {ns : List Nat} : n ∈ putNumber m ns ↔ m = n ∨ n ∈ ns := by
  refine ⟨fun h => (mem_putBy h).imp_left Eq.symm, fun h => ?_⟩
  unfold putNumber
  induction ns with
  | nil => simpa [putBy, eq_comm] using h
  | cons k rest ih =>
    rw [putBy]
    split_ifs with hlt heq
    · simpa [eq_comm] using h
    · obtain rfl : m = k := heq
      simpa [eq_comm] using h
    · rcases h with h | h
      · exact mem_cons_of_mem _ (ih (Or.inl h))
      · rcases mem_cons.mp h with rfl | h
        · exact mem_cons_self
        · exact mem_cons_of_mem _ (ih (Or.inr h))

theorem lookup_putAt (n k : Nat) (b : β) (entries : List (Nat × β)) :
    (putAt n b entries).lookup k = if k = n then some b else entries.lookup k := by
  unfold putAt
  induction entries with
  | nil => by_cases h : k = n <;> simp [putBy, lookup_cons, h, beq_eq_false_iff_ne.mpr]
  | cons e rest ih =>
    obtain ⟨m, c⟩ := e
    rw [putBy]
    dsimp only
    by_cases hk : k = n
    · subst hk
      rw [if_pos rfl] at ih ⊢
      split_ifs with hlt heq
      · simp
      · simp
      · simp [lookup_cons, ih, beq_eq_false_iff_ne.mpr heq]
    · have hn : (k == n) = false := beq_eq_false_iff_ne.mpr hk
      rw [if_neg hk] at ih ⊢
      split_ifs with hlt heq
      · simp [lookup_cons, hn]
      · simp [lookup_cons, hn, ← heq]
      · simp [lookup_cons, ih]

theorem isSome_lookup_putAt {k : Nat} {b : β} :
    ((putAt n b entries).lookup k).isSome ↔ (entries.lookup k).isSome ∨ k = n := by
  rw [lookup_putAt]
  split_ifs with h <;> simp [h]

end ShaderPipeline
