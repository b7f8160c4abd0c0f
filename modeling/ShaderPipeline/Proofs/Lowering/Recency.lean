import ShaderPipeline.Proofs.Lowering.CacheRuns

/-!
# What a cache remembers

A cache keeps the keys that were asked for last: as many different ones as it has room for, each
once, the latest first. A request is answered from memory exactly if its key is among them.
-/

namespace ShaderPipeline

open List

/-! ### Different keys, the latest first -/

section

variable {α : Type} [BEq α] (k : α)

theorem eraseDups_cons_ne (ks : List α) :
    (k :: ks).eraseDups = k :: (ks.filter (· != k)).eraseDups := eraseDups_cons

theorem length_filter_ne_lt (ks : List α) : (ks.filter (· != k)).length < (k :: ks).length :=
  Nat.lt_succ_of_le (length_filter_le _ _)

variable [LawfulBEq α]

theorem nodup_eraseDups (ks : List α) : ks.eraseDups.Nodup := by
  match ks with
  | [] => exact nodup_nil
  | a :: ks =>
    have hlength := length_filter_ne_lt a ks
    rw [eraseDups_cons_ne, nodup_cons]
    exact ⟨by simp [mem_eraseDups], nodup_eraseDups (ks.filter (· != a))⟩
termination_by ks.length
decreasing_by exact hlength

theorem eraseDups_filter_ne (ks : List α) :
    (ks.filter (· != k)).eraseDups = ks.eraseDups.filter (· != k) := by
  match ks with
  | [] => rfl
  | a :: ks =>
    have hlength := length_filter_ne_lt a ks
    have ih := eraseDups_filter_ne (ks.filter (· != a))
    rw [eraseDups_cons_ne, filter_cons, filter_cons]
    by_cases ha : a = k
    · subst ha
      simpa [filter_filter] using ih
    · simpa [ha, eraseDups_cons_ne, filter_filter, Bool.and_comm] using ih
termination_by ks.length
decreasing_by exact hlength

/-- Without a key, the first of many different ones are among the first and one more. -/
theorem take_filter_ne_take {ks : List α} (h : ks.Nodup) (n : Nat) :
    ((ks.take (n + 1)).filter (· != k)).take n = (ks.filter (· != k)).take n := by
  induction ks generalizing n with
  | nil => rfl
  | cons a ks ih =>
    obtain ⟨hnot, hks⟩ := nodup_cons.mp h
    rw [take_succ_cons, filter_cons, filter_cons]
    by_cases ha : a = k
    · have hself : ∀ l : List α, l ⊆ ks → l.filter (· != k) = l := fun l hl =>
        filter_eq_self.mpr fun b hb => bne_iff_ne.mpr fun hbk => hnot (ha ▸ hbk ▸ hl hb)
      simp only [ha, bne_self_eq_false, Bool.false_eq_true, if_false]
      rw [hself _ (take_subset _ _), hself _ (List.Subset.refl _), take_take, Nat.min_self]
    · cases n with
      | zero => simp
      | succ n => simp [ha, ih hks n]

end

namespace ShaderCache

/-- The cache after a step. -/
def step (c : ShaderCache) : CacheStep → ShaderCache
  | .get r => (c.get r.profile r.options r.bytes).2.2
  | .clear => c.clear

def run (c : ShaderCache) (steps : List CacheStep) : ShaderCache := steps.foldl step c

/-- The keys asked for since the cache was last cleared, the latest first, and those before. -/
def asked (before : List (List UInt8)) : List CacheStep → List (List UInt8)
  | [] => before
  | .get r :: rest => asked (r.key :: before) rest
  | .clear :: rest => asked [] rest

def keys (c : ShaderCache) : List (List UInt8) := c.entries.map Prod.fst

/-- The keys of a cache are the latest different ones of those asked for. -/
structure Recalls (c : ShaderCache) (n : Nat) (ks : List (List UInt8)) : Prop where
  capacity : c.capacity = n
  keys : c.keys = ks.eraseDups.take n

variable {c : ShaderCache} {n : Nat} {ks : List (List UInt8)} {r : ShaderRequest}

theorem recalls_empty (n : Nat) : (empty n).Recalls n [] := ⟨rfl, take_nil.symm⟩

theorem keys_promote (key : List UInt8) (s : LoweredShader) :
    (c.promote key s).keys = (key :: c.keys.filter (· != key)).take c.capacity := by
  rw [keys, promote, map_take, map_cons, keys, filter_map]
  rfl

theorem exists_get_eq_promote (c : ShaderCache) (r : ShaderRequest) :
    ∃ s, c.get r.profile r.options r.bytes =
      (if r.key ∈ c.keys then .memory else .lowered, s, c.promote r.key s) := by
  unfold ShaderCache.get
  cases hfound : c.entries.lookup (requestKey r.profile r.options r.bytes) with
  | some s =>
    obtain ⟨first, last, hentries, -⟩ := lookup_eq_some_iff.mp hfound
    have hmem : r.key ∈ c.keys := by simp [keys, hentries, ShaderRequest.key]
    exact ⟨s, by simp only [hfound, if_pos hmem]; rfl⟩
  | none =>
    have hmem : r.key ∉ c.keys := by
      intro h
      obtain ⟨e, he, hkey⟩ := mem_map.mp h
      exact bne_iff_ne.mp (lookup_eq_none_iff.mp hfound e he) hkey.symm
    exact ⟨_, by simp only [hfound, if_neg hmem]; rfl⟩

theorem Recalls.step (h : c.Recalls n ks) (r : ShaderRequest) :
    (c.step (.get r)).Recalls n (r.key :: ks) := by
  obtain ⟨s, hget⟩ := exists_get_eq_promote c r
  rw [ShaderCache.step, hget]
  refine ⟨h.capacity, ?_⟩
  rw [keys_promote, h.keys, h.capacity, eraseDups_cons_ne]
  cases n with
  | zero => rfl
  | succ n =>
    rw [take_succ_cons, take_succ_cons, take_filter_ne_take _ (nodup_eraseDups ks),
      ← eraseDups_filter_ne]

theorem Recalls.run (h : c.Recalls n ks) (steps : List CacheStep) :
    (c.run steps).Recalls n (asked ks steps) := by
  induction steps generalizing c ks with
  | nil => exact h
  | cons s steps ih =>
    cases s with
    | get r => exact ih (h.step r)
    | clear => exact ih ⟨h.capacity, take_nil.symm⟩

end ShaderCache

end ShaderPipeline
