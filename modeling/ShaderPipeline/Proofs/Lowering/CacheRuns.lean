import ShaderPipeline.Lowering.Cache
import ShaderPipeline.Proofs.Text.Utf8

/-!
# Runs of a shader cache

A cache answers a request with what it keeps under the request's key. So an answer is the lowering
of some request with the same key, and the cache goes unnoticed exactly as long as no two requests
with one key have different lowerings. The key is a plain concatenation: it separates requests that
share their swizzles and sampler kinds and whose entry names have no zero character, but a sampler
kind and the bytes of a code can stand for each other.
-/

namespace ShaderPipeline

open List

variable {r : ShaderRequest} {steps : List CacheStep} {a : ShaderRequest × LoweredShader}

/-- A request for a lowered shader. -/
structure ShaderRequest where
  profile : Profile
  options : Options
  bytes : Bytes
  deriving DecidableEq

namespace ShaderRequest

def key (r : ShaderRequest) : List UInt8 := requestKey r.profile r.options r.bytes

def lowered (r : ShaderRequest) : LoweredShader := .ofBytes r.profile r.options r.bytes

end ShaderRequest

/-- What is done with a cache. -/
inductive CacheStep where
  | get (r : ShaderRequest)
  | clear

namespace ShaderCache

def answers (c : ShaderCache) : List CacheStep → List (ShaderRequest × LoweredShader)
  | [] => []
  | .get r :: rest =>
    let (_, s, c) := c.get r.profile r.options r.bytes
    (r, s) :: c.answers rest
  | .clear :: rest => c.clear.answers rest

/-- Every result that the cache holds is the lowering of a request in `R` with that key. -/
def Remembers (c : ShaderCache) (R : ShaderRequest → Prop) : Prop :=
  ∀ e ∈ c.entries, ∃ r, R r ∧ r.key = e.1 ∧ r.lowered = e.2

variable {c : ShaderCache} {R : ShaderRequest → Prop} (capacity : Nat)

theorem remembers_empty : (empty capacity).Remembers R := nofun

theorem remembers_clear : c.clear.Remembers R := nofun

theorem Remembers.promote (h : c.Remembers R) (hr : R r) :
    (c.promote r.key r.lowered).Remembers R := by
  intro e he
  rcases mem_cons.mp (mem_of_mem_take he) with rfl | he
  · exact ⟨r, hr, rfl, rfl⟩
  · exact h e (mem_filter.mp he).1

theorem Remembers.get (h : c.Remembers R) (hr : R r) :
    ∃ s, R s ∧ s.key = r.key ∧ (c.get r.profile r.options r.bytes).2.1 = s.lowered ∧
      (c.get r.profile r.options r.bytes).2.2 = c.promote s.key s.lowered := by
  unfold ShaderCache.get
  cases hfound : c.entries.lookup (requestKey r.profile r.options r.bytes) with
  | some shader =>
    obtain ⟨first, last, hentries, -⟩ := lookup_eq_some_iff.mp hfound
    obtain ⟨s, hs, hkey, hlowered⟩ := h (r.key, shader) (by rw [hentries]; simp [ShaderRequest.key])
    simp only [hfound]
    exact ⟨s, hs, hkey, hlowered.symm, by rw [hkey, hlowered]; rfl⟩
  | none =>
    simp only [hfound]
    exact ⟨r, hr, rfl, rfl, rfl⟩

theorem exists_lowered_of_mem_answers (h : c.Remembers R) (hsteps : ∀ r, .get r ∈ steps → R r)
    (ha : a ∈ c.answers steps) : R a.1 ∧ ∃ s, R s ∧ s.key = a.1.key ∧ a.2 = s.lowered := by
  induction steps generalizing c with
  | nil => exact nomatch ha
  | cons step steps ih =>
    have hrest : ∀ r, CacheStep.get r ∈ steps → R r := fun r hr =>
      hsteps r (mem_cons_of_mem _ hr)
    cases step with
    | clear => exact ih remembers_clear hrest ha
    | get r =>
      have hr : R r := hsteps r mem_cons_self
      obtain ⟨s, hs, hkey, hanswer, hcache⟩ := h.get hr
      rcases mem_cons.mp ha with rfl | ha
      · exact ⟨hr, s, hs, hkey, hanswer⟩
      · exact ih (hcache ▸ h.promote hs) hrest ha

/-- Requests with one key and one lowering never notice the cache. -/
theorem lowered_of_mem_answers (hkeys : ∀ r s, R r → R s → r.key = s.key → r.lowered = s.lowered)
    (h : c.Remembers R) (hsteps : ∀ r, .get r ∈ steps → R r) (ha : a ∈ c.answers steps) :
    a.2 = a.1.lowered := by
  obtain ⟨hr, s, hs, hkey, hanswer⟩ := exists_lowered_of_mem_answers h hsteps ha
  rw [hanswer, hkeys s a.1 hs hr hkey]

/-- The second of two requests with one key is answered with the lowering of the first. -/
theorem answers_pair {s : ShaderRequest} (hkey : r.key = s.key) (capacity : Nat) :
    (empty (capacity + 1)).answers [.get r, .get s] = [(r, r.lowered), (s, r.lowered)] := by
  have hfirst : (empty (capacity + 1)).get r.profile r.options r.bytes =
      (.lowered, r.lowered, ⟨capacity + 1, [(r.key, r.lowered)]⟩) := by
    simp only [ShaderCache.get, empty, lookup_nil, promote, filter_nil, take_succ_cons, take_nil]
    rfl
  have hlookup : lookup s.key [(r.key, r.lowered)] = some r.lowered := by
    rw [hkey, lookup_cons_self]
  have hsecond : (ShaderCache.get ⟨capacity + 1, [(r.key, r.lowered)]⟩ s.profile s.options
      s.bytes).2.1 = r.lowered := by
    unfold ShaderCache.get
    rw [show requestKey s.profile s.options s.bytes = s.key from rfl]
    simp [hlookup]
  simp [answers, hfirst, hsecond]

/-- The cache of a capacity answers every request of a run, all of them in `R`, as if it were not
there. -/
def Transparent (R : ShaderRequest → Prop) : Prop :=
  ∀ steps : List CacheStep, (∀ r, .get r ∈ steps → R r) →
    ∀ a ∈ (empty capacity).answers steps, a.2 = a.1.lowered

theorem transparent_of_keys (h : ∀ r s, R r → R s → r.key = s.key → r.lowered = s.lowered) :
    Transparent capacity R :=
  fun _ hsteps _ ha => lowered_of_mem_answers h (remembers_empty capacity) hsteps ha

theorem Transparent.lowered_eq {capacity : Nat} (h : Transparent (capacity + 1) R)
    {s : ShaderRequest} (hr : R r) (hs : R s) (hkey : r.key = s.key) : r.lowered = s.lowered := by
  have hsteps : ∀ t, CacheStep.get t ∈ [CacheStep.get r, .get s] → R t := by
    intro t ht
    simp only [mem_cons, CacheStep.get.injEq, not_mem_nil, or_false] at ht
    rcases ht with rfl | rfl
    · exact hr
    · exact hs
  refine h _ hsteps (s, r.lowered) ?_
  rw [answers_pair hkey]
  simp

end ShaderCache

/-! ### Keys -/

namespace ShaderRequest

/-- A stretch without zeros is told apart from what follows the zero behind it. -/
theorem append_zero_inj {xs ys as bs : List UInt8} (hxs : 0 ∉ xs) (hys : 0 ∉ ys)
    (h : xs ++ 0 :: as = ys ++ 0 :: bs) : xs = ys ∧ as = bs := by
  induction xs generalizing ys with
  | nil =>
    cases ys with
    | nil => exact ⟨rfl, (cons.inj h).2⟩
    | cons y ys =>
      obtain ⟨rfl, -⟩ := cons.inj h
      exact absurd mem_cons_self hys
  | cons x xs ih =>
    cases ys with
    | nil =>
      obtain ⟨rfl, -⟩ := cons.inj h
      exact absurd mem_cons_self hxs
    | cons y ys =>
      obtain ⟨rfl, htail⟩ := cons.inj h
      obtain ⟨rfl, rfl⟩ := ih (fun hx => hxs (mem_cons_of_mem _ hx))
        (fun hy => hys (mem_cons_of_mem _ hy)) htail
      exact ⟨rfl, rfl⟩

theorem zero_notMem_name (p : Profile) : 0 ∉ utf8Bytes p.name := by
  cases p <;> decide

theorem ofName?_name (p : Profile) : Profile.ofName? p.name = some p := by
  cases p <;> decide

theorem name_injective {p q : Profile} (h : p.name = q.name) : p = q :=
  Option.some.inj (by rw [← ofName?_name p, h, ofName?_name q])

/-- The key separates requests that share their swizzles and sampler kinds, if their entry names
have no zero byte. -/
theorem key_injective {s : ShaderRequest} (hswizzles : r.options.swizzles = s.options.swizzles)
    (hkinds : r.options.samplerKinds = s.options.samplerKinds)
    (hr : 0 ∉ utf8Bytes r.options.entry) (hs : 0 ∉ utf8Bytes s.options.entry)
    (hkey : r.key = s.key) : r = s := by
  obtain ⟨profile, ⟨entry, swizzles, kinds⟩, bytes⟩ := r
  obtain ⟨profile', ⟨entry', swizzles', kinds'⟩, bytes'⟩ := s
  obtain rfl : swizzles = swizzles' := hswizzles
  obtain rfl : kinds = kinds' := hkinds
  simp only [key, requestKey, append_assoc, singleton_append] at hkey
  obtain ⟨hname, hkey⟩ := append_zero_inj (zero_notMem_name _) (zero_notMem_name _) hkey
  obtain ⟨hentry, hkey⟩ := append_zero_inj hr hs hkey
  obtain rfl := name_injective (utf8Bytes_injective hname)
  obtain rfl := utf8Bytes_injective hentry
  have hbytes : bytes.toList = bytes'.toList := by simpa using hkey
  rw [Array.toList_inj.mp hbytes]

end ShaderRequest

/-- A vertex shader without instructions, with the kind of one sampler given. -/
def kindedRequest : ShaderRequest :=
  ⟨.glsl, ⟨"main", [], [(0, .flat)]⟩, #[0x00, 0x02, 0xFE, 0xFF, 0xFF, 0xFF, 0x00, 0x00]⟩

/-- The same bytes behind those of the sampler's kind, which is no shader. -/
def shiftedRequest : ShaderRequest :=
  ⟨.glsl, ⟨"main", [], []⟩, #[0, 0, 0, 0, 0] ++ kindedRequest.bytes⟩

end ShaderPipeline
