import ShaderPipeline.Proofs.Device.Holders
import ShaderPipeline.Proofs.Device.Refresh

/-!
# The driver's memory of uniforms

A driver of the shading language keeps, for each program, the words of its uniforms by place.
They are zero when the program is created, and the calls that set uniforms reach the program in
use. `UniformMemory.replay` gives the memory that a record of calls leaves.
-/

namespace ShaderPipeline.Device

open List Released

theorem foldl_eq_self {σ α : Type} {f : σ → α → σ} {s : σ} {as : List α}
    (h : ∀ a ∈ as, f s a = s) : as.foldl f s = s := by
  induction as with
  | nil => rfl
  | cons a as ih =>
    obtain ⟨hfirst, hrest⟩ := forall_mem_cons.mp h
    rw [foldl_cons, hfirst, ih hrest]

/-- The memory of a driver: the program in use, the programs that exist, and the words at each
place of a program. -/
structure UniformMemory where
  current : Nat
  live : List Nat
  cells : Nat → Int → Nat → UInt32

namespace UniformMemory

/-- Before any call. -/
def start : UniformMemory := ⟨0, [], fun _ _ _ => 0⟩

/-- Writes words to a place of the program in use, from its first cell on. -/
def write (m : UniformMemory) (location : Int) (words : List UInt32) : UniformMemory :=
  { m with
    cells := fun p l i =>
      if p = m.current ∧ l = location ∧ i < words.length then words.getD i 0 else m.cells p l i }

variable (m : UniformMemory)

/-- The memory after a call. -/
def step : Call → UniformMemory
  | .createProgram n =>
    { m with
      live := n :: m.live
      cells := fun p => if p = n then fun _ _ => 0 else m.cells p }
  | .deleteProgram n => { m with live := m.live.filter (· ≠ n) }
  | .useProgram n => { m with current := n }
  | .uniform1i l v => m.write l [v.toUInt32]
  | .uniform4fv l vs => m.write l (vs.map (·.bits))
  | .uniform4iv l vs => m.write l (vs.map (·.toUInt32))
  | .uniform1iv l vs => m.write l (vs.map (·.toUInt32))
  | _ => m

/-- The memory after calls. -/
def after (m : UniformMemory) (cs : List Call) : UniformMemory := cs.foldl step m

def replay (cs : List Call) : UniformMemory := start.after cs

@[simp] theorem after_nil : m.after [] = m := rfl

@[simp] theorem after_cons (c : Call) (cs : List Call) :
    m.after (c :: cs) = (m.step c).after cs := rfl

@[simp] theorem after_append (cs cs' : List Call) :
    m.after (cs ++ cs') = (m.after cs).after cs' := foldl_append

@[simp] theorem replay_append (cs cs' : List Call) :
    replay (cs ++ cs') = (replay cs).after cs' := after_append _ _ _

/-- A call that does not touch the memory. -/
def Silent (c : Call) : Prop := ∀ m : UniformMemory, m.step c = m

theorem after_of_silent {cs : List Call} (h : ∀ c ∈ cs, Silent c) (m : UniformMemory) :
    m.after cs = m :=
  foldl_eq_self fun c hc => h c hc m

/-! ### Calls that set uniforms -/

def written? : Call → Option (Int × List UInt32)
  | .uniform1i l v => some (l, [v.toUInt32])
  | .uniform4fv l vs => some (l, vs.map (·.bits))
  | .uniform4iv l vs => some (l, vs.map (·.toUInt32))
  | .uniform1iv l vs => some (l, vs.map (·.toUInt32))
  | _ => none

theorem step_of_written? {c : Call} {l : Int} {words : List UInt32}
    (h : written? c = some (l, words)) (m : UniformMemory) : m.step c = m.write l words := by
  cases c <;> simp only [written?, Option.some.injEq, Prod.mk.injEq, reduceCtorEq] at h <;>
    obtain ⟨rfl, rfl⟩ := h <;> rfl

def Sets (place : Int → Prop) (cs : List Call) : Prop :=
  ∀ c ∈ cs, ∃ l words, written? c = some (l, words) ∧ place l

theorem Sets.after {place : Int → Prop} {cs : List Call} (h : Sets place cs) (m : UniformMemory) :
    (m.after cs).current = m.current ∧ (m.after cs).live = m.live ∧
      ∀ p l i, (p = m.current → ¬place l) → (m.after cs).cells p l i = m.cells p l i := by
  induction cs generalizing m with
  | nil => exact ⟨rfl, rfl, fun _ _ _ _ => rfl⟩
  | cons c cs ih =>
    obtain ⟨⟨l', words, hc, hl'⟩, hrest⟩ := forall_mem_cons.mp h
    rw [after_cons, step_of_written? hc]
    obtain ⟨hcurrent, hlive, hcells⟩ := ih hrest (m.write l' words)
    refine ⟨hcurrent, hlive, fun p l i hp => ?_⟩
    rw [hcells p l i hp]
    refine if_neg ?_
    rintro ⟨rfl, rfl, -⟩
    exact hp rfl hl'

end UniformMemory

/-- No program is created under the name of one that has not been deleted. -/
def FreshPrograms (cs : List Call) : Prop :=
  ∀ before n after, cs = before ++ .createProgram n :: after →
    n ∉ (UniformMemory.replay before).live

def UniformMemory.freshFrom (m : UniformMemory) : List Call → Bool
  | [] => true
  | .createProgram n :: cs => !m.live.contains n && (m.step (.createProgram n)).freshFrom cs
  | c :: cs => (m.step c).freshFrom cs

theorem UniformMemory.freshFrom_iff (m : UniformMemory) (cs : List Call) :
    m.freshFrom cs = true ↔ ∀ before n after, cs = before ++ .createProgram n :: after →
      n ∉ (m.after before).live := by
  induction cs generalizing m with
  | nil => simp [freshFrom]
  | cons c cs ih =>
    have hhead : m.freshFrom (c :: cs) = true ↔
        (∀ n, c = .createProgram n → n ∉ m.live) ∧ (m.step c).freshFrom cs = true := by
      cases c <;> simp [freshFrom]
    rw [hhead, ih]
    constructor
    · rintro ⟨hfirst, hrest⟩ before n after heq
      cases before with
      | nil => exact hfirst n (cons.inj heq).1
      | cons b before =>
        obtain ⟨rfl, htail⟩ := cons.inj heq
        exact hrest before n after htail
    · intro hall
      refine ⟨fun n hc => hall [] n cs (by rw [hc]; rfl), fun before n after heq => ?_⟩
      exact hall (c :: before) n after (by rw [heq]; rfl)

instance (cs : List Call) : Decidable (FreshPrograms cs) :=
  decidable_of_iff _ (UniformMemory.start.freshFrom_iff cs)

theorem FreshPrograms.of_append {cs cs' : List Call} (h : FreshPrograms (cs ++ cs')) :
    FreshPrograms cs := by
  rintro before n after rfl
  exact h before n (after ++ cs') (by simp)

theorem FreshPrograms.not_live {cs cs' : List Call} {n : Nat}
    (h : FreshPrograms (cs ++ .createProgram n :: cs')) :
    n ∉ (UniformMemory.replay cs).live :=
  h cs n cs' rfl

/-! ### Names of programs -/

/-- The programs referred to have names of their own, which the driver knows and is not about to
forget. -/
structure Named (m : UniformMemory) (released : List Released) (refs : List LinkedProgram) :
    Prop where
  live : ∀ p ∈ refs, p.names.program ∈ m.live
  apart : ∀ p ∈ refs, ∀ q ∈ refs, p.names.program = q.names.program → p.id = q.id
  kept : ∀ p ∈ refs, program p.names.program ∉ released
  queued : ∀ n, program n ∈ released → n ∈ m.live

namespace Named

variable {m m' : UniformMemory} {released released' : List Released}
  {refs refs' : List LinkedProgram} {p : LinkedProgram}

theorem of_live (h : Named m released refs) (hm : m'.live = m.live) : Named m' released refs :=
  ⟨fun p hp => hm ▸ h.live p hp, h.apart, h.kept, fun n hn => hm ▸ h.queued n hn⟩

theorem of_subset (h : Named m released refs) (hsub : refs' ⊆ refs) : Named m released refs' :=
  ⟨fun p hp => h.live p (hsub hp), fun p hp q hq => h.apart p (hsub hp) q (hsub hq),
    fun p hp => h.kept p (hsub hp), h.queued⟩

theorem of_released (h : Named m released refs)
    (hr : ∀ n, program n ∈ released' ↔ program n ∈ released) :
    Named m released' refs :=
  ⟨h.live, h.apart, fun p hp hn => h.kept p hp ((hr _).mp hn),
    fun n hn => h.queued n ((hr n).mp hn)⟩

theorem drop {s : Store} (h : Named m s.released (p :: refs)) (hc : s.Counts (p :: refs)) :
    Named m (s.dropProgram p).released refs where
  live q hq := h.live q (mem_cons_of_mem _ hq)
  apart q hq q' hq' := h.apart q (mem_cons_of_mem _ hq) q' (mem_cons_of_mem _ hq')
  kept q hq hn := by
    rcases s.mem_released_dropProgram.mp hn with hn | ⟨hone, hname⟩
    · exact h.kept q (mem_cons_of_mem _ hq) hn
    · exact hc.ne_of_last hone hq
        (h.apart q (mem_cons_of_mem _ hq) p mem_cons_self hname)
  queued n hn := by
    rcases s.mem_released_dropProgram.mp hn with hn | ⟨-, rfl⟩
    · exact h.queued n hn
    · exact h.live p mem_cons_self

/-- A program that was deleted right away takes no name with it. -/
theorem delete (h : Named m released refs) {n : Nat} (hn : n ∉ m.live) :
    Named ((m.step (.createProgram n)).step (.deleteProgram n)) released refs := by
  have hmem : ∀ k ∈ m.live, k ∈ ((m.step (.createProgram n)).step (.deleteProgram n)).live := by
    intro k hk
    have hne : k ≠ n := fun hkn => hn (hkn ▸ hk)
    simp [UniformMemory.step, hk, hne]
  exact ⟨fun p hp => hmem _ (h.live p hp), h.apart, h.kept, fun k hk => hmem k (h.queued k hk)⟩

theorem add (h : Named m released refs) (hlive : p.names.program ∉ m.live) :
    Named (m.step (.createProgram p.names.program)) released (p :: refs) where
  live q hq := by
    rcases mem_cons.mp hq with rfl | hq
    · exact mem_cons_self
    · exact mem_cons_of_mem _ (h.live q hq)
  apart q hq q' hq' hname := by
    rcases mem_cons.mp hq with rfl | hold <;> rcases mem_cons.mp hq' with rfl | hold'
    · rfl
    · exact absurd (hname ▸ h.live q' hold') hlive
    · exact absurd (hname ▸ h.live q hold) hlive
    · exact h.apart q hold q' hold' hname
  kept q hq hn := by
    rcases mem_cons.mp hq with rfl | hq
    · exact hlive (h.queued _ hn)
    · exact h.kept q hq hn
  queued k hk := mem_cons_of_mem _ (h.queued k hk)

end Named

/-! ### Collecting -/

/-- Deleting objects changes no uniform and leaves the names that were not released. -/
theorem after_deletions (rs : List Released) (m : UniformMemory) :
    (m.after (deletions true rs)).current = m.current ∧
      (m.after (deletions true rs)).cells = m.cells ∧
      ∀ n, n ∈ (m.after (deletions true rs)).live ↔ n ∈ m.live ∧ program n ∉ rs := by
  induction rs generalizing m with
  | nil => exact ⟨rfl, rfl, fun n => by simp [deletions]⟩
  | cons r rest ih =>
    cases r with
    | shader k =>
      have hstep : m.after (deletions true (.shader k :: rest)) =
          m.after (deletions true rest) := by
        simp [deletions, UniformMemory.step]
      rw [hstep]
      obtain ⟨hcurrent, hcells, hlive⟩ := ih m
      exact ⟨hcurrent, hcells, fun n => by simp [hlive]⟩
    | program k =>
      have hstep : m.after (deletions true (.program k :: rest)) =
          (m.step (.deleteProgram k)).after (deletions true rest) := by
        simp [deletions]
      rw [hstep]
      obtain ⟨hcurrent, hcells, hlive⟩ := ih (m.step (.deleteProgram k))
      refine ⟨hcurrent, hcells, fun n => ?_⟩
      rw [hlive]
      simp [UniformMemory.step, program.injEq, and_assoc]

theorem Named.collect {m : UniformMemory} {released : List Released} {refs : List LinkedProgram}
    (h : Named m released refs) : Named (m.after (deletions true released)) [] refs :=
  ⟨fun p hp => ((after_deletions released m).2.2 _).mpr ⟨h.live p hp, h.kept p hp⟩, h.apart,
    fun _ _ => not_mem_nil, nofun⟩

end ShaderPipeline.Device
