import Mathlib.Data.List.Basic
import Mathlib.Data.List.Nodup
import Mathlib.Tactic.SplitIfs
import ShaderPipeline.Layout.FlowControl

/-!
# Nesting of flow control

Blocks nest like brackets. `Nested` is the grammar of the instructions at one level, and
`FlowState.step` is a stack machine that follows the open blocks. A list of instructions leads the
machine from some open blocks to none, without a complaint (`Fitting`), if and only if it completes
these blocks one by one (`Completes`).

A condition may be divided by more than one `else`: the machine does not notice. The grammar has
the numbers of `else` that are allowed as a parameter, and `countElse` counts them.
-/

namespace ShaderPipeline

open List FlowState

variable {allowed : Nat → Prop} {level elses : Nat} {looping : Bool} {is : List Instruction}
  {b : Block} {i : Instruction} {blocks : List Block}

/-- What an instruction does to the open blocks. -/
inductive FlowRole where
  | plain
  | opens (b : Block)
  /-- Starts the other part of a condition. -/
  | divides
  | closes (b : Block)
  /-- Leaves a loop or repetition. -/
  | leaves
  /-- Starts a subroutine. -/
  | label
  deriving DecidableEq, Repr

def Opcode.flowRole : Opcode → FlowRole
  | .ifBool | .ifCompare => .opens .condition
  | .loop => .opens .loop
  | .rep => .opens .repetition
  | .orElse => .divides
  | .endIf => .closes .condition
  | .endLoop => .closes .loop
  | .endRep => .closes .repetition
  | .breakAlways | .breakCompare | .breakPredicate => .leaves
  | .label => .label
  | _ => .plain

def Instruction.flowRole (i : Instruction) : FlowRole := i.opcode.flowRole

/-! ### The grammar -/

/-- Instructions at a level of nesting, inside of a loop or repetition or not, of which `elses`
divide the block they stand in. A condition may be divided as often as is allowed, and a loop or
repetition not at all. Labels stand at level zero. -/
inductive Nested (allowed : Nat → Prop) :
    (level : Nat) → (looping : Bool) → (elses : Nat) → List Instruction → Prop
  | nil {level : Nat} {looping : Bool} : Nested allowed level looping 0 []
  | plain {level elses : Nat} {looping : Bool} {i : Instruction} {rest : List Instruction}
      (hi : i.flowRole = .plain) (hrest : Nested allowed level looping elses rest) :
      Nested allowed level looping elses (i :: rest)
  | leave {level elses : Nat} {i : Instruction} {rest : List Instruction}
      (hi : i.flowRole = .leaves) (hrest : Nested allowed level true elses rest) :
      Nested allowed level true elses (i :: rest)
  | label {elses : Nat} {looping : Bool} {i : Instruction} {rest : List Instruction}
      (hi : i.flowRole = .label) (hrest : Nested allowed 0 looping elses rest) :
      Nested allowed 0 looping elses (i :: rest)
  | divide {level elses : Nat} {looping : Bool} {i : Instruction} {rest : List Instruction}
      (hi : i.flowRole = .divides) (hrest : Nested allowed level looping elses rest) :
      Nested allowed level looping (elses + 1) (i :: rest)
  | condition {level elses n : Nat} {looping : Bool} {i j : Instruction}
      {body rest : List Instruction} (hi : i.flowRole = .opens .condition)
      (hj : j.flowRole = .closes .condition) (hlevel : level < maxDepth)
      (hn : allowed n) (hbody : Nested allowed (level + 1) looping n body)
      (hrest : Nested allowed level looping elses rest) :
      Nested allowed level looping elses (i :: (body ++ j :: rest))
  | repetition {level elses : Nat} {looping : Bool} {b : Block} {i j : Instruction}
      {body rest : List Instruction} (hb : b ≠ .condition) (hi : i.flowRole = .opens b)
      (hj : j.flowRole = .closes b) (hlevel : level < maxDepth)
      (hbody : Nested allowed (level + 1) true 0 body)
      (hrest : Nested allowed level looping elses rest) :
      Nested allowed level looping elses (i :: (body ++ j :: rest))

theorem Nested.mono {allowed' : Nat → Prop} (h : ∀ n, allowed n → allowed' n)
    (hnested : Nested allowed level looping elses is) : Nested allowed' level looping elses is := by
  induction hnested with
  | nil => exact .nil
  | plain hi _ ih => exact .plain hi ih
  | leave hi _ ih => exact .leave hi ih
  | label hi _ ih => exact .label hi ih
  | divide hi _ ih => exact .divide hi ih
  | condition hi hj hlevel hn _ _ ihbody ihrest =>
    exact .condition hi hj hlevel (h _ hn) ihbody ihrest
  | repetition hb hi hj hlevel _ _ ihbody ihrest =>
    exact .repetition hb hi hj hlevel ihbody ihrest

/-! ### The stack machine -/

def repeats (blocks : List Block) : Bool := blocks.any (· != .condition)

@[simp] theorem repeats_condition (blocks : List Block) :
    repeats (.condition :: blocks) = repeats blocks := rfl

theorem repeats_cons_of_ne (hb : b ≠ .condition) (blocks : List Block) :
    repeats (b :: blocks) = true := by
  simp [repeats, hb]

/-- The blocks that are open after an instruction. -/
def openedBy (i : Instruction) (blocks : List Block) : List Block :=
  match i.flowRole with
  | .opens b => b :: blocks
  | .closes _ => blocks.tail
  | _ => blocks

def Fits (i : Instruction) (blocks : List Block) : Prop :=
  match i.flowRole with
  | .plain => True
  | .opens _ => blocks.length < maxDepth
  | .divides => blocks.head? = some .condition
  | .closes b => blocks.head? = some b
  | .leaves => repeats blocks = true
  | .label => blocks = []

/-- Every instruction fits where it stands, and no block is left open. -/
def Fitting : List Instruction → List Block → Prop
  | [], blocks => blocks = []
  | i :: rest, blocks => Fits i blocks ∧ Fitting rest (openedBy i blocks)

/-- An instruction that fits does not nest too deeply. -/
theorem Fits.length_le (h : Fits i blocks) (hdepth : blocks.length ≤ maxDepth) :
    (openedBy i blocks).length ≤ maxDepth := by
  unfold Fits at h
  unfold openedBy
  cases hi : i.flowRole with
  | opens b =>
    rw [hi] at h
    exact h
  | closes b =>
    rw [length_tail]
    omega
  | plain | divides | leaves | label => exact hdepth

/-- Instructions that complete the open blocks, the innermost first, and go on outside of them. -/
def Completes (allowed : Nat → Prop) : List Block → List Instruction → Prop
  | [], is => Nested allowed 0 false 0 is
  | b :: blocks, is => ∃ elses body j rest, is = body ++ j :: rest ∧ j.flowRole = .closes b ∧
      (if b = .condition then allowed elses else elses = 0) ∧
      Nested allowed (blocks.length + 1) (repeats (b :: blocks)) elses body ∧
      Completes allowed blocks rest

section Completes

variable {allowed : Nat → Prop} {blocks : List Block} {is : List Instruction}

theorem Completes.prepend (first : List Instruction)
    (hfirst : ∀ {elses : Nat} {body : List Instruction},
      Nested allowed blocks.length (repeats blocks) elses body →
      Nested allowed blocks.length (repeats blocks) elses (first ++ body))
    (h : Completes allowed blocks is) : Completes allowed blocks (first ++ is) := by
  cases blocks with
  | nil => exact hfirst h
  | cons b blocks =>
    obtain ⟨elses, body, j, rest, rfl, hj, hn, hbody, hrest⟩ := h
    exact ⟨elses, first ++ body, j, rest, (append_assoc ..).symm, hj, hn, hfirst hbody, hrest⟩

theorem Completes.opened (hi : i.flowRole = .opens b)
    (hdepth : blocks.length < maxDepth) (h : Completes allowed (b :: blocks) is) :
    Completes allowed blocks (i :: is) := by
  obtain ⟨elses, body, j, rest, rfl, hj, hn, hbody, hrest⟩ := h
  have hsplit : i :: (body ++ j :: rest) = (i :: (body ++ [j])) ++ rest := by simp
  rw [hsplit]
  refine hrest.prepend _ fun {n tail} htail => ?_
  have hjoin : i :: (body ++ [j]) ++ tail = i :: (body ++ j :: tail) := by simp
  rw [hjoin]
  by_cases hb : b = .condition
  · subst hb
    exact .condition hi hj hdepth (by simpa using hn) hbody htail
  · rw [if_neg hb] at hn
    subst hn
    rw [repeats_cons_of_ne hb] at hbody
    exact .repetition hb hi hj hdepth hbody htail

/-- One more `else` of the innermost condition. -/
theorem Completes.divided (hall : ∀ n, allowed n) (hi : i.flowRole = .divides)
    (hhead : blocks.head? = some .condition) (h : Completes allowed blocks is) :
    Completes allowed blocks (i :: is) := by
  cases blocks with
  | nil => simp at hhead
  | cons b blocks =>
    obtain rfl : b = .condition := by simpa using hhead
    obtain ⟨elses, body, j, rest, rfl, hj, -, hbody, hrest⟩ := h
    exact ⟨elses + 1, i :: body, j, rest, rfl, hj, by simpa using hall _, .divide hi hbody, hrest⟩

end Completes

/-- Instructions that fit complete the open blocks, if conditions may be divided freely. -/
theorem completes_of_fitting (hall : ∀ n, allowed n) (h : Fitting is blocks) :
    Completes allowed blocks is := by
  induction is generalizing blocks with
  | nil =>
    obtain rfl : blocks = [] := h
    exact .nil
  | cons i rest ih =>
    obtain ⟨hfits, hrest⟩ := h
    have hnext := ih hrest
    unfold Fits at hfits
    unfold openedBy at hnext
    cases hi : i.flowRole with
    | plain =>
      rw [hi] at hnext
      exact hnext.prepend [i] (.plain hi)
    | opens b =>
      rw [hi] at hfits hnext
      exact hnext.opened hi hfits
    | divides =>
      rw [hi] at hfits hnext
      exact hnext.divided hall hi hfits
    | closes b =>
      rw [hi] at hfits hnext
      obtain ⟨tail, rfl⟩ := head?_eq_some_iff.mp hfits
      refine ⟨0, [], i, rest, rfl, hi, ?_, .nil, hnext⟩
      split_ifs
      · exact hall 0
      · rfl
    | leaves =>
      rw [hi] at hfits hnext
      refine hnext.prepend [i] fun {elses body} hbody => ?_
      rw [hfits] at hbody ⊢
      exact .leave hi hbody
    | label =>
      rw [hi] at hfits hnext
      subst hfits
      exact hnext.prepend [i] (.label hi)

theorem Nested.fitting_append (h : Nested allowed level looping elses is) (blocks : List Block)
    (hlevel : blocks.length = level) (hlooping : repeats blocks = looping)
    (helses : elses ≠ 0 → blocks.head? = some .condition) (rest : List Instruction) :
    Fitting (is ++ rest) blocks ↔ Fitting rest blocks := by
  induction h generalizing blocks rest with
  | nil => rfl
  | plain hi _ ih =>
    simpa [Fitting, Fits, openedBy, hi] using ih blocks hlevel hlooping helses rest
  | leave hi _ ih =>
    simpa [Fitting, Fits, openedBy, hi, hlooping] using ih blocks hlevel hlooping helses rest
  | label hi _ ih =>
    have hnone : blocks = [] := length_eq_zero_iff.mp hlevel
    simpa [Fitting, Fits, openedBy, hi, hnone] using ih blocks hlevel hlooping helses rest
  | divide hi _ ih =>
    have hhead := helses (by simp)
    simpa [Fitting, Fits, openedBy, hi, hhead] using ih blocks hlevel hlooping (fun _ => hhead) rest
  | @condition level elses n looping i j body tail hi hj hdepth hn _ _ ihbody ihrest =>
    have hinner := ihbody (.condition :: blocks) (by simp [hlevel]) hlooping
      (fun _ => rfl) (j :: (tail ++ rest))
    have hclose : Fitting (j :: (tail ++ rest)) (.condition :: blocks) ↔
        Fitting (tail ++ rest) blocks := by simp [Fitting, Fits, openedBy, hj]
    have hopen : Fitting (i :: (body ++ j :: tail) ++ rest) blocks ↔
        Fitting (body ++ j :: (tail ++ rest)) (.condition :: blocks) := by
      simp [Fitting, Fits, openedBy, hi, hlevel, hdepth]
    exact hopen.trans (hinner.trans (hclose.trans (ihrest blocks hlevel hlooping helses rest)))
  | @repetition level elses looping b i j body tail hb hi hj hdepth _ _ ihbody ihrest =>
    have hinner := ihbody (b :: blocks) (by simp [hlevel]) (repeats_cons_of_ne hb _)
      (fun hne => absurd rfl hne) (j :: (tail ++ rest))
    have hclose : Fitting (j :: (tail ++ rest)) (b :: blocks) ↔
        Fitting (tail ++ rest) blocks := by simp [Fitting, Fits, openedBy, hj]
    have hopen : Fitting (i :: (body ++ j :: tail) ++ rest) blocks ↔
        Fitting (body ++ j :: (tail ++ rest)) (b :: blocks) := by
      simp [Fitting, Fits, openedBy, hi, hlevel, hdepth]
    exact hopen.trans (hinner.trans (hclose.trans (ihrest blocks hlevel hlooping helses rest)))

theorem fitting_of_nested (h : Nested allowed 0 false 0 is) : Fitting is [] := by
  have happend := h.fitting_append [] rfl rfl (fun hne => absurd rfl hne) []
  rw [append_nil] at happend
  exact happend.mpr rfl

theorem fitting_iff_nested (is : List Instruction) :
    Fitting is [] ↔ Nested (fun _ => True) 0 false 0 is :=
  ⟨fun h => completes_of_fitting (fun _ => trivial) h, fitting_of_nested⟩

/-! ### Conditions with one `else` -/

/-- The numbers of `else` of the open blocks after an instruction, as long as there is one at most.
The outermost number belongs to no block. -/
def countElse (counts : List Nat) (i : Instruction) : Option (List Nat) :=
  match i.flowRole with
  | .opens _ => some (0 :: counts)
  | .closes _ => some counts.tail
  | .divides =>
    match counts with
    | 0 :: counts => some (1 :: counts)
    | _ => none
  | .plain | .leaves | .label => some counts

section CountElse

variable {i : Instruction} (rest : List Instruction) (counts : List Nat)

theorem foldlM_countElse_opens (hi : i.flowRole = .opens b) :
    (i :: rest).foldlM countElse counts = rest.foldlM countElse (0 :: counts) := by
  simp [countElse, hi]

theorem foldlM_countElse_closes (hi : i.flowRole = .closes b) :
    (i :: rest).foldlM countElse counts = rest.foldlM countElse counts.tail := by
  simp [countElse, hi]

theorem foldlM_countElse_divides (hi : i.flowRole = .divides) (c : Nat) :
    (i :: rest).foldlM countElse (c :: counts) =
      if c = 0 then rest.foldlM countElse (1 :: counts) else none := by
  cases c <;> simp [countElse, hi]

theorem foldlM_countElse_other (hi : i.flowRole = .plain ∨ i.flowRole = .leaves ∨
    i.flowRole = .label) : (i :: rest).foldlM countElse counts = rest.foldlM countElse counts := by
  rcases hi with hi | hi | hi <;> simp [countElse, hi]

end CountElse

/-- No condition is divided more than once. -/
def SingleElse (is : List Instruction) : Prop := (is.foldlM countElse [0]).isSome = true

instance (is : List Instruction) : Decidable (SingleElse is) :=
  inferInstanceAs (Decidable (_ = true))

/-- Counting follows a sequence of a level whose conditions are divided once at most. -/
theorem Nested.foldlM_countElse (h : Nested (· ≤ 1) level looping elses is) (c : Nat)
    (counts : List Nat) (hc : elses ≠ 0 → c + elses ≤ 1) :
    is.foldlM countElse (c :: counts) = some ((c + elses) :: counts) := by
  induction h generalizing c counts with
  | nil => rfl
  | plain hi _ ih =>
    rw [foldlM_countElse_other _ _ (Or.inl hi)]
    exact ih c counts hc
  | leave hi _ ih =>
    rw [foldlM_countElse_other _ _ (Or.inr (Or.inl hi))]
    exact ih c counts hc
  | label hi _ ih =>
    rw [foldlM_countElse_other _ _ (Or.inr (Or.inr hi))]
    exact ih c counts hc
  | @divide level elses looping i rest hi _ ih =>
    obtain ⟨rfl, rfl⟩ : c = 0 ∧ elses = 0 := by
      have := hc (by simp)
      omega
    rw [foldlM_countElse_divides _ _ hi, if_pos rfl]
    exact ih 1 counts fun hne => absurd rfl hne
  | condition hi hj _ hn _ _ ihbody ihrest =>
    have hbody := ihbody 0 (c :: counts) fun _ => by omega
    rw [foldlM_countElse_opens _ _ hi, foldlM_append, hbody]
    exact (foldlM_countElse_closes _ _ hj).trans (ihrest c counts hc)
  | repetition _ hi hj _ _ _ ihbody ihrest =>
    have hbody := ihbody 0 (c :: counts) fun hne => absurd rfl hne
    rw [foldlM_countElse_opens _ _ hi, foldlM_append, hbody]
    exact (foldlM_countElse_closes _ _ hj).trans (ihrest c counts hc)

/-- If counting follows a sequence of a level, its conditions are divided once at most. -/
theorem Nested.single_of_foldlM (h : Nested allowed level looping elses is) {c : Nat}
    {counts after : List Nat} (hafter : is.foldlM countElse (c :: counts) = some after) :
    Nested (· ≤ 1) level looping elses is ∧ after = (c + elses) :: counts ∧
      (elses ≠ 0 → c + elses ≤ 1) := by
  induction h generalizing c counts after with
  | nil => exact ⟨.nil, (Option.some.inj hafter).symm, fun hne => absurd rfl hne⟩
  | plain hi _ ih =>
    rw [foldlM_countElse_other _ _ (Or.inl hi)] at hafter
    exact (ih hafter).imp_left (.plain hi)
  | leave hi _ ih =>
    rw [foldlM_countElse_other _ _ (Or.inr (Or.inl hi))] at hafter
    exact (ih hafter).imp_left (.leave hi)
  | label hi _ ih =>
    rw [foldlM_countElse_other _ _ (Or.inr (Or.inr hi))] at hafter
    exact (ih hafter).imp_left (.label hi)
  | divide hi _ ih =>
    rw [foldlM_countElse_divides _ _ hi] at hafter
    split_ifs at hafter with hc
    subst hc
    obtain ⟨hnested, rfl, hone⟩ := ih hafter
    refine ⟨.divide hi hnested, ?_, ?_⟩
    · rw [Nat.zero_add, Nat.add_comm]
    · omega
  | condition hi hj hlevel _ _ _ ihbody ihrest =>
    rw [foldlM_countElse_opens _ _ hi, foldlM_append] at hafter
    obtain ⟨inner, hinner, hafter⟩ := Option.bind_eq_some_iff.mp hafter
    obtain ⟨hbody, rfl, hone⟩ := ihbody hinner
    rw [foldlM_countElse_closes _ _ hj] at hafter
    refine (ihrest hafter).imp_left (.condition hi hj hlevel ?_ hbody)
    omega
  | repetition hb hi hj hlevel _ _ ihbody ihrest =>
    rw [foldlM_countElse_opens _ _ hi, foldlM_append] at hafter
    obtain ⟨inner, hinner, hafter⟩ := Option.bind_eq_some_iff.mp hafter
    obtain ⟨hbody, rfl, -⟩ := ihbody hinner
    rw [foldlM_countElse_closes _ _ hj] at hafter
    exact (ihrest hafter).imp_left (.repetition hb hi hj hlevel hbody)

/-- A list has conditions with one `else` at most if and only if counting says so. -/
theorem nested_single_iff (is : List Instruction) :
    Nested (· ≤ 1) 0 false 0 is ↔ Nested (fun _ => True) 0 false 0 is ∧ SingleElse is := by
  constructor
  · intro h
    refine ⟨h.mono fun _ _ => trivial, ?_⟩
    rw [SingleElse, h.foldlM_countElse 0 [] fun hne => absurd rfl hne]
    rfl
  · rintro ⟨h, hsingle⟩
    obtain ⟨after, hafter⟩ := Option.isSome_iff_exists.mp hsingle
    exact (h.single_of_foldlM hafter).1

end ShaderPipeline
