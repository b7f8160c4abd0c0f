import ShaderPipeline.Device.Playback
import ShaderPipeline.Proofs.Device.Cells

/-!
# Copies of parameters as writes

Parameters are copied to registers window by window, and what is copied does not depend on what the
registers hold. A copy is therefore a list of writes, and the last write to a cell decides about
it. Copying twice is copying once.
-/

namespace ShaderPipeline

open Array Option

variable {α : Type}

abbrev Writes (α : Type) := List (Nat × List α)

namespace Writes

variable (ws : Writes α) (file : Array α)

def apply : Array α :=
  ws.foldl (fun file w => overwrite file w.1 w.2) file

/-- What is left in a cell, if one of the writes covers it. -/
def value? : Writes α → Nat → Option α
  | [], _ => none
  | w :: rest, i => (value? rest i).or (if w.1 ≤ i then w.2[i - w.1]? else none)

def covers (i : Nat) : Bool := (ws.value? i).isSome

@[simp] theorem apply_nil : apply ([] : Writes α) = id := rfl

theorem apply_append (ws ws' : Writes α) (file : Array α) :
    (ws ++ ws').apply file = ws'.apply (ws.apply file) := List.foldl_append

theorem getElem?_apply (i : Nat) : (ws.apply file)[i]? = file[i]?.map (ws.value? i).getD := by
  induction ws generalizing file with
  | nil => exact map_id_apply.symm
  | cons w rest ih =>
    have hfirst : (overwrite file w.1 w.2)[i]? =
        file[i]?.map (if w.1 ≤ i then w.2[i - w.1]? else none).getD := by
      rw [getElem?_overwrite]
      by_cases hi : i < file.size
      · rw [getElem?_eq_getElem hi]
        by_cases hw : w.1 ≤ i ∧ i < w.1 + w.2.length
        · have hlt : i - w.1 < w.2.length := by omega
          simp [hw, hi, hlt]
        · rw [if_neg (fun h => hw ⟨h.1, h.2.1⟩)]
          split_ifs with hle
          · rw [List.getElem?_eq_none (by omega)]
            rfl
          · rfl
      · rw [if_neg (fun h => hi h.2.2), getElem?_eq_none (by omega)]
        rfl
    change (apply rest (overwrite file w.1 w.2))[i]? = _
    rw [ih, hfirst, Option.map_map]
    congr 1
    funext x
    exact getD_or.symm

@[simp] theorem size_apply : (ws.apply file).size = file.size := by
  induction ws generalizing file with
  | nil => rfl
  | cons w rest ih => exact (ih _).trans (size_overwrite _ _ _)

theorem getElem?_apply_of_not_covers {ws : Writes α} {i : Nat} (h : ws.covers i = false)
    (file : Array α) : (ws.apply file)[i]? = file[i]? := by
  rw [getElem?_apply, isSome_eq_false_iff.mp h |> isNone_iff_eq_none.mp]
  exact map_id_apply

/-- What is written to a cell does not depend on what the file holds. -/
theorem getElem?_apply_of_covers {ws : Writes α} {i : Nat} (h : ws.covers i = true)
    {file file' : Array α} (hsize : file'.size = file.size) :
    (ws.apply file')[i]? = (ws.apply file)[i]? := by
  obtain ⟨a, ha⟩ := isSome_iff_exists.mp h
  rw [getElem?_apply, getElem?_apply, ha]
  by_cases hi : i < file.size
  · rw [getElem?_eq_getElem hi, getElem?_eq_getElem (hsize ▸ hi)]
    rfl
  · rw [getElem?_eq_none (by omega), getElem?_eq_none (by omega)]

/-- The same writes again change nothing. -/
@[simp] theorem apply_apply : ws.apply (ws.apply file) = ws.apply file := by
  apply ext_getElem?
  intro i
  rw [getElem?_apply, getElem?_apply, Option.map_map]
  congr 1
  funext x
  cases ws.value? i <;> simp

end Writes

namespace Device

/-! ### Copies to register files -/

def rowWrites (start : Nat) : List (List α) → Writes α
  | [] => []
  | row :: rest => (start, row) :: rowWrites (start + 4) rest

theorem overwriteRows_eq (file : Array α) (start : Nat) (rows : List (List α)) :
    overwriteRows file start rows = (rowWrites start rows).apply file := by
  induction rows generalizing file start with
  | nil => rfl
  | cons row rest ih => exact ih _ _

/-- The writes of a copy to the register files. -/
structure ParameterWrites where
  floats : Writes Binary32
  ints : Writes Int32
  bools : Writes UInt8

def ParameterTarget.write (t : ParameterTarget) (w : ParameterWrites) : ParameterTarget :=
  ⟨w.floats.apply t.floats, t.ints.map w.ints.apply, t.bools.map w.bools.apply⟩

def wordWrites (info : TypeInfo) (words : List Word) (s : Symbol) : ParameterWrites :=
  let rows := (wordRows words).map (·.take (convertedColumns info))
  if isVerbatim info s then ⟨[(4 * s.index, (words.take (4 * s.count)).map Binary32.mk)], [], []⟩
  else
    match s.registerSet with
    | .float4 => ⟨rowWrites (4 * s.index) ((rows.take s.count).map (·.map floatOfWord)), [], []⟩
    | .int4 => ⟨[], [(4 * s.index, (words.take (4 * s.count)).map (·.toInt32))], []⟩
    | .bool => ⟨[], [], [(s.index, (rows.flatten.take s.count).map boolOfWord)]⟩
    | .sampler => ⟨[], [], []⟩

theorem copyWords_eq (info : TypeInfo) (words : List Word) (s : Symbol) (t : ParameterTarget) :
    copyWords info words s t = t.write (wordWrites info words s) := by
  unfold copyWords wordWrites
  split_ifs
  · simp [ParameterTarget.write, Writes.apply]
  · cases s.registerSet with
    | float4 => simp [ParameterTarget.write, overwriteRows_eq]
    | int4 =>
      simp only [ParameterTarget.write, Writes.apply_nil, Option.map_id]
      rfl
    | bool =>
      simp only [ParameterTarget.write, Writes.apply_nil, Option.map_id]
      rfl
    | sampler => simp [ParameterTarget.write]

def linkWrites (params : List Effect.Param) : List (Symbol × Nat) → ParameterWrites
  | [] => ⟨[], [], []⟩
  | (s, n) :: rest =>
    let later := linkWrites params rest
    match params[n]? with
    | none => later
    | some p =>
      match p.value.words with
      | .error _ => later
      | .ok ws =>
        let first := wordWrites p.value.info ws s
        ⟨first.floats ++ later.floats, first.ints ++ later.ints, first.bools ++ later.bools⟩

theorem copyParameters_eq (params : List Effect.Param) (indices : List Nat) (symbols : List Symbol)
    (t : ParameterTarget) :
    copyParameters params indices symbols t =
      t.write (linkWrites params (symbols.zip indices)) := by
  unfold copyParameters
  induction symbols.zip indices generalizing t with
  | nil => simp [linkWrites, ParameterTarget.write]
  | cons link rest ih =>
    obtain ⟨s, n⟩ := link
    rw [List.foldl_cons, ih, linkWrites, copyParameter]
    cases params[n]? with
    | none => rfl
    | some p =>
      dsimp only
      cases p.value.words with
      | error e => rfl
      | ok ws =>
        dsimp only
        rw [copyWords_eq]
        simp only [ParameterTarget.write, Writes.apply_append, Option.map_map]
        congr <;> funext file <;> exact (Writes.apply_append _ _ _).symm

def StageRegisters.write (r : StageRegisters) (w : ParameterWrites) : StageRegisters :=
  ⟨w.floats.apply r.floats, w.ints.apply r.ints, w.bools.apply r.bools⟩

theorem StageRegisters.write_write (r : StageRegisters) (w : ParameterWrites) :
    (r.write w).write w = r.write w := by
  simp [StageRegisters.write]

theorem StageRegisters.copyParameters_eq (params : List Effect.Param) (indices : List Nat)
    (symbols : List Symbol) (r : StageRegisters) :
    r.copyParameters params indices symbols =
      r.write (linkWrites params (symbols.zip indices)) := by
  unfold StageRegisters.copyParameters
  rw [Device.copyParameters_eq]
  rfl

/-! ### Inputs of selectors -/

namespace PlaybackM

def selectorRowWrites (columns : Nat) : (start : Nat) → (words : List Word) → Writes Binary32
  | start, a :: b :: c :: d :: rest =>
    (start, ([a, b, c, d].take columns).map Binary32.mk) ::
      selectorRowWrites columns (start + 4) rest
  | _, _ => []

theorem selectorRows_eq (columns : Nat) (registers : Array Binary32) (start : Nat)
    (words : List Word) : selectorRows columns registers start words =
      (selectorRowWrites columns start words).apply registers := by
  fun_induction selectorRows columns registers start words with
  | case1 r start a b c d rest ih => exact ih
  | case2 r start words h =>
    unfold selectorRowWrites
    split
    · exact absurd rfl (h _ _ _ _ _)
    · rfl

/-- The writes to the inputs of a selector, up to the first parameter without words. -/
def selectorWrites (params : List Effect.Param) : List (Symbol × Nat) →
    Writes Binary32 × Except Effect.UsageError Unit
  | [] => ([], .ok ())
  | (s, n) :: rest =>
    match params[n]? with
    | none => selectorWrites params rest
    | some p =>
      match p.value.words with
      | .error e => ([], .error e)
      | .ok ws =>
        let later := selectorWrites params rest
        (selectorRowWrites (min p.value.info.columns 4) (4 * s.index) ws ++ later.1, later.2)

theorem feedSelector_eq (params : List Effect.Param) (links : List (Symbol × Nat))
    (registers : Array Binary32) : feedSelector params links registers =
      ((selectorWrites params links).1.apply registers, (selectorWrites params links).2) := by
  induction links generalizing registers with
  | nil => rfl
  | cons link rest ih =>
    obtain ⟨s, n⟩ := link
    rw [feedSelector, selectorWrites]
    cases params[n]? with
    | none => exact ih registers
    | some p =>
      dsimp only
      cases p.value.words with
      | error e => rfl
      | ok ws =>
        dsimp only
        rw [ih, selectorRows_eq, Writes.apply_append]

end PlaybackM

end Device

end ShaderPipeline
