import ShaderPipeline.Proofs.Device.CoherentRuns

/-!
# Reading back registers

Registers are written and read through three pairs of operations, one for each kind of value. Each
moves as many whole registers as there are values for and as the file has from the first one on, so
what was written is what is read, however far out the first register is. All else of a device stays
as it was, except for the generation of its registers.
-/

namespace ShaderPipeline.Device

open List

variable {α β : Type}

/-! ### Transfers -/

/-- A transfer that moves anything stays within the file and within the values. -/
theorem transferCount_bounds (width size start len : Nat) :
    width * transferCount width size start len ≤ len ∧
      (transferCount width size start len ≠ 0 →
        width * (start + transferCount width size start len) ≤ size) := by
  have hlen : transferCount width size start len ≤ len / width := Nat.min_le_left _ _
  have hsize : transferCount width size start len ≤ size / width - start := Nat.min_le_right _ _
  refine ⟨(Nat.mul_le_mul_left _ hlen).trans (Nat.mul_div_le _ _), fun hne => ?_⟩
  exact (Nat.mul_le_mul_left width (by omega)).trans (Nat.mul_div_le size width)

theorem getElem?_writeRegisters (width : Nat) (file : Array β) (start : Nat) (values : List β)
    (i : Nat) :
    (writeRegisters width file start values)[i]? =
      if width * start ≤ i ∧
          i < width * (start + transferCount width file.size start values.length) then
        values[i - width * start]?
      else file[i]? := by
  obtain ⟨hvalues, hfile⟩ := transferCount_bounds width file.size start values.length
  rw [writeRegisters, getElem?_overwrite, length_take, Nat.min_eq_left hvalues, Nat.mul_add]
  generalize transferCount width file.size start values.length = n at hvalues hfile ⊢
  rw [Nat.mul_add] at hfile
  by_cases hi : width * start ≤ i ∧ i < width * start + width * n
  · have hin := hfile (by rintro rfl; omega)
    rw [if_pos (by omega), if_pos hi, getElem?_take_of_lt (by omega)]
  · rw [if_neg (by omega), if_neg hi]

/-- Reading gives what was written, as it is read, and leaves the rest of the buffer. -/
theorem readRegisters_writeRegisters (f : β → α) (width : Nat) (file : Array β) (start : Nat)
    (values : List β) {buffer : List α} (h : buffer.length = values.length) :
    readRegisters width ((writeRegisters width file start values).map f) start buffer =
      let n := transferCount width file.size start values.length
      (n, (values.take (width * n)).map f ++ buffer.drop (width * n)) := by
  obtain ⟨hvalues, hfile⟩ := transferCount_bounds width file.size start values.length
  simp only [readRegisters, Array.size_map, size_writeRegisters, h]
  congr 2
  refine List.ext_getElem? fun i => ?_
  rw [Array.getElem?_toList, Array.getElem?_extract, List.getElem?_map, getElem?_take,
    Array.size_map, size_writeRegisters, Array.getElem?_map, getElem?_writeRegisters]
  generalize transferCount width file.size start values.length = n at hvalues hfile ⊢
  rw [Nat.mul_add] at hfile ⊢
  by_cases hi : i < width * n
  · have hin := hfile (by rintro rfl; omega)
    rw [if_pos (by omega), if_pos (by omega), if_pos hi, Nat.add_sub_cancel_left]
  · rw [if_neg (by omega), if_neg hi]
    rfl

/-! ### Accessors -/

/-- A file of registers: the cells of one register, the file of a stage, and how a value is kept in
a cell. -/
structure Access (α β : Type) where
  width : Nat
  file : StageRegisters → Array β
  withFile : StageRegisters → Array β → StageRegisters
  encode : α → β
  decode : β → α
  file_withFile : ∀ r cells, file (withFile r cells) = cells := by intros; rfl
  withFile_file : ∀ r cells, withFile (withFile r cells) (file r) = r := by intros; rfl

namespace Access

def floats : Access Binary32 Binary32 where
  width := 4
  file := (·.floats)
  withFile r cells := { r with floats := cells }
  encode := id
  decode := id

def ints : Access Int32 Int32 where
  width := 4
  file := (·.ints)
  withFile r cells := { r with ints := cells }
  encode := id
  decode := id

def bools : Access Int32 UInt8 where
  width := 1
  file := (·.bools)
  withFile r cells := { r with bools := cells }
  encode v := if v = 0 then 0 else 1
  decode b := b.toNat.toInt32

variable (a : Access α β) (d : Device) (stage : Stage) (start : Nat) (values : List α)

def cells : Array β := a.file (d.registers.stage stage)

/-- The number of registers in the file of a stage. -/
def capacity : Nat := (a.cells d stage).size / a.width

/-- The number of registers that are written. -/
def reach : Nat := min (values.length / a.width) (a.capacity d stage - start)

/-- Values are written over whole registers of one file and nothing else, and read back from
there. -/
structure ReadsBack (write : DeviceM Unit) (read : Device → List α → Nat × List α) : Prop where
  device : (write.run d).2 =
    { d with registers := (write.run d).2.registers, generation := d.generation + 1 }
  bump : (write.run d).2.registers.bump = d.registers.bump
  otherStage : ∀ s ≠ stage, (write.run d).2.registers.stage s = d.registers.stage s
  otherFiles : a.withFile ((write.run d).2.registers.stage stage) (a.cells d stage) =
    d.registers.stage stage
  cells : ∀ i, (a.cells (write.run d).2 stage)[i]? =
    if a.width * start ≤ i ∧ i < a.width * (start + a.reach d stage start values) then
      (values[i - a.width * start]?).map a.encode
    else (a.cells d stage)[i]?
  read : ∀ buffer, buffer.length = values.length → read (write.run d).2 buffer =
    (a.reach d stage start values,
      (values.take (a.width * a.reach d stage start values)).map (fun v => a.decode (a.encode v)) ++
        buffer.drop (a.width * a.reach d stage start values))
  /-- Only places within the file are ever counted. -/
  inside : a.reach d stage start values ≠ 0 →
    a.width * (start + a.reach d stage start values) ≤ (a.cells d stage).size

variable {d stage start values}

theorem readsBack_of_run {write : DeviceM Unit} {read : Device → List α → Nat × List α}
    (hwrite : write.run d = ((), d.written (d.registers.modifyStage stage fun r =>
      a.withFile r (writeRegisters a.width (a.file r) start (values.map a.encode)))))
    (hread : ∀ d' buffer, read d' buffer =
      readRegisters a.width ((a.cells d' stage).map a.decode) start buffer) :
    a.ReadsBack d stage start values write read := by
  have hstage : (write.run d).2.registers.stage stage = a.withFile (d.registers.stage stage)
      (writeRegisters a.width (a.cells d stage) start (values.map a.encode)) := by
    rw [hwrite]
    exact PerStage.get_set _ _ _
  have hcells : a.cells (write.run d).2 stage =
      writeRegisters a.width (a.cells d stage) start (values.map a.encode) := by
    rw [cells, hstage, a.file_withFile]
  have hreach : transferCount a.width (a.cells d stage).size start (values.map a.encode).length =
      a.reach d stage start values := by
    rw [length_map]
    rfl
  refine ⟨by rw [hwrite]; rfl, by rw [hwrite]; rfl, fun s hs => ?_, ?_, fun i => ?_,
    fun buffer h => ?_, ?_⟩
  · rw [hwrite]
    exact PerStage.get_set_of_ne _ _ hs
  · rw [hstage]
    exact a.withFile_file _ _
  · rw [hcells, getElem?_writeRegisters, hreach, getElem?_map]
  · rw [hread, hcells, readRegisters_writeRegisters _ _ _ _ _ (by rw [h, length_map])]
    simp only [hreach, map_take, map_map]
    rfl
  · rw [← hreach]
    exact (transferCount_bounds _ _ _ _).2

end Access

/-- What is written to registers is read back from them, and nothing else is changed. -/
theorem registers_read_back (d : Device) (stage : Stage) (start : Nat) :
    (∀ values, Access.floats.ReadsBack d stage start values (setFloats stage start values)
      (Device.floats · stage start)) ∧
    (∀ values, Access.ints.ReadsBack d stage start values (setInts stage start values)
      (Device.ints · stage start)) ∧
    (∀ values, Access.bools.ReadsBack d stage start values (setBools stage start values)
      (Device.bools · stage start)) ∧
    (∀ v, Access.floats.decode (Access.floats.encode v) = v) ∧
    (∀ v, Access.ints.decode (Access.ints.encode v) = v) ∧
    (∀ v, Access.bools.decode (Access.bools.encode v) = if v = 0 then 0 else 1) ∧
    (d.registers.Sized → Access.floats.capacity d stage = floatRegisterCount ∧
      Access.ints.capacity d stage = intRegisterCount ∧
      Access.bools.capacity d stage = boolRegisterCount) := by
  refine ⟨fun values => Access.floats.readsBack_of_run ?_ ?_,
    fun values => Access.ints.readsBack_of_run ?_ ?_,
    fun values => Access.bools.readsBack_of_run ?_ ?_, fun _ => rfl, fun _ => rfl, fun v => ?_,
    fun h => ?_⟩
  · rw [setFloats_run]
    simp [Access.floats]
  · simp [Access.floats, Access.cells, Device.floats]
  · rw [setInts_run]
    simp [Access.ints]
  · simp [Access.ints, Access.cells, Device.ints]
  · rw [setBools_run]
    simp [Access.bools]
  · simp [Access.bools, Access.cells, Device.bools]
  · simp only [Access.bools]
    split <;> rfl
  · have hfloats := h stage .float
    have hints := h stage .int
    have hbools := h stage .bool
    simp only [StageRegisters.words, length_map, Array.length_toList, ValueKind.lanes,
      registerCount] at hfloats hints hbools
    simp only [Access.capacity, Access.cells, Access.floats, Access.ints, Access.bools, hfloats,
      hints, hbools]
    decide

end ShaderPipeline.Device
