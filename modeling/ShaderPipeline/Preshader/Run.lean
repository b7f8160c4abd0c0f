import ShaderPipeline.Layout.Ordered
import ShaderPipeline.Preshader.Basic

/-!
# Running preshaders

Instructions run one after the other. Each reads all its sources, computes in double precision,
and then writes its destination; outputs are stored in single precision. A run that stops at an
error keeps the outputs written before.
-/

namespace ShaderPipeline.Preshader

/-- The cells that a run changes. Temporaries that were never written are zero. -/
structure Cells where
  temps : List (Nat × Binary64)
  outputs : Array Binary32
  deriving DecidableEq, Repr

variable (p : Preshader)

def readCell (c : Cells) (pool : Pool) (index : Nat) : Except PreshaderError Binary64 :=
  let found : Option Binary64 :=
    match pool with
    | .literal => p.literals[index]?
    | .input => p.registers[index]?.map Binary32.widen
    | .output => c.outputs[index]?.map Binary32.widen
    | .temp => if index < p.tempCount then some ((c.temps.lookup index).getD .zero) else none
  match found with
  | some x => .ok x
  | none => .error (.registerOutOfRange pool index)

def readCells (p : Preshader) (c : Cells) (pool : Pool) :
    (index count : Nat) → Except PreshaderError (List Binary64)
  | _, 0 => return []
  | index, count + 1 => do
    let x ← readCell p c pool index
    return x :: (← readCells p c pool (index + 1) count)

def readInteger (index : Nat) : Except PreshaderError Int :=
  match p.registers[index]? with
  | some x => .ok x.toInt32.toInt
  | none => .error (.registerOutOfRange .input index)

/-- Follows registers, each offset by the integer found before. -/
def follow (p : Preshader) : Int → List Nat → Except PreshaderError Int
  | value, [] => return value
  | value, r :: rest => do
    let place := (r : Int) + value
    if place < 0 then
      throw (.registerOutOfRange .input r)
    follow p (← readInteger p place.toNat) rest

/-- The integer an indexed input stands for. Its own cell number selects a register of integers to
start from. -/
def indexedValue (o : Operand) : Except PreshaderError Int := do
  let start := o.index / 16 * 4 + o.index / 4 % 4
  follow p (← readInteger p start) o.arrayRegisters

/-- The lanes of the source at a position. A scalar literal fills all lanes, any other scalar and
an indexed input only the first. -/
def readSource (c : Cells) (i : Instruction) (elems slot : Nat) (o : Operand) :
    Except PreshaderError (List Binary64) := do
  let scalar := i.opcode.isScalar && slot == 0
  if o.pool = .literal ∧ scalar then
    let x ← readCell p c .literal o.index
    return List.replicate elems x
  else if o.pool = .input ∧ o.arrayRegisters ≠ [] then
    let n ← indexedValue p o
    return [Binary64.ofInt32 (Int32.ofInt n)]
  else
    readCells p c o.pool o.index (if scalar then 1 else elems)

/-- The lanes of sources from position `slot` on. -/
def readSources (p : Preshader) (c : Cells) (i : Instruction) (elems : Nat) :
    (slot : Nat) → List Operand → Except PreshaderError (List (List Binary64))
  | _, [] => return []
  | slot, o :: rest => do
    let lanes ← readSource p c i elems slot o
    return lanes :: (← readSources p c i elems (slot + 1) rest)

/-- One if a condition holds, zero otherwise. -/
def truth (b : Bool) : Float := if b then 1.0 else 0.0

def unary? : Opcode → Option (Float → Float)
  | .mov => some id
  | .neg => some fun x => -x
  | .rcp => some fun x => 1.0 / x
  | .frc => some fun x => x - x.floor
  | .exp => some Float.exp
  | .log => some Float.log
  | .rsq => some fun x => 1.0 / x.sqrt
  | .sin => some Float.sin
  | .cos => some Float.cos
  | .asin => some Float.asin
  | .acos => some Float.acos
  | .atan => some Float.atan
  | _ => none

def binary? : Opcode → Option (Float → Float → Float)
  | .min | .minScalar => some fun a b => if a < b then a else b
  | .max | .maxScalar => some fun a b => if a > b then a else b
  | .lt | .ltScalar => some fun a b => truth (a < b)
  | .ge | .geScalar => some fun a b => truth (a ≥ b)
  | .add | .addScalar => some fun a b => a + b
  | .mul | .mulScalar => some fun a b => a * b
  | .atan2 | .atan2Scalar => some Float.atan2
  | .div | .divScalar => some fun a b => a / b
  | _ => none

/-- The lanes an operation computes from the lanes of its sources; missing lanes are zero. -/
def evaluate (op : Opcode) (elems : Nat) (sources : List (List Binary64)) :
    Except PreshaderError (List Binary64) :=
  let lane (slot k : Nat) : Float := ((sources.getD slot []).getD k .zero).toFloat
  let first (k : Nat) : Float := if op.isScalar then lane 0 0 else lane 0 k
  let each (f : Nat → Float) : Except PreshaderError (List Binary64) :=
    .ok ((List.range elems).map fun k => .ofFloat (f k))
  match unary? op, binary? op, op with
  | some f, _, _ => each fun k => f (lane 0 k)
  | none, some f, _ => each fun k => f (first k) (lane 1 k)
  | none, none, .cmp => each fun k => if lane 0 k ≥ 0.0 then lane 1 k else lane 2 k
  | none, none, .dot =>
    let sum := ((List.range elems).map fun k => lane 0 k * lane 1 k).foldl (· + ·) (-0.0)
    each fun _ => sum
  | none, none, op => .error (.unhandledOpcode op)

def writeOutputs (outputs : Array Binary32) : (index : Nat) → List Binary64 → Array Binary32
  | _, [] => outputs
  | index, x :: rest => writeOutputs (outputs.setIfInBounds index x.narrow) (index + 1) rest

def writeTemps (temps : List (Nat × Binary64)) :
    (index : Nat) → List Binary64 → List (Nat × Binary64)
  | _, [] => temps
  | index, x :: rest => writeTemps (putAt index x temps) (index + 1) rest

def writeDestination (c : Cells) (o : Operand) (lanes : List Binary64) :
    Except PreshaderError Cells :=
  match o.pool with
  | .temp =>
    if o.index + lanes.length ≤ p.tempCount then
      .ok { c with temps := writeTemps c.temps o.index lanes }
    else .error (.registerOutOfRange .temp o.index)
  | .output =>
    if o.index + lanes.length ≤ c.outputs.size then
      .ok { c with outputs := writeOutputs c.outputs o.index lanes }
    else .error (.registerOutOfRange .output o.index)
  | .input | .literal => .error (.malformed .badDestination)

/-- The most lanes and the most sources of an instruction. -/
def maxLanes : Nat := 4

/-- The most sources an operation uses. -/
def maxSources : Nat := 3

def step (c : Cells) (i : Instruction) : Except PreshaderError Cells := do
  let elems := min i.elements maxLanes
  let sources ← readSources p c i elems 0 (i.sources.take maxSources)
  let lanes ← evaluate i.opcode elems sources
  match i.destination? with
  | none => return c
  | some d => writeDestination p c d lanes

def runFrom (p : Preshader) : Cells → List Instruction → Option PreshaderError × Cells
  | c, [] => (none, c)
  | c, i :: rest =>
    match step p c i with
    | .ok c => runFrom p c rest
    | .error e => (some e, c)

/-- Runs a preshader on output registers; they are given back changed, also after an error. -/
def run (p : Preshader) (outputs : Array Binary32) : Option PreshaderError × Array Binary32 :=
  let (e, c) := runFrom p ⟨[], outputs⟩ p.instructions
  (e, c.outputs)

end ShaderPipeline.Preshader
