import ShaderPipeline.Layout.Ranges

/-!
# Packed uniforms

Constants that are not defined by the shader itself are fed from outside. Those of one kind are
packed into an array: single registers take one slot, relatively addressed ranges one slot a
register, in increasing order of registers. A range whose registers are all defined by the shader
takes no slot; it is an array of its own, filled once.
-/

namespace ShaderPipeline

/-- Registers that are fed from outside, or an array of definitions. -/
structure Uniform where
  kind : ValueKind
  index : Nat
  /-- Zero for a single register, else the number of registers. -/
  arrayCount : Nat
  /-- Whether every register is defined by the shader. -/
  constant : Bool
  deriving DecidableEq, Repr, Inhabited

namespace Uniform

def width (u : Uniform) : Nat := max u.arrayCount 1

def covers (u : Uniform) (n : Nat) : Bool := u.index ≤ n && n < u.index + u.width

def letter : ValueKind → String
  | .float => "c"
  | .int => "i"
  | .bool => "b"

def name (stage : Stage) (u : Uniform) : String :=
  if u.arrayCount = 0 then s!"{stage.tag}_{letter u.kind}{u.index}"
  else if u.constant then s!"{stage.tag}_const_array_{u.index}_{u.arrayCount}"
  else s!"{stage.tag}_c{u.index}_array"

def single (kind : ValueKind) (n : Nat) : Uniform := ⟨kind, n, 0, false⟩

def slots (u : Uniform) : Nat := if u.constant then 0 else u.width

end Uniform

def slotCount (us : List Uniform) : Nat := (us.map Uniform.slots).sum

/-- The slot of a register: the slots of the uniforms before its own, and then its place there. -/
def slotOf? : List Uniform → Nat → Option Nat
  | [], _ => none
  | u :: rest, n =>
    if !u.constant && u.covers n then some (n - u.index)
    else (slotOf? rest n).map (u.slots + ·)

def arrayUniform (defs : List (Nat × Quad Binary32)) (r : RegisterRange) : Uniform :=
  ⟨.float, r.base, r.count,
    (List.range' r.base r.count).all fun n => (defs.lookup n).isSome⟩

/-- The float uniforms: registers that are used, not defined and in no range, and the ranges. -/
def floatUniforms (v : Survey) (ranges : List RegisterRange) : List Uniform :=
  let singles := v.floatUsed.filter fun n =>
    (v.floatDefs.lookup n).isNone && !ranges.any (·.contains n)
  List.merge (singles.map (Uniform.single .float)) (ranges.map (arrayUniform v.floatDefs))
    fun a b => a.index ≤ b.index

/-- The integer uniforms: registers that are used and not defined. -/
def intUniforms (v : Survey) : List Uniform :=
  (v.intUsed.filter fun n => (v.intDefs.lookup n).isNone).map (Uniform.single .int)

/-- The boolean uniforms: registers that are used and not defined. -/
def boolUniforms (v : Survey) : List Uniform :=
  (v.boolUsed.filter fun n => (v.boolDefs.lookup n).isNone).map (Uniform.single .bool)

end ShaderPipeline
