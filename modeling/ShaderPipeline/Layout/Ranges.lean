import ShaderPipeline.Layout.Survey
import ShaderPipeline.Symbol.Type

/-!
# Relatively addressed ranges

A relative access may reach any register of the symbol it starts in, or of the whole register file
when no symbol covers it. Ranges that overlap or touch are merged into one array.
-/

namespace ShaderPipeline

/-- A range of registers: the first one and how many there are. -/
structure RegisterRange where
  base : Nat
  count : Nat
  deriving DecidableEq, Repr, Inhabited

namespace RegisterRange

def contains (r : RegisterRange) (n : Nat) : Bool := r.base ≤ n && n < r.base + r.count

/-- Ranges are ordered by their first register, then by size. -/
def le (r s : RegisterRange) : Bool := r.base < s.base || (r.base == s.base && r.count ≤ s.count)

end RegisterRange

def Version.floatRegisters (v : Version) : Nat :=
  match v.stage, v.major with
  | .vertex, 1 => 96
  | .vertex, _ => 256
  | .pixel, 3 => 224
  | .pixel, 2 => 32
  | .pixel, _ => 8

/-- The range a relative access from register `n` may reach. -/
def accessedRange (v : Version) (symbols : List Symbol) (n : Nat) : RegisterRange :=
  match symbols.find? fun s => s.registerSet == .float4 && s.covers n with
  | some s => ⟨s.index, s.count⟩
  | none => ⟨0, max v.floatRegisters (n + 1)⟩

/-- Merges a range with those after it, which are in order. -/
def mergeFrom : RegisterRange → List RegisterRange → List RegisterRange
  | r, [] => [r]
  | r, s :: rest =>
    if s.base ≤ r.base + r.count then
      mergeFrom ⟨r.base, max r.count (s.base + s.count - r.base)⟩ rest
    else
      r :: mergeFrom s rest

def mergeRanges : List RegisterRange → List RegisterRange
  | [] => []
  | r :: rest => mergeFrom r rest

def relativeRanges (v : Version) (symbols : List Symbol) (accesses : List Nat) :
    List RegisterRange :=
  mergeRanges ((accesses.map (accessedRange v symbols)).mergeSort RegisterRange.le)

end ShaderPipeline
