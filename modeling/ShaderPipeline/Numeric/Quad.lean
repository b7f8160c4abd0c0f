/-!
# Four of a kind
-/

namespace ShaderPipeline

/-- Four values, one for each component of a register. -/
structure Quad (α : Type) where
  x : α
  y : α
  z : α
  w : α
  deriving DecidableEq, Repr, Inhabited

namespace Quad

variable {α β : Type}

def splat (a : α) : Quad α := ⟨a, a, a, a⟩

def toList (q : Quad α) : List α := [q.x, q.y, q.z, q.w]

def map (f : α → β) (q : Quad α) : Quad β := ⟨f q.x, f q.y, f q.z, f q.w⟩

/-- The first four values of a list, with a default for those it lacks. -/
def ofList (default : α) (xs : List α) : Quad α :=
  ⟨xs.getD 0 default, xs.getD 1 default, xs.getD 2 default, xs.getD 3 default⟩

end Quad

end ShaderPipeline
