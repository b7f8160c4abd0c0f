/-!
# Lists kept in order of a key

Registers, definitions and samplers are listed by increasing number, each number once.
-/

namespace ShaderPipeline

variable {α β : Type}

/-- Puts an entry into a list in increasing order of keys, in place of the entry with the same
key if there is one. -/
def putBy (key : α → Nat) (a : α) : List α → List α
  | [] => [a]
  | b :: rest =>
    if key a < key b then a :: b :: rest
    else if key a = key b then a :: rest
    else b :: putBy key a rest

def putNumber (n : Nat) (ns : List Nat) : List Nat := putBy id n ns

def putAt (n : Nat) (b : β) (entries : List (Nat × β)) : List (Nat × β) :=
  putBy Prod.fst (n, b) entries

end ShaderPipeline
