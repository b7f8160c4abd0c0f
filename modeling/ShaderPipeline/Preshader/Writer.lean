import ShaderPipeline.Preshader.Reader

/-!
# Writing preshaders
-/

namespace ShaderPipeline.Preshader

def wordOf (n : Nat) : Word := UInt32.ofNat n

def commentBlock (payload : List Word) : List Word :=
  (wordOf commentCode ||| (wordOf payload.length <<< 16)) :: payload

/-- The words of a literal, the low one first. -/
def literalWords (x : Binary64) : List Word := [x.lowWord, x.highWord]

def operandWords (o : Operand) : List Word :=
  [wordOf o.arrayRegisters.length, wordOf o.pool.code, wordOf o.index] ++
    o.arrayRegisters.flatMap fun r => [wordOf Pool.input.code, wordOf r]

def instructionWords (i : Instruction) : List Word :=
  [(wordOf i.opcode.code <<< 16) ||| wordOf i.elements, wordOf i.operands.length - 1] ++
    i.operands.flatMap operandWords

def outputWords (outputs : List (Nat × Nat)) : List Word :=
  [outputTag, 0, 0, 0, 0, 0, 0, wordOf outputs.length] ++
    outputs.flatMap fun (r, n) => [wordOf r, wordOf n]

def toWords (table : List Word) (literals : List Binary64) (instructions : List Instruction)
    (outputs : List (Nat × Nat)) : List Word :=
  [maxVersion] ++ commentBlock table ++
    commentBlock ([literalTag, wordOf literals.length] ++ literals.flatMap literalWords) ++
    commentBlock
      ([instructionTag, wordOf instructions.length] ++ instructions.flatMap instructionWords) ++
    (if outputs.isEmpty then [] else commentBlock (outputWords outputs)) ++ [endToken]

end ShaderPipeline.Preshader
