/-!
# Blanks

Characters that separate words, and the words of a text.
-/

namespace ShaderPipeline

def isBlank (c : Char) : Bool :=
  let n := c.toNat
  (9 ≤ n && n ≤ 13) || n == 0x20 || n == 0x85 || n == 0xA0 || n == 0x1680 ||
    (0x2000 ≤ n && n ≤ 0x200A) || n == 0x2028 || n == 0x2029 || n == 0x202F || n == 0x205F ||
    n == 0x3000

/-- The longest stretches of characters that do not satisfy a predicate, empty ones included;
`current` is the stretch being read, its last character first. -/
def splitChars (p : Char → Bool) : (cs current : List Char) → List (List Char)
  | [], current => [current.reverse]
  | c :: cs, current =>
    if p c then current.reverse :: splitChars p cs [] else splitChars p cs (c :: current)

def blankSeparated (s : String) : List String :=
  ((splitChars isBlank s.toList []).filter (!·.isEmpty)).map String.ofList

/-- The text after a given start, if it starts so. -/
def textAfter? (start s : String) : Option String :=
  if start.toList.isPrefixOf s.toList then some (String.ofList (s.toList.drop start.length))
  else none

end ShaderPipeline
