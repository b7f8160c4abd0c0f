import ShaderPipeline.Lowering.Shader

/-!
# A cache of lowered shaders

Lowering depends on nothing but its inputs, so a result can be kept and given again. The cache
holds the results of the most recent distinct requests.
-/

namespace ShaderPipeline

/-- What tells requests apart: profile, options and code written one after the other. -/
def requestKey (profile : Profile) (options : Options) (bytes : Bytes) : List UInt8 :=
  let text (s : String) : List UInt8 := s.toUTF8.data.toList
  let number (n : Nat) : List UInt8 := bytesOfWord (UInt32.ofNat n)
  let kindByte : SamplerKind → UInt8
    | .flat => 0
    | .cube => 1
    | .volume => 2
  text profile.name ++ [0] ++ text options.entry ++ [0] ++
    (options.swizzles.flatMap fun s =>
      text s.semantic.usage.word ++ number s.semantic.index ++ s.channels.toList) ++ [0] ++
    (options.samplerKinds.flatMap fun (n, k) => number n ++ [kindByte k]) ++ [0] ++
    bytes.toList

/-- Results by request, the most recently used first. -/
structure ShaderCache where
  capacity : Nat
  entries : List (List UInt8 × LoweredShader)
  deriving DecidableEq, Repr

/-- Where an answer of the cache came from. -/
inductive LookupSource where
  /-- The request was remembered. -/
  | memory
  /-- The shader was lowered for this request. -/
  | lowered
  deriving DecidableEq, Repr

namespace ShaderCache

/-- The capacity of a cache when none is asked for. -/
def defaultCapacity : Nat := 256

def empty (capacity : Nat) : ShaderCache := ⟨capacity, []⟩

instance : Inhabited ShaderCache := ⟨empty defaultCapacity⟩

def size (c : ShaderCache) : Nat := c.entries.length

def clear (c : ShaderCache) : ShaderCache := { c with entries := [] }

/-- Puts a result first, in place of an earlier one for the same key, and drops what is beyond the
capacity. -/
def promote (c : ShaderCache) (key : List UInt8) (s : LoweredShader) : ShaderCache :=
  { c with entries := ((key, s) :: c.entries.filter (·.1 != key)).take c.capacity }

/-- The result for a request, which becomes the most recently used. -/
def get (c : ShaderCache) (profile : Profile) (options : Options) (bytes : Bytes) :
    LookupSource × LoweredShader × ShaderCache :=
  let key := requestKey profile options bytes
  match c.entries.lookup key with
  | some s => (.memory, s, c.promote key s)
  | none =>
    let s := LoweredShader.ofBytes profile options bytes
    (.lowered, s, c.promote key s)

end ShaderCache

end ShaderPipeline
