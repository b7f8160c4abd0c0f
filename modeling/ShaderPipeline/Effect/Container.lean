import ShaderPipeline.Effect.Objects

/-!
# Effect containers

A container starts with a magic word, which a compiler may have put behind a preamble, and the
offset of the table of contents from the byte after it, the base. The table has the numbers of
parameters, techniques and objects, then the parameters and techniques, and last the objects.
-/

namespace ShaderPipeline.Effect

def magic : Nat := 0xFEFF0901

def preambleMagic : Nat := 0xBCF00BCF

/-- The position of the magic word: after the preamble if there is one. -/
def containerStart (bytes : Bytes) : Except EffectError Nat := do
  if bytes.size < 8 then
    throw (.unexpectedEof "effect header")
  if (← numberAt bytes 0 "effect header") ≠ preambleMagic then
    return 0
  let size ← numberAt bytes 4 "XNA4 preamble size"
  if size < 8 then
    throw (.malformed (.preambleSize size))
  if bytes.size < size then
    throw (.unexpectedEof "XNA4 preamble")
  return size

def readContents (base : Bytes) (profile : Profile) (options : Options) (cache : ShaderCache) :
    ReaderM (Effect × ShaderCache) := do
  if (← ReaderM.remaining base) < 16 then
    throw (.unexpectedEof "structure counts")
  let paramCount ← ReaderM.next base "parameter count"
  let techniqueCount ← ReaderM.next base "technique count"
  let _unused ← ReaderM.next base "structure counts"
  let objectCount ← ReaderM.next base "object count"
  if maxObjects < objectCount ∨ base.size / 4 < objectCount then
    throw (.outOfMemory (.objects objectCount))
  modify fun s => { s with types := Array.replicate objectCount .void }
  let params ← ReaderM.times (ReaderM.param base) paramCount
  let techniques ← ReaderM.times (ReaderM.technique base) techniqueCount
  if (← ReaderM.remaining base) < 8 then
    throw (.unexpectedEof "object counts")
  let smallCount ← ReaderM.next base "small object count"
  let largeCount ← ReaderM.next base "large object count"
  let s ← get
  let start : LinkState := ⟨s.position, s.types.map fun t => ⟨t, .none⟩, cache, []⟩
  let (_, linked) ← (LinkM.objects base ⟨profile, options, params, techniques⟩
    smallCount largeCount).run start
  let effect : Effect := {
    profile, params, techniques
    diagnostics := linked.diagnostics
    objects := linked.objects
    technique := if techniques.isEmpty then none else some 0
    pass := none }
  return (effect, linked.cache)

def ofBytesCached (bytes : Bytes) (profile : Profile) (options : Options) (cache : ShaderCache) :
    Except EffectError (Effect × ShaderCache) := do
  let start ← containerStart bytes
  if (← numberAt bytes start "effect header") ≠ magic then
    throw .notAnEffectsFile
  let offset ← numberAt bytes (start + 4) "TOC offset"
  let base := bytes.extract (start + 8) bytes.size
  if base.size < offset then
    throw (.unexpectedEof "TOC offset")
  (readContents base profile options cache).run' ⟨offset, #[]⟩

def ofBytes (bytes : Bytes) (profile : Profile) (options : Options) :
    Except EffectError Effect := do
  return (← ofBytesCached bytes profile options default).1

end ShaderPipeline.Effect
