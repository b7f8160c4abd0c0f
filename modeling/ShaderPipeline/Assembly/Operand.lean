import ShaderPipeline.Assembly.Line
import ShaderPipeline.Layout.Basic

/-!
# Operands in assembly

Float constants that are fed from outside are elements of one local array, in the order of their
slots. Source modifiers other than a negation have no spelling and are computed into a scratch
register first.
-/

namespace ShaderPipeline.Assembly

abbrev LineM := StateT (List Line) (Except Fault)

def emit (op : Operation) (target : Target) (operands : List Operand) : LineM Unit :=
  modify (· ++ [⟨op, false, some target, operands⟩])

/-- A source after its modifier was dealt with. -/
structure Value where
  negate : Bool
  place : Place
  swizzle : Swizzle
  deriving DecidableEq, Repr

namespace Value

/-- All four components; the identity swizzle is not spelled. -/
def vector (v : Value) : Operand :=
  .read v.negate v.place (if v.swizzle = .identity then [] else v.swizzle.toList)

/-- The first component. -/
def scalar (v : Value) : Operand := .read v.negate v.place [v.swizzle.x]

end Value

def Place.whole (p : Place) : Operand := .read false p []

def Place.pick (p : Place) (cs : List Component) : Operand := .read false p cs

def Place.target (p : Place) : Target := ⟨p, []⟩

def outputName (tag : String) (file : RegisterFile) (n : Nat) : Except Fault String :=
  match file with
  | .rastOut =>
    match n with
    | 0 => .ok s!"{tag}_oPos"
    | 1 => .ok s!"{tag}_oFog"
    | _ => .ok s!"{tag}_oPts"
  | .attrOut => .ok s!"{tag}_oD{n}"
  | .texCoordOut => .ok s!"{tag}_oT{n}"
  | .output => .ok s!"{tag}_o{n}"
  | .colorOut => .ok s!"{tag}_oC{n}"
  | .depthOut => .ok s!"{tag}_oDepth"
  | file => .error (.notAnOutput file)

variable (l : Layout)

/-- The fault of something the profile has no means for. -/
def lacking (f : Feature) : Fault := .unsupported f l.profile

def inputBinding (n : Nat) : Except Fault String :=
  match (l.survey.inputs.lookup n).getD ⟨.color, n⟩ with
  | ⟨.color, 0⟩ => .ok "fragment.color.primary"
  | ⟨.color, 1⟩ => .ok "fragment.color.secondary"
  | ⟨.texCoord, k⟩ => .ok s!"fragment.texcoord[{k}]"
  | ⟨.fog, _⟩ => .ok "fragment.fogcoord"
  | s => .error (lacking l (.input s))

def coordinateText (n : Nat) : String := s!"fragment.texcoord[{n}]"

def elementText (n : Nat) (a : RelativeAddress) : Except Fault String := do
  if a.file ≠ .addr then
    throw (lacking l .relativeToLoop)
  if a.component ≠ .x ∧ !l.profile.hasVendorOps then
    throw (lacking l .addressComponent)
  let address := s!"{l.tag}_a{a.index}.{a.component.letter}"
  match l.arrayOf? n with
  | none => throw (.notInRelativeRange n)
  | some array =>
    match l.floatSlot? n with
    | some slot => return s!"{l.tag}_uniforms[{address} + {slot}]"
    | none => return s!"{array.name l.stage}[{address} + {n - array.index}]"

def constantText (n : Nat) : Except Fault String :=
  if (l.survey.floatDefs.lookup n).isSome then .ok s!"{l.tag}_c{n}"
  else
    match l.floatSlot? n with
    | some slot => .ok s!"{l.tag}_uniforms[{slot}]"
    | none => .error (.noUniformSlot n)

def registerText (r : RegisterRef) : Except Fault String :=
  let n := r.index
  match r.relative with
  | some a => elementText l n a
  | none =>
    match r.file with
    | .temp => .ok s!"{l.tag}_r{n}"
    | .input =>
      match l.stage with
      | .vertex => .ok s!"{l.tag}_v{n}"
      | .pixel => inputBinding l n
    | .const => constantText l n
    | .addr => .ok s!"{l.tag}_a{n}"
    | .texture => if l.textureIsVarying then .ok (coordinateText n) else .ok s!"{l.tag}_t{n}"
    | .miscType =>
      if n = 0 then .ok "fragment.position"
      else if l.profile.hasVendorOps then .ok "fragment.facing"
      else .error (lacking l (.registers .miscType))
    | .rastOut | .attrOut | .texCoordOut | .output | .colorOut | .depthOut =>
      outputName l.tag r.file n
    | file => .error (lacking l (.registers file))

def place (l : Layout) (r : RegisterRef) : Except Fault Place := do
  return .register r (← registerText l r)

def inputSwizzle (src : Source) : Swizzle :=
  if src.reg.file = .input ∧ l.stage = .vertex then
    match (l.survey.inputs.lookup src.reg.index).bind l.options.swizzleOf? with
    | some r => r.swizzle.andThen src.swizzle
    | none => src.swizzle
  else src.swizzle

def scratch (l : Layout) (n : Nat) : Place := .scratch l.stage n

/-- Resolves a source; scratch register `slot` takes what a modifier has to compute. -/
def source (l : Layout) (src : Source) (slot : Nat) : LineM Value := do
  let plain : Value := ⟨false, ← place l src.reg, inputSwizzle l src⟩
  let s := scratch l slot
  let computed (negate : Bool) : Value := ⟨negate, s, .identity⟩
  let v := plain.vector
  match src.modifier with
  | .plain => return plain
  | .negate => return { plain with negate := true }
  | .bias | .biasNegate =>
    emit .sub s.target [v, .splat 500]
    return computed (src.modifier = .biasNegate)
  | .sign | .signNegate =>
    emit .add s.target [v, v]
    emit .sub s.target [s.whole, .splat 1000]
    return computed (src.modifier = .signNegate)
  | .comp =>
    emit .sub s.target [.splat 1000, v]
    return computed false
  | .x2 | .x2Negate =>
    emit .add s.target [v, v]
    return computed (src.modifier = .x2Negate)
  | .abs | .absNegate =>
    emit .abs s.target [v]
    return computed (src.modifier = .absNegate)
  | .dz | .dw | .not => throw (lacking l (.sourceModifier src.modifier))

/-- The source at a position, which is also the number of its scratch register. -/
def sourceAt (i : Instruction) (n : Nat) : LineM Value := do
  source l (← i.needSrc n) n

def textureOf (n : Nat) : Except Fault Operand :=
  match l.survey.samplers.lookup n with
  | some u => .ok (.texture n u.kind)
  | none => .error (.undeclaredSampler n)

def textureAt (i : Instruction) : Except Fault Operand :=
  match i.src? 1 with
  | some s => textureOf l s.reg.index
  | none => .error (.missingSampler i.opcode)

def destination (l : Layout) (i : Instruction) : Except Fault Target := do
  let d ← i.needDst
  let p ← place l d.reg
  return ⟨p, if d.mask.isFull then [] else d.mask.components⟩

end ShaderPipeline.Assembly
