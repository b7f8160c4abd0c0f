import ShaderPipeline.Glsl.Operand

/-!
# Values of instructions

`Scope.value` is the expression an instruction assigns to its destination, before the result
modifier is applied.
-/

namespace ShaderPipeline.Glsl

/-- How a texture is sampled. -/
inductive SampleMode where
  | plain
  | project
  | bias
  | level
  | gradient (dx dy : Expr)

namespace Scope

variable (s : Scope) (i : Instruction)

def sampleFunction (kind : SamplerKind) (mode : SampleMode) :
    Except Fault Builtin := do
  let embedded := s.layout.profile == .glslEs
  let base ←
    match kind with
    | .flat => pure "texture2D"
    | .cube => pure "textureCube"
    | .volume =>
      if embedded then throw (Fault.unsupported .volumeTexture s.layout.profile)
      else pure "texture3D"
  match mode with
  | .plain | .bias => return .sample base
  | .project => return .sample (base ++ "Proj")
  | .level =>
    return .sample (base ++ if embedded && s.layout.stage == .pixel then "LodEXT" else "Lod")
  | .gradient _ _ => return .sample (base ++ if embedded then "GradEXT" else "GradARB")

def coordinates : SamplerKind → List Component
  | .flat => [.x, .y]
  | .cube | .volume => [.x, .y, .z]

def samplerKind (n : Nat) : Except Fault SamplerKind :=
  match s.layout.survey.samplers.lookup n with
  | some u => .ok u.kind
  | none => .error (.undeclaredSampler n)

def sample (n : Nat) (coord : Expr) (mode : SampleMode) : Except Fault Expr := do
  let kind ← s.samplerKind n
  let f ← s.sampleFunction kind mode
  let sampler := Expr.name s!"{s.tag}_s{n}"
  let place (e : Expr) : Expr := e.pick (coordinates kind)
  match mode with
  | .plain => return .call f [sampler, place coord]
  | .project =>
    if kind = .cube then return .call f [sampler, .binary .div coord.xyz coord.w]
    else return .call f [sampler, coord]
  | .bias | .level => return .call f [sampler, place coord, coord.w]
  | .gradient dx dy => return .call f [sampler, place coord, place dx, place dy]

/-- The products of a vector with the rows of a matrix, as far as `count` rows go. -/
def matrixRows (s : Scope) (vector : Expr) (matrix : Source) (threeWide : Bool) :
    (row count : Nat) → Except Fault (List Expr)
  | _, 0 => return []
  | row, count + 1 => do
    let e ← s.source { matrix with reg := matrix.reg.shift row }
    let product :=
      if threeWide then Expr.call .dot [vector.xyz, e.xyz] else Expr.call .dot [vector, e]
    return product :: (← s.matrixRows vector matrix threeWide (row + 1) count)

/-- The product of a vector with a matrix; missing rows give zero. -/
def matrix (s : Scope) (i : Instruction) (rows : Nat) (threeWide : Bool) : Except Fault Expr := do
  let vector ← s.sourceAt i 0
  match i.src? 1 with
  | none => throw (.missingMatrix i.opcode)
  | some m =>
    let products ← s.matrixRows vector m threeWide 0 rows
    return .call .vec4 (products ++ List.replicate (4 - rows) .zero)

def comparisonOf : Except Fault Comparison :=
  match i.comparison with
  | .unknown n => .error (.unknownComparison n)
  | c => .ok c

def coordinateOf (n : Nat) : Expr := .name (Semantic.mk .texCoord n).varyingName

/-- The product of a stage's coordinate with the row in the first source. -/
def coordinateProduct (n : Nat) : Except Fault Expr := do
  return .call .dot [(coordinateOf n).xyz, (← s.sourceAt i 0).xyz]

/-- The first component of the value loaded for a stage. -/
def loadedX (n : Nat) : Expr := .name s!"ps_t{n}.x"

def bump (s : Scope) (i : Instruction) : Except Fault Expr := do
  let n := (← i.needDst).reg.index
  let src ← s.sourceAt i 0
  match s.layout.bumpSlot? n with
  | none => throw (.noBumpEnvironment n)
  | some slot =>
    let row (k : Nat) : Expr := .name s!"{s.tag}_uniforms_vec4[{k}]"
    let along (cs : List Component) : Expr := .call .dot [src.xy, .select (row slot) cs]
    let shifted := Expr.binary .add (coordinateOf n).xy
      (.call .vec2 [along [.x, .z], along [.y, .w]])
    let v ← s.sample n (.call .vec4 [shifted, .zero, .zero]) .plain
    if i.opcode = .texBem then return v
    let luminance := row (slot + 1)
    let scaled := Expr.binary .add (.binary .mul (src.pick [.z]) (.select luminance [.x]))
      (.select luminance [.y])
    return .product v
      (.call .vec4 [.call .vec3 [.call .clamp [scaled, .zero, .one]], .one])

/-- The coordinate made of the products in the stages before and of this one's. -/
def paddedCoordinate (n : Nat) : Except Fault Expr := do
  let last ← s.coordinateProduct i n
  match i.opcode with
  | .texM3x2Tex =>
    if 1 ≤ n then return .call .vec4 [loadedX (n - 1), last, .zero, .zero]
    else throw .missingPadRows
  | .texM3x3Tex | .texM3x3 =>
    if 2 ≤ n then return .call .vec4 [loadedX (n - 2), loadedX (n - 1), last, .one]
    else throw .missingPadRows
  | _ => return .call .vec4 [last, .zero, .zero, .zero]

/-- The value of a texture instruction of the first pixel models. -/
def earlyTexture : Except Fault Expr := do
  let n := (← i.needDst).reg.index
  let coord ←
    match i.src? 0 with
    | some src => s.source src
    | none => pure (coordinateOf n)
  if i.opcode = .texCoord then
    if s.layout.version.minor < 4 then return .call .clamp [coord, .zero, .one]
    else return coord
  else s.sample n coord .plain

def load : Except Fault Expr := do
  let coord ← s.sourceAt i 0
  let n := (← i.needSrc 1).reg.index
  match s.layout.stage with
  | .vertex => s.sample n (.call .vec4 [coord.xyz, .zero]) .level
  | .pixel =>
    match i.control % 4 with
    | 1 => s.sample n coord .project
    | 2 => s.sample n coord .bias
    | _ => s.sample n coord .plain

def two (s : Scope) (i : Instruction) (f : Expr → Expr → Expr) : Except Fault Expr := do
  return f (← s.sourceAt i 0) (← s.sourceAt i 1)

def three (f : Expr → Expr → Expr → Expr) : Except Fault Expr := do
  return f (← s.sourceAt i 0) (← s.sourceAt i 1) (← s.sourceAt i 2)

def value (s : Scope) (i : Instruction) : Except Fault Expr := do
  let unary (f : Builtin) : Except Fault Expr := do return .call f [← s.sourceAt i 0]
  let scalar (f : Expr → Expr) : Except Fault Expr := do return .splat (f (← s.scalarAt i 0))
  match i.opcode with
  | .mov =>
    let e ← s.sourceAt i 0
    if (i.dst?.map (·.reg.file)) = some .addr then return .call .ivec4 [.call .floor [e]]
    else return e
  | .mova =>
    let e ← s.sourceAt i 0
    let rounded := Expr.call .floor [.binary .add (.call .abs [e]) (.splat .half)]
    return .call .ivec4 [.binary .mul rounded (.call .sign [e])]
  | .add => s.two i fun a b => .paren (.binary .add a b)
  | .sub => s.two i fun a b => .paren (.binary .sub a b)
  | .mul => s.two i .product
  | .mad => s.three i fun a b c => .paren (.binary .add (.product a b) c)
  | .rcp => scalar fun a => .binary .div .one a
  | .rsq => scalar fun a => .call .inversesqrt [a]
  | .dp3 => s.two i fun a b => .splat (.call .dot [a.xyz, b.xyz])
  | .dp4 => s.two i fun a b => .splat (.call .dot [a, b])
  | .min => s.two i fun a b => .call .min [a, b]
  | .max => s.two i fun a b => .call .max [a, b]
  | .slt => s.two i fun a b => .splat (.call (.compare .lt) [a, b])
  | .sge => s.two i fun a b => .splat (.call (.compare .ge) [a, b])
  | .exp | .expPartial => scalar fun a => .call .exp2 [a]
  | .log | .logPartial => scalar fun a => .call .log2 [.call .abs [a]]
  | .lit => unary .lighting
  | .dst =>
    s.two i fun a b =>
      .call .vec4 [.one, .binary .mul (a.pick [.y]) (b.pick [.y]), a.pick [.z], b.w]
  | .lrp => s.three i fun a b c => .call .mix [c, b, a]
  | .frc => unary .fract
  | .m4x4 => s.matrix i 4 false
  | .m4x3 => s.matrix i 3 false
  | .m3x4 => s.matrix i 4 true
  | .m3x3 => s.matrix i 3 true
  | .m3x2 => s.matrix i 2 true
  | .pow =>
    let a ← s.scalarAt i 0
    let b ← s.scalarAt i 1
    return .splat (.call .pow [.call .abs [a], b])
  | .crs => s.two i fun a b => .call .vec4 [.call .cross [a.xyz, b.xyz], .zero]
  | .sgn => unary .sign
  | .abs => unary .abs
  | .nrm =>
    let a ← s.sourceAt i 0
    return .product a (.call .inversesqrt [.call .dot [a.xyz, a.xyz]])
  | .sinCos =>
    let a ← s.scalarAt i 0
    return .call .vec4 [.call .cos [a], .call .sin [a], .zero, .zero]
  | .cmp =>
    s.three i fun a b c => .call .mix [c, b, .splat (.call (.compare .ge) [a, .splat .zero])]
  | .cnd =>
    s.three i fun a b c => .call .mix [c, b, .splat (.call (.compare .gt) [a, .splat .half])]
  | .dp2Add =>
    let a ← s.sourceAt i 0
    let b ← s.sourceAt i 1
    let c ← s.scalarAt i 2
    return .splat (.binary .add (.call .dot [a.xy, b.xy]) c)
  | .dsx => unary .derivX
  | .dsy => unary .derivY
  | .setPredicate =>
    let c ← comparisonOf i
    s.two i fun a b => .call (.compare c) [a, b]
  | .tex => if s.layout.version.isEarlyPixel then s.earlyTexture i else s.load i
  | .texCoord => s.earlyTexture i
  | .texLdl =>
    let coord ← s.sourceAt i 0
    s.sample (← i.needSrc 1).reg.index coord .level
  | .texLdd =>
    let coord ← s.sourceAt i 0
    let n := (← i.needSrc 1).reg.index
    let dx ← s.sourceAt i 2
    let dy ← s.sourceAt i 3
    s.sample n coord (.gradient dx dy)
  | .texBem | .texBemL => s.bump i
  | .texReg2Ar =>
    let n := (← i.needDst).reg.index
    s.sample n ((← s.sourceAt i 0).pick [.w, .x, .x, .x]) .plain
  | .texReg2Gb =>
    let n := (← i.needDst).reg.index
    s.sample n ((← s.sourceAt i 0).pick [.y, .z, .z, .z]) .plain
  | .texReg2Rgb =>
    let n := (← i.needDst).reg.index
    s.sample n ((← s.sourceAt i 0).pick [.x, .y, .z, .z]) .plain
  | .texM3x2Pad | .texM3x3Pad | .texDp3 =>
    let n := (← i.needDst).reg.index
    return .splat (← s.coordinateProduct i n)
  | .texM3x3 => s.paddedCoordinate i (← i.needDst).reg.index
  | .texM3x2Tex | .texM3x3Tex | .texDp3Tex =>
    let n := (← i.needDst).reg.index
    s.sample n (← s.paddedCoordinate i n) .plain
  | .unknown n => throw (.unknownOpcode n)
  | op => throw (.unsupported (.opcode op) s.layout.profile)

end Scope

def resultValue (m : ResultModifier) (e : Expr) : Expr :=
  let scaled :=
    match m.shift.factor? with
    | none => e
    | some n => .product e (.number n)
  if m.saturate then .call .clamp [scaled, .zero, .one] else scaled

end ShaderPipeline.Glsl
