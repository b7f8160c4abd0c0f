import ShaderPipeline.Assembly.Operand

/-!
# Instructions in assembly

Each instruction becomes a few lines. The last of them stores the result; a result shift, or a
saturation in a vertex program, is applied to a scratch register before.
-/

namespace ShaderPipeline.Assembly

/-- The scratch register that holds a result before it is modified. -/
def resultScratch : Nat := 4

def workScratch : Nat := 5

def spareScratch : Nat := 3

def scratchCount : Nat := 6

variable (l : Layout) (i : Instruction)

def isPixel : Bool := l.stage == .pixel

def store (op : Operation) (operands : List Operand) :
    LineM Unit := do
  if i.predicate.isSome then
    throw (lacking l .predication)
  let d ← destination l i
  let saturate := i.result.saturate
  match i.result.shift.factor?, saturate && !isPixel l with
  | none, false => modify (· ++ [⟨op, saturate, some d, operands⟩])
  | factor, _ =>
    let s := scratch l resultScratch
    emit op s.target operands
    if let some n := factor then
      emit .mul s.target [s.whole, .splat n]
    if !saturate then
      emit .mov d [s.whole]
    else if isPixel l then
      modify (· ++ [⟨.mov, true, some d, [s.whole]⟩])
    else
      emit .max s.target [s.whole, .splat 0]
      emit .min d [s.whole, .splat 1000]

/-- Stops unless the profile has the vendor instructions. -/
def needVendor (f : Feature) : LineM Unit := do
  if !l.profile.hasVendorOps then
    throw (lacking l f)

def vectorOperation? : Opcode → Option (Operation × Nat)
  | .mov => some (.mov, 1)
  | .add => some (.add, 2)
  | .sub => some (.sub, 2)
  | .mad => some (.mad, 3)
  | .mul => some (.mul, 2)
  | .dp3 => some (.dp3, 2)
  | .dp4 => some (.dp4, 2)
  | .min => some (.min, 2)
  | .max => some (.max, 2)
  | .slt => some (.slt, 2)
  | .sge => some (.sge, 2)
  | .lit => some (.lit, 1)
  | .dst => some (.dst, 2)
  | .frc => some (.frc, 1)
  | .abs => some (.abs, 1)
  | .crs => some (.xpd, 2)
  | _ => none

def scalarOperation? (stage : Stage) : Opcode → Option (Operation × Nat)
  | .rcp => some (.rcp, 1)
  | .rsq => some (.rsq, 1)
  | .exp => some (.ex2, 1)
  | .expPartial => some (if stage = .vertex then .exp else .ex2, 1)
  | .log => some (.lg2, 1)
  | .logPartial => some (if stage = .vertex then .log else .lg2, 1)
  | .pow => some (.pow, 2)
  | _ => none

/-- The first sources of an instruction. -/
def sources (l : Layout) (i : Instruction) (count : Nat) : LineM (List Value) :=
  (List.range count).mapM fun n => sourceAt l i n

def threeSources : LineM (Value × Value × Value) := do
  let a ← sourceAt l i 0
  let b ← sourceAt l i 1
  let c ← sourceAt l i 2
  return (a, b, c)

/-- Sets an address register to the first component of a source, rounded down. -/
def setAddress : LineM Unit := do
  let a ← sourceAt l i 0
  emit .arl (← destination l i) [a.scalar]

def roundAddress : LineM Unit := do
  let work := scratch l workScratch
  let a ← sourceAt l i 0
  let d ← destination l i
  if l.profile.hasVendorOps then
    emit .arr d [a.vector]
  else
    emit .add work.target [a.vector, .splat 500]
    emit .arl d [work.pick [.x]]

def interpolate : LineM Unit := do
  let work := scratch l workScratch
  let (a, b, c) ← threeSources l i
  if isPixel l then
    store l i .lrp [a.vector, b.vector, c.vector]
  else
    emit .sub work.target [b.vector, c.vector]
    store l i .mad [a.vector, work.whole, c.vector]

def matrixRows (l : Layout) (op : Operation) (vector : Operand) (matrix : Source) :
    (row count : Nat) → LineM Unit
  | _, 0 => return
  | row, count + 1 => do
    let r ← source l { matrix with reg := matrix.reg.shift row } 1
    emit op ⟨scratch l workScratch, [.ofIndex row]⟩ [vector, r.vector]
    matrixRows l op vector matrix (row + 1) count

def multiply (op : Operation) (rows : Nat) : LineM Unit := do
  let v ← sourceAt l i 0
  match i.src? 1 with
  | none => throw (.missingMatrix i.opcode)
  | some m =>
    matrixRows l op v.vector m 0 rows
    store l i .mov [(scratch l workScratch).whole]

def sign (l : Layout) (i : Instruction) : LineM Unit := do
  let work := scratch l workScratch
  let low := scratch l spareScratch
  let a ← sourceAt l i 0
  if l.profile.hasVendorOps then
    store l i .ssg [a.vector]
  else
    emit .slt work.target [.splat 0, a.vector]
    emit .slt low.target [a.vector, .splat 0]
    store l i .sub [work.whole, low.whole]

def normalize : LineM Unit := do
  let work := scratch l workScratch
  let v := (← sourceAt l i 0).vector
  emit .dp3 ⟨work, [.w]⟩ [v, v]
  emit .rsq ⟨work, [.w]⟩ [work.pick [.w]]
  store l i .mul [v, work.pick [.w]]

def sineCosine : LineM Unit := do
  let work := scratch l workScratch
  let a ← sourceAt l i 0
  if isPixel l then
    store l i .scs [a.scalar]
  else
    needVendor l (.opcode .sinCos)
    emit .cos ⟨work, [.x]⟩ [a.scalar]
    emit .sin ⟨work, [.y]⟩ [a.scalar]
    store l i .mov [work.whole]

def choose : LineM Unit := do
  let work := scratch l workScratch
  let difference := scratch l spareScratch
  let (a, b, c) ← threeSources l i
  if isPixel l then
    store l i .cmp [a.vector, c.vector, b.vector]
  else
    emit .sge work.target [a.vector, .splat 0]
    emit .sub difference.target [b.vector, c.vector]
    store l i .mad [work.whole, difference.whole, c.vector]

def chooseAboveHalf : LineM Unit := do
  let work := scratch l workScratch
  if !isPixel l then
    throw (lacking l (.opcodeInVertex .cnd))
  let (a, b, c) ← threeSources l i
  emit .sub work.target [a.vector, .splat 500]
  store l i .cmp [work.whole, c.vector, b.vector]

def twoProductAdd : LineM Unit := do
  let work := scratch l workScratch
  let (a, b, c) ← threeSources l i
  emit .mul work.target [a.vector, b.vector]
  emit .add ⟨work, [.x]⟩ [work.pick [.x], work.pick [.y]]
  store l i .add [work.pick [.x], c.scalar]

def derivative (op : Operation) : LineM Unit := do
  needVendor l .derivatives
  store l i op [(← sourceAt l i 0).vector]

/-- Drops the fragment when a component of a register is negative. -/
def kill : LineM Unit := do
  match i.dst? with
  | none => throw .killWithoutRegister
  | some d =>
    let p ← place l d.reg
    modify (· ++ [⟨.kil, false, none, [p.pick [.x, .y, .z, .z]]⟩])

def load : LineM Unit := do
  let work := scratch l workScratch
  let coord := (← sourceAt l i 0).vector
  let texture ← textureAt l i
  if isPixel l then
    let op : Operation :=
      match i.control % 4 with
      | 1 => .txp
      | 2 => .txb
      | _ => .tex
    store l i op [coord, texture]
  else
    needVendor l .vertexTexture
    emit .mov work.target [coord]
    emit .mov ⟨work, [.w]⟩ [.splat 0]
    store l i .txl [work.whole, texture]

def loadLevel : LineM Unit := do
  needVendor l (.opcode .texLdl)
  let coord := (← sourceAt l i 0).vector
  store l i .txl [coord, ← textureAt l i]

def loadGradient : LineM Unit := do
  needVendor l (.opcode .texLdd)
  let coord := (← sourceAt l i 0).vector
  let dx := (← sourceAt l i 2).vector
  let dy := (← sourceAt l i 3).vector
  store l i .txd [coord, dx, dy, ← textureAt l i]

/-- Loads the coordinate of a stage, or from its texture, in the first pixel models. -/
def earlyTexture : LineM Unit := do
  let n := (← i.needDst).reg.index
  let coord ←
    match i.src? 0 with
    | some src => do pure (← source l src 0).vector
    | none => pure (Place.named (coordinateText n)).whole
  if i.opcode = .texCoord then
    let d ← destination l i
    modify (· ++ [⟨.mov, l.version.minor < 4, some d, [coord]⟩])
  else
    store l i .tex [coord, ← textureOf l n]

def bump (l : Layout) (i : Instruction) : LineM Unit := do
  let work := scratch l workScratch
  let scale := scratch l spareScratch
  let n := (← i.needDst).reg.index
  let src := (← sourceAt l i 0).place
  match l.bumpSlot? n with
  | none => throw (.noBumpEnvironment n)
  | some slot =>
    let matrix := Place.named s!"{l.tag}_uniforms[{slot}]"
    let luminance := Place.named s!"{l.tag}_uniforms[{slot + 1}]"
    let texture ← textureOf l n
    emit .mad work.target [src.pick [.x, .x, .x, .x], matrix.pick [.x, .y, .x, .y],
      (Place.named (coordinateText n)).whole]
    emit .mad work.target [src.pick [.y, .y, .y, .y], matrix.pick [.z, .w, .z, .w], work.whole]
    if i.opcode = .texBem then
      store l i .tex [work.whole, texture]
    else
      emit .tex work.target [work.whole, texture]
      modify (· ++ [⟨.mad, true, some ⟨scale, [.x]⟩,
        [src.pick [.z], luminance.pick [.x], luminance.pick [.y]]⟩])
      emit .mul ⟨work, [.x, .y, .z]⟩ [work.whole, scale.pick [.x]]
      store l i .mov [work.whole]

def loadAt (cs : List Component) : LineM Unit := do
  let n := (← i.needDst).reg.index
  let src := (← sourceAt l i 0).place
  store l i .tex [src.pick cs, ← textureOf l n]

def padRow : LineM Unit := do
  let n := (← i.needDst).reg.index
  let row := (← sourceAt l i 0).vector
  store l i .dp3 [(Place.named (coordinateText n)).whole, row]

/-- Multiplies the coordinate of a stage with the last row of a matrix, and loads at the products
of all rows. -/
def lastRow : LineM Unit := do
  let work := scratch l workScratch
  let n := (← i.needDst).reg.index
  let row := (← sourceAt l i 0).vector
  let loaded (k : Nat) : Operand := (Place.named s!"{l.tag}_t{k}").pick [.x]
  emit .mov work.target [.splat 0]
  let last : Component ←
    match i.opcode with
    | .texM3x2Tex =>
      if n < 1 then throw (Fault.missingPadRows)
      emit .mov ⟨work, [.x]⟩ [loaded (n - 1)]
      pure .y
    | .texM3x3Tex | .texM3x3 =>
      if n < 2 then throw (Fault.missingPadRows)
      emit .mov ⟨work, [.x]⟩ [loaded (n - 2)]
      emit .mov ⟨work, [.y]⟩ [loaded (n - 1)]
      pure .z
    | _ => pure .x
  emit .dp3 ⟨work, [last]⟩ [(Place.named (coordinateText n)).whole, row]
  if i.opcode = .texM3x3 then
    emit .mov ⟨work, [.w]⟩ [.splat 1000]
    store l i .mov [work.whole]
  else
    store l i .tex [work.whole, ← textureOf l n]

/-- Writes the lines of an instruction that is not a single operation. -/
def expanded : LineM Unit :=
  match i.opcode with
  | .comment | .stop | .phase | .nop | .dcl | .defFloat | .defInt | .defBool => return
  | .mova => roundAddress l i
  | .lrp => interpolate l i
  | .m4x4 => multiply l i .dp4 4
  | .m4x3 => multiply l i .dp4 3
  | .m3x4 => multiply l i .dp3 4
  | .m3x3 => multiply l i .dp3 3
  | .m3x2 => multiply l i .dp3 2
  | .sgn => sign l i
  | .nrm => normalize l i
  | .sinCos => sineCosine l i
  | .cmp => choose l i
  | .cnd => chooseAboveHalf l i
  | .dp2Add => twoProductAdd l i
  | .dsx => derivative l i .ddx
  | .dsy => derivative l i .ddy
  | .texKill => kill l i
  | .tex => if l.version.isEarlyPixel then earlyTexture l i else load l i
  | .texCoord => earlyTexture l i
  | .texLdl => loadLevel l i
  | .texLdd => loadGradient l i
  | .texBem | .texBemL => bump l i
  | .texReg2Ar => loadAt l i [.w, .x, .x, .x]
  | .texReg2Gb => loadAt l i [.y, .z, .z, .z]
  | .texReg2Rgb => loadAt l i [.x, .y, .z, .z]
  | .texM3x2Pad | .texM3x3Pad | .texDp3 => padRow l i
  | .texM3x2Tex | .texM3x3Tex | .texM3x3 | .texDp3Tex => lastRow l i
  | .unknown n => throw (.unknownOpcode n)
  | op => throw (lacking l (.opcode op))

def writeInstruction : LineM Unit := do
  match vectorOperation? i.opcode, scalarOperation? l.stage i.opcode with
  | some (op, count), _ =>
    if i.opcode = .mov ∧ i.dst?.map (·.reg.file) = some .addr then
      setAddress l i
    else
      store l i op ((← sources l i count).map Value.vector)
  | none, some (op, count) => store l i op ((← sources l i count).map Value.scalar)
  | none, none => expanded l i

def instructionLines : Except Fault (List Line) := do
  return (← (writeInstruction l i).run []).2

end ShaderPipeline.Assembly
