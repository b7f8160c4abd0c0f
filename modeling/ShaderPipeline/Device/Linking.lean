import ShaderPipeline.Device.Basic

/-!
# Compiling, linking and binding

A pair of shaders is linked once and the program kept for the next time the pair is bound.
-/

namespace ShaderPipeline.Device

/-! ## Compiling -/

variable (d : Device) (code : LoweredShader) (vertex pixel : Option CompiledShader)

def compileGlsl (stage : Stage) : DeviceOp Nat := do
  let name ← freshName
  emit (.createShader (shaderKind stage) name)
  emit (.shaderSource name code.output)
  match (← get).driver.compileFailure name with
  | none => return name
  | some log =>
    emit (.deleteShader name)
    throw (.compile log)

def compileAssembly (stage : Stage) : DeviceOp Nat := do
  let name ← freshName
  let target := programTarget stage
  emit (.genProgramArb name)
  emit (.bindProgramArb target name)
  emit (.programStringArb target code.output)
  match (← get).driver.assemblyFailure name with
  | none => return name
  | some (position, message) =>
    emit (.bindProgramArb target 0)
    emit (.deleteProgramArb name)
    throw (.arb1Compile position message)

def compileLowered : DeviceOp CompiledShader := do
  collect
  recording do
    match code.diagnostics with
    | e :: _ => throw (.notLowered e.text)
    | [] => pure ()
    let profile := (← get).profile
    if code.profile ≠ profile then
      throw (.wrongProfile code.profile profile)
    match code.stage? with
    | none => throw .noVersion
    | some stage =>
      let name ← if profile.isGlsl then compileGlsl code stage else compileAssembly code stage
      let (shader, store) := (← get).store.addShader name stage code
      modify fun d => { d with store }
      return shader

def compile (bytes : Bytes) (options : Options) : DeviceOp CompiledShader := do
  let d ← get
  let (_, code, cache) := d.cache.get d.profile options bytes
  set { d with cache }
  compileLowered code

/-! ## Linking -/

/-- The values of a constant array: the definitions of its registers, zero for those without. -/
def constantArray (u : Uniform) : List Binary32 :=
  let defs := code.constants.filterMap fun c =>
    match c.value with
    | .float v => some (c.index, v)
    | _ => none
  (List.range' u.index u.width).flatMap fun n =>
    ((defs.reverse.lookup n).getD (.splat .zero)).toList

def attributePlace (program : Nat) (a : Attribute) : Int :=
  if d.profile.isGlsl then d.driver.attributeLocation program a.name else a.register

/-- The places of attributes, the last one first. All must be among the vertex arrays; those with a
high index are not kept. -/
def attributePlaces (d : Device) (program : Nat) : (attributes : List Attribute) →
    (found : List (Semantic × Int)) → Except DeviceError (List (Semantic × Int))
  | [], found => .ok found
  | a :: rest, found =>
    let location := attributePlace d program a
    if (maxVertexArrays : Int) ≤ location then .error (.attributeLocation location)
    else if a.semantic.index < usageIndexCount then
      attributePlaces d program rest ((a.semantic, max location (-1)) :: found)
    else attributePlaces d program rest found

def constantCalls (program : Nat) (s : CompiledShader) : List Call :=
  (s.code.uniforms.filter (·.constant)).flatMap fun u =>
    let location := d.driver.uniformLocation program (u.name s.stage)
    if 0 ≤ location then [.uniform4fv location (constantArray s.code u)] else []

def samplerCalls (program : Nat) (s : CompiledShader) : List Call :=
  let offset := match s.stage with
    | .vertex => d.vertexSamplerOffset
    | .pixel => 0
  s.code.samplers.flatMap fun x =>
    let location := d.driver.uniformLocation program (x.name s.stage)
    if 0 ≤ location then [.uniform1i location (Int32.ofNat (x.index + offset))] else []

def needsSetup (s : CompiledShader) : Bool :=
  s.code.uniforms.any (·.constant) || !s.code.samplers.isEmpty

/-- The calls that send what is sent once. The program is made current for that, and then the
bound one again. Assembly programs hold all of it themselves. -/
def setupCalls (names : ProgramNames) (shaders : List CompiledShader) : List Call :=
  if d.profile.isGlsl && shaders.any needsSetup then
    useCalls true names ++
      shaders.flatMap (fun s =>
        constantCalls d names.program s ++ samplerCalls d names.program s) ++
      useCalls true (namesOf d.bound)
  else []

/-- The name of a shader; zero if there is none. -/
def nameOf : Option CompiledShader → Nat
  | some s => s.name
  | none => 0

/-- Links shaders in the driver. Pairs of assembly programs are only counted. -/
def linkNames : DeviceOp Nat := do
  let d ← get
  if d.profile.isGlsl then
    let name ← freshName
    emit (.createProgram name)
    emitAll ((vertex.toList ++ pixel.toList).map fun s => .attachShader name s.name)
    emit (.linkProgram name)
    match d.driver.linkFailure name with
    | none => return name
    | some log =>
      emit (.deleteProgram name)
      throw (.link log)
  else
    let pairs := max (wrap32 (d.pairs + 1)) 1
    set { d with pairs }
    return pairs

def findArrays (program : Nat) (stage : Stage) : ArrayLocations :=
  let find (suffix : String) : Int :=
    d.driver.uniformLocation program (stage.tag ++ "_uniforms_" ++ suffix)
  if d.profile.isGlsl then ⟨find "vec4", find "ivec4", find "bool"⟩ else .absent

/-- A program in all but its attributes. -/
def programOf (id : Nat) (names : ProgramNames) (vertex pixel : Option CompiledShader) :
    LinkedProgram :=
  let shaders := vertex.toList ++ pixel.toList
  { id, names, vertex, pixel
    uniforms := shaders.flatMap fun s =>
      (s.code.uniforms.filter (!·.constant)).map fun u => (s.stage, u)
    attributes := []
    setsPointSize := vertex.any (·.code.usesPointSize)
    bumpCount := ((shaders.filter (·.stage == .pixel)).map (·.code.bumpCount)).sum
    locations := ⟨findArrays d names.program .vertex, findArrays d names.program .pixel⟩ }

/-- Links shaders, of which at least one must be given. The program is held once, for the
caller. -/
def linkShaders : DeviceOp LinkedProgram := do
  if vertex.isNone ∧ pixel.isNone then
    throw .nothingToLink
  let names : ProgramNames := ⟨← linkNames vertex pixel, nameOf vertex, nameOf pixel⟩
  let d ← get
  let (id, store) := d.store.addProgram vertex pixel (d.generation - 1)
  set { d with store }
  let p := programOf d id names vertex pixel
  match attributePlaces d names.program (vertex.elim [] (·.code.attributes)) [] with
  | .error e =>
    modifyStore fun s => s.dropProgram p
    throw e
  | .ok attributes =>
    emitAll (setupCalls d names (vertex.toList ++ pixel.toList))
    return { p with attributes }

def link (vertex pixel : Option CompiledShader) : DeviceOp LinkedProgram :=
  recording (linkShaders vertex pixel)

/-! ## Vertex arrays -/

def arrayCalls (index : Nat) (wanted enabled : Bool) : List Call :=
  if wanted = enabled then []
  else if wanted then [.enableVertexAttribArray index]
  else [.disableVertexAttribArray index]

def updateArrays : DeviceM Unit := do
  let d ← get
  let tracked := List.range d.trackedArrays
  let want (i : Nat) : Bool := d.wanted.getD i false
  emitAll (tracked.flatMap fun i => arrayCalls i (want i) (d.enabled.getD i false))
  modify fun d => { d with
    enabled := tracked.foldl (fun e i => e.setIfInBounds i (want i)) d.enabled
    trackedArrays := match (tracked.filter want).getLast? with
      | some i => i + 1
      | none => 0 }

/-! ## Binding -/

def sameProgram : Option LinkedProgram → Option LinkedProgram → Bool
  | some p, some q => p.id == q.id
  | none, none => true
  | _, _ => false

/-- Binds a program that the caller has held for the device, or none. Vertex arrays are declared
anew for each program. -/
def bindHeld (p : Option LinkedProgram) : DeviceM Unit := do
  let d ← get
  if sameProgram p d.bound then
    modifyStore fun s => s.dropProgram? p
  else
    modify fun d => { d with
      wanted := (List.range d.trackedArrays).foldl (fun w i => w.setIfInBounds i false) d.wanted }
    if p.isNone then
      updateArrays
    useProgram p
    modify fun d' => { d' with bound := p }
    modifyStore fun s => s.dropProgram? d.bound
    collect

/-- Binds a program, or none. -/
def bind (p : Option LinkedProgram) : DeviceM Unit := do
  modifyStore fun s => s.holdProgram? p
  bindHeld p

def cached? : Option LinkedProgram :=
  d.linkCache.lookup (nameOf vertex, nameOf pixel)

/-- Binds the program of a pair of shaders, which is linked when it is first needed. -/
def bindShaders : DeviceOp Unit := do
  if vertex.isNone ∧ pixel.isNone then
    bindHeld none
  else
    match (← get).cached? vertex pixel with
    | some p => bind (some p)
    | none =>
      let p ← link vertex pixel
      modify fun d =>
        { d with linkCache := d.linkCache ++ [((nameOf vertex, nameOf pixel), p)] }
      bind (some p)

/-! ## Deleting -/

def dropPrograms (s : Store) (ps : List LinkedProgram) : Store := ps.foldl Store.dropProgram s

def deleteShader (shader : CompiledShader) : DeviceM Unit := do
  let (gone, kept) := (← get).linkCache.partition fun e => e.2.uses shader
  modify fun d => { d with
    linkCache := kept
    store := (dropPrograms d.store (gone.map (·.2))).dropShader shader }
  collect

def deleteProgram (p : LinkedProgram) : DeviceM Unit := do
  modifyStore fun s => s.dropProgram p
  collect

/-- Ends the device: nothing is bound, and no linked program is kept. -/
def close : DeviceM Unit := do
  bindHeld none
  modify fun d => { d with
    linkCache := []
    store := dropPrograms d.store (d.linkCache.map (·.2)) }
  collect

end ShaderPipeline.Device
