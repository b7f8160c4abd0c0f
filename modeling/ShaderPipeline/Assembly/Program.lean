import ShaderPipeline.Assembly.Instruction

/-!
# Programs in assembly
-/

namespace ShaderPipeline.Assembly

/-- One declaration in front of a program. -/
inductive HeaderLine where
  | start (stage : Stage) (profile : Profile)
  | option (name : String)
  /-- The local parameters that constants are fed through. -/
  | locals (name : String) (count : Nat)
  | constant (name : String) (value : Quad Binary32)
  | constantArray (name : String) (rows : List (Quad Binary32))
  | input (name : String) (register : Nat)
  | output (name binding : String)
  | temporaries (names : List String)
  | addresses (names : List String)

def vectorText (v : Quad Binary32) : String :=
  "\x7b " ++ ", ".intercalate (v.map floatLiteral).toList ++ " \x7d"

def startWord : Stage → Profile → String
  | .vertex, .nv4 => "!!NVvp4.0"
  | .pixel, .nv4 => "!!NVfp4.0"
  | .vertex, _ => "!!ARBvp1.0"
  | .pixel, _ => "!!ARBfp1.0"

def HeaderLine.text : HeaderLine → String
  | start s p => startWord s p ++ "\n"
  | option name => s!"OPTION {name};\n"
  | locals name count =>
    s!"PARAM {name}[{count}] = " ++ "\x7b" ++ s!" program.local[0..{count - 1}] " ++ "\x7d;\n"
  | constant name v => s!"PARAM {name} = " ++ vectorText v ++ ";\n"
  | constantArray name rows =>
    s!"PARAM {name}[{rows.length}] = " ++ "\x7b " ++ ", ".intercalate (rows.map vectorText) ++
      " \x7d;\n"
  | input name n => s!"ATTRIB {name} = vertex.attrib[{n}];\n"
  | output name binding => s!"OUTPUT {name} = {binding};\n"
  | temporaries names => "TEMP " ++ ", ".intercalate names ++ ";\n"
  | addresses names => "ADDRESS " ++ ", ".intercalate names ++ ";\n"

variable (l : Layout)

def optionLines : List HeaderLine :=
  let vendor :=
    match l.profile, l.stage with
    | .nv2, .vertex => [HeaderLine.option "NV_vertex_program2"]
    | .nv3, .vertex => [.option "NV_vertex_program3"]
    | .nv2, .pixel | .nv3, .pixel => [.option "NV_fragment_program2"]
    | _, _ => []
  vendor ++
    if l.survey.features.multipleTargets then [.option "ARB_draw_buffers"] else []

def localLines : List HeaderLine :=
  if 0 < l.vectorCount then [.locals s!"{l.tag}_uniforms" l.vectorCount] else []

def constantLines : List HeaderLine :=
  l.survey.floatUsed.filterMap fun n =>
    (l.survey.floatDefs.lookup n).map fun v => .constant s!"{l.tag}_c{n}" v

def arrayRows (u : Uniform) : List (Quad Binary32) :=
  (List.range' u.index u.arrayCount).map fun n =>
    (l.survey.floatDefs.lookup n).getD (.splat .zero)

def constantArrayLines : List HeaderLine :=
  (l.arrays.filter (·.constant)).map fun u => .constantArray (u.name l.stage) (arrayRows l u)

def inputLines : List HeaderLine :=
  match l.stage with
  | .vertex => l.survey.inputs.map fun i => .input s!"{l.tag}_v{i.1}" i.1
  | .pixel => []

def colorBinding : Nat → Except Fault String
  | 0 => .ok "result.color.primary"
  | 1 => .ok "result.color.secondary"
  | n => .error (lacking l (.colorOutput n))

def outputBinding (o : Output) : Except Fault String :=
  match o.file, o.semantic with
  | .colorOut, _ =>
    if l.survey.features.multipleTargets then .ok s!"result.color[{o.index}]"
    else .ok "result.color"
  | .attrOut, _ => colorBinding l o.index
  | .texCoordOut, _ => .ok s!"result.texcoord[{o.index}]"
  | _, ⟨.position, 0⟩ => .ok "result.position"
  | _, ⟨.fog, _⟩ => .ok "result.fogcoord"
  | _, ⟨.pointSize, _⟩ => .ok "result.pointsize"
  | _, ⟨.color, n⟩ => colorBinding l n
  | _, ⟨.texCoord, n⟩ => .ok s!"result.texcoord[{n}]"
  | _, s => .error (lacking l (.output s))

/-- The outputs that are declared: all but a depth, and none in the first pixel models. -/
def declaredOutputs : List Output :=
  if l.version.isEarlyPixel then [] else l.survey.outputs.filter (·.file != .depthOut)

def outputLine (o : Output) : Except Fault HeaderLine := do
  let name ← outputName l.tag o.file o.index
  return .output name (← outputBinding l o)

def writesDepth : Bool := (l.survey.output? .depthOut 0).isSome

/-- The temporaries, the scratch registers last. -/
def temporaryNames : List String :=
  l.survey.temps.map (fun n => s!"{l.tag}_r{n}") ++
    (if l.textureIsVarying then [] else l.survey.textures.map fun n => s!"{l.tag}_t{n}") ++
    (if writesDepth l then [s!"{l.tag}_oDepth"] else []) ++
    (List.range scratchCount).map fun n => (scratch l n).text

/-- The address registers, which only vertex programs have. -/
def addressLines : Except Fault (List HeaderLine) :=
  if l.survey.addresses.isEmpty then .ok []
  else if isPixel l then .error (lacking l .relativeInFragment)
  else .ok [.addresses (l.survey.addresses.map fun n => s!"{l.tag}_a{n}")]

def header : Except Fault (List HeaderLine) := do
  if !l.survey.intUsed.isEmpty then
    throw (lacking l .intConstants)
  if !l.survey.boolUsed.isEmpty then
    throw (lacking l .boolConstants)
  let outputs ← (declaredOutputs l).mapM (outputLine l)
  let addresses ← addressLines l
  return [.start l.stage l.profile] ++ optionLines l ++ localLines l ++ constantLines l ++
    constantArrayLines l ++ inputLines l ++ outputs ++ [.temporaries (temporaryNames l)] ++
    addresses

/-- The lines that give the results of the first pixel models, and the depth. -/
def epilogue : List Line :=
  if l.version.isEarlyPixel then
    [⟨.mov, false, some ⟨.named "result.color", []⟩, [(Place.named s!"{l.tag}_r0").whole]⟩]
  else if writesDepth l then
    [⟨.mov, false, some ⟨.named "result.depth", [.z]⟩,
      [(Place.named s!"{l.tag}_oDepth").pick [.x]]⟩]
  else []

/-- A program: declarations and lines. -/
structure Program where
  header : List HeaderLine
  lines : List Line

def Program.text (p : Program) : String :=
  String.join (p.header.map HeaderLine.text) ++ String.join (p.lines.map Line.text) ++ "END\n"

/-- The faults found so far and the lines written, both the last one first. -/
structure Progress where
  faults : List Located
  lines : List Line

def Progress.step (p : Progress) (i : Instruction) : Progress :=
  match instructionLines l i with
  | .ok lines => ⟨p.faults, lines.reverse ++ p.lines⟩
  | .error fault => ⟨(fault, some i.position) :: p.faults, p.lines⟩

/-- Writes a program, with the faults of its declarations and of the instructions that could not
be written. -/
def ofInstructions (is : List Instruction) : Program × List Located :=
  let p := is.foldl (Progress.step l) ⟨[], []⟩
  let lines := p.lines.reverse ++ epilogue l
  match header l with
  | .ok h => (⟨h, lines⟩, p.faults.reverse)
  | .error fault => (⟨[], lines⟩, (fault, none) :: p.faults.reverse)

end ShaderPipeline.Assembly
