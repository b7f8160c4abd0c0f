import Mathlib.Tactic
import ShaderPipeline.Device.Drawing

/-!
# What operations do to a device

Every operation of a device is given in closed form: the device afterwards as a function of the
device before, with the calls it made. Statements about runs follow from these without looking
into the operations again.
-/

namespace ShaderPipeline.Device

open Option

variable {vertex pixel : Option CompiledShader} {d : Device} {p : LinkedProgram}

def say (d : Device) (cs : List Call) : Device := { d with calls := cs.foldl Array.push d.calls }

section Say

variable (d : Device) (cs : List Call)

@[simp] theorem say_nil : d.say [] = d := rfl

@[simp] theorem say_say (cs' : List Call) : (d.say cs).say cs' = d.say (cs ++ cs') := by
  simp [say]

@[simp] theorem calls_say : (d.say cs).calls.toList = d.calls.toList ++ cs := by
  simp [say]

@[simp] theorem driver_say : (d.say cs).driver = d.driver := rfl
@[simp] theorem profile_say : (d.say cs).profile = d.profile := rfl
@[simp] theorem registers_say : (d.say cs).registers = d.registers := rfl
@[simp] theorem generation_say : (d.say cs).generation = d.generation := rfl
@[simp] theorem bound_say : (d.say cs).bound = d.bound := rfl
@[simp] theorem linkCache_say : (d.say cs).linkCache = d.linkCache := rfl
@[simp] theorem store_say : (d.say cs).store = d.store := rfl

end Say

/-! ### Running operations

A run of an operation is a pair: its result and the device afterwards. -/

section Runs

variable {α β : Type}

theorem run_bind (x : DeviceM α) (f : α → DeviceM β) (d : Device) :
    (x >>= f).run d = (f (x.run d).1).run (x.run d).2 := rfl

theorem run_get_bind (f : Device → DeviceM β) (d : Device) :
    (get >>= f).run d = (f d).run d := rfl

theorem run_pure (a : α) (d : Device) : (pure a : DeviceM α).run d = (a, d) := rfl

theorem run_modify (f : Device → Device) (d : Device) :
    (modify f : DeviceM Unit).run d = ((), f d) := rfl

theorem op_bind (x : DeviceOp α) (f : α → DeviceOp β) (d : Device) :
    (x >>= f).run.run d =
      match x.run.run d with
      | (.ok a, d') => (f a).run.run d'
      | (.error e, d') => (.error e, d') := by
  rcases h : x.run.run d with ⟨r, d'⟩
  have h' : (x >>= f).run.run d =
      (ExceptT.bindCont f (x.run.run d).1).run (x.run.run d).2 := rfl
  rw [h', h]
  cases r <;> rfl

theorem op_lift_bind (x : DeviceM α) (f : α → DeviceOp β) (d : Device) :
    ((liftM x : DeviceOp α) >>= f).run.run d = (f (x.run d).1).run.run (x.run d).2 := rfl

theorem op_get_bind (f : Device → DeviceOp β) (d : Device) :
    ((get : DeviceOp Device) >>= f).run.run d = (f d).run.run d := rfl

theorem op_set_bind (d' : Device) (f : PUnit → DeviceOp β) (d : Device) :
    ((set d' : DeviceOp PUnit) >>= f).run.run d = (f ⟨⟩).run.run d' := rfl

end Runs

def withStore (d : Device) (s : Store) : Device := { d with store := s }

@[simp] theorem store_withStore (d : Device) (s : Store) : (d.withStore s).store = s := rfl
@[simp] theorem profile_withStore (d : Device) (s : Store) :
    (d.withStore s).profile = d.profile := rfl
@[simp] theorem driver_withStore (d : Device) (s : Store) :
    (d.withStore s).driver = d.driver := rfl
@[simp] theorem registers_withStore (d : Device) (s : Store) :
    (d.withStore s).registers = d.registers := rfl
@[simp] theorem generation_withStore (d : Device) (s : Store) :
    (d.withStore s).generation = d.generation := rfl
@[simp] theorem bound_withStore (d : Device) (s : Store) : (d.withStore s).bound = d.bound := rfl

@[simp] theorem emit_run (c : Call) (d : Device) : (emit c).run d = ((), d.say [c]) := rfl

@[simp] theorem emitAll_run (cs : List Call) (d : Device) :
    (emitAll cs).run d = ((), d.say cs) := rfl

@[simp] theorem modifyStore_run (f : Store → Store) (d : Device) :
    (modifyStore f).run d = ((), d.withStore (f d.store)) := rfl

def nextName (d : Device) : Nat := d.driver.issue d.issued

def named (d : Device) : Device := { d with issued := d.issued + 1 }

@[simp] theorem driver_named (d : Device) : d.named.driver = d.driver := rfl
@[simp] theorem profile_named (d : Device) : d.named.profile = d.profile := rfl
@[simp] theorem store_named (d : Device) : d.named.store = d.store := rfl

@[simp] theorem freshName_run (d : Device) : freshName.run d = (d.nextName, d.named) := rfl

@[simp] theorem useProgram_run (p : Option LinkedProgram) (d : Device) :
    (useProgram p).run d = ((), d.say (useCalls d.profile.isGlsl (namesOf p))) := rfl

/-! ### Collecting -/

variable (glsl : Bool) (code : LoweredShader) (stage : Stage) (start : Nat) (name : Nat)

def deletions (rs : List Released) : List Call :=
  rs.flatMap fun
    | .shader n => [if glsl then .deleteShader n else .deleteProgramArb n]
    | .program n => if glsl then [.deleteProgram n] else []

theorem deleteReleased_run (r : Released) (d : Device) :
    (deleteReleased r).run d = ((), d.say (deletions d.profile.isGlsl [r])) := by
  cases r with
  | shader n => rfl
  | program n =>
    simp only [deleteReleased, run_get_bind, deletions]
    cases d.profile.isGlsl <;> rfl

theorem deleteAll_run (rs : List Released) (d : Device) :
    (deleteAll rs).run d = ((), d.say (deletions d.profile.isGlsl rs)) := by
  induction rs generalizing d with
  | nil => rfl
  | cons r rest ih =>
    simp only [deleteAll, run_bind, deleteReleased_run, ih, say_say]
    simp [deletions]

def collected (d : Device) : Device :=
  { d with store := { d.store with released := [] } }.say
    (deletions d.profile.isGlsl d.store.released)

@[simp] theorem collect_run (d : Device) : collect.run d = ((), d.collected) := by
  exact deleteAll_run _ _

/-! ### Registers -/

def written (d : Device) (files : RegisterFiles) : Device :=
  { d with registers := files, generation := d.generation + 1 }

theorem setFloats_run (values : List Binary32) (d : Device) :
    (setFloats stage start values).run d =
      ((), d.written (d.registers.modifyStage stage fun r =>
        { r with floats := writeRegisters 4 r.floats start values })) := by
  simp only [setFloats, touch, run_bind, run_modify, written]

theorem setInts_run (values : List Int32) (d : Device) :
    (setInts stage start values).run d =
      ((), d.written (d.registers.modifyStage stage fun r =>
        { r with ints := writeRegisters 4 r.ints start values })) := by
  simp only [setInts, touch, run_bind, run_modify, written]

theorem setBools_run (values : List Int32) (d : Device) :
    (setBools stage start values).run d =
      ((), d.written (d.registers.modifyStage stage fun r =>
        { r with
          bools :=
            writeRegisters 1 r.bools start (values.map fun v => if v = 0 then 0 else 1) })) := by
  simp only [setBools, touch, run_bind, run_modify, written]

theorem setBump_run (unit : Nat) (values : List Binary32) (d : Device) :
    (setBump unit values).run d =
      ((), if 1 ≤ unit ∧ unit ≤ bumpStageCount then d.written (d.registers.setBump unit values)
        else d) := by
  by_cases h : 1 ≤ unit ∧ unit ≤ bumpStageCount
  · simp only [setBump, touch, written, h, and_self, if_true, run_bind, run_modify]
  · simp only [setBump, h, if_false, run_pure]

/-! ### Compiling -/

def failed (d : Device) (e : DeviceError) : Device := { d with lastError := e.message }

theorem recording_run {α : Type} (op : DeviceOp α) (d : Device) :
    (recording op).run.run d =
      match op.run.run d with
      | (.ok a, d) => (.ok a, d)
      | (.error e, d) => (.error e, d.failed e) := by
  rcases h : op.run.run d with ⟨r, d'⟩
  simp only [recording, ExceptT.run_mk, run_bind, h]
  cases r <;> rfl

def sourceCalls : List Call :=
  if glsl then [.createShader (shaderKind stage) name, .shaderSource name code.output]
  else [.genProgramArb name, .bindProgramArb (programTarget stage) name,
    .programStringArb (programTarget stage) code.output]

def refusalCalls : List Call :=
  if glsl then [.deleteShader name]
  else [.bindProgramArb (programTarget stage) 0, .deleteProgramArb name]

/-- Why the driver refuses a shader, if it does. -/
def refusal? (d : Device) (name : Nat) : Option DeviceError :=
  if d.profile.isGlsl then (d.driver.compileFailure name).map .compile
  else (d.driver.assemblyFailure name).map fun f => .arb1Compile f.1 f.2

/-- Why a shader is not even handed to the driver, if so. -/
def unfit? (d : Device) (code : LoweredShader) : Option DeviceError :=
  match code.diagnostics with
  | e :: _ => some (.notLowered e.text)
  | [] =>
    if code.profile ≠ d.profile then some (.wrongProfile code.profile d.profile)
    else if code.stage?.isNone then some .noVersion
    else none

theorem compileSource_run (d : Device) :
    (if d.profile.isGlsl then compileGlsl code stage else compileAssembly code stage).run.run d =
      match d.refusal? d.nextName with
      | none => (.ok d.nextName, d.named.say (sourceCalls d.profile.isGlsl code stage d.nextName))
      | some e => (.error e, d.named.say (sourceCalls d.profile.isGlsl code stage d.nextName ++
          refusalCalls d.profile.isGlsl stage d.nextName)) := by
  cases hg : d.profile.isGlsl with
  | true =>
    simp only [if_true, compileGlsl, op_lift_bind, op_get_bind, freshName_run, emit_run, refusal?,
      hg, driver_say, driver_named]
    cases d.driver.compileFailure d.nextName <;> rfl
  | false =>
    simp only [Bool.false_eq_true, if_false, compileAssembly, op_lift_bind, op_get_bind,
      freshName_run, emit_run, refusal?, hg, driver_say, driver_named]
    cases d.driver.assemblyFailure d.nextName <;> rfl

theorem compileLowered_cases (d : Device) :
    (∃ e, d.collected.unfit? code = some e ∧
      (compileLowered code).run.run d = (.error e, d.collected.failed e)) ∨
    ∃ stage, d.collected.unfit? code = none ∧ code.stage? = some stage ∧
      ((∃ e, d.collected.refusal? d.collected.nextName = some e ∧
        (compileLowered code).run.run d = (.error e, (d.collected.named.say
            (sourceCalls d.profile.isGlsl code stage d.collected.nextName ++
              refusalCalls d.profile.isGlsl stage d.collected.nextName)).failed e)) ∨
      (d.collected.refusal? d.collected.nextName = none ∧
        (compileLowered code).run.run d =
          (.ok (d.collected.store.addShader d.collected.nextName stage code).1,
            (d.collected.named.say
              (sourceCalls d.profile.isGlsl code stage d.collected.nextName)).withStore
                (d.collected.store.addShader d.collected.nextName stage code).2))) := by
  have hprofile : d.profile = d.collected.profile := rfl
  simp only [compileLowered, op_lift_bind, collect_run, recording_run, hprofile]
  generalize d.collected = d
  unfold unfit?
  cases code.diagnostics with
  | cons e rest => exact Or.inl ⟨_, rfl, rfl⟩
  | nil =>
    simp only [op_get_bind]
    by_cases hp : code.profile = d.profile
    · simp only [hp, ne_eq, not_true_eq_false, if_false]
      cases hs : code.stage? with
      | none => exact Or.inl ⟨_, rfl, rfl⟩
      | some stage =>
        refine Or.inr ⟨stage, rfl, rfl, ?_⟩
        have hsource := compileSource_run code stage d
        cases hg : d.profile.isGlsl <;>
          simp only [hg, if_true, Bool.false_eq_true, if_false, op_bind] at hsource ⊢
        all_goals
          rw [hsource]
          cases d.refusal? d.nextName with
          | none => exact Or.inr ⟨rfl, rfl⟩
          | some e => exact Or.inl ⟨e, rfl, rfl⟩
    · simp only [hp, ne_eq, not_false_eq_true, if_true]
      exact Or.inl ⟨_, rfl, rfl⟩

theorem compile_run (bytes : Bytes) (options : Options) (d : Device) :
    (compile bytes options).run.run d =
      (compileLowered (d.cache.get d.profile options bytes).2.1).run.run
        { d with cache := (d.cache.get d.profile options bytes).2.2 } := rfl

/-! ### Linking -/

def createCalls (shaders : List CompiledShader) : List Call :=
  .createProgram name :: shaders.map (fun s => .attachShader name s.name) ++ [.linkProgram name]

def joined (d : Device) (vertex pixel : Option CompiledShader) : Nat × Device :=
  if d.profile.isGlsl then
    (d.nextName, d.named.say (createCalls d.nextName (vertex.toList ++ pixel.toList)))
  else (max (wrap32 (d.pairs + 1)) 1, { d with pairs := max (wrap32 (d.pairs + 1)) 1 })

theorem linkNames_cases (vertex pixel : Option CompiledShader) (d : Device) :
    (d.profile.isGlsl = true ∧ ∃ log, d.driver.linkFailure d.nextName = some log ∧
      (linkNames vertex pixel).run.run d = (.error (.link log), d.named.say
        (createCalls d.nextName (vertex.toList ++ pixel.toList) ++
          [.deleteProgram d.nextName]))) ∨
    (linkNames vertex pixel).run.run d =
      (.ok (d.joined vertex pixel).1, (d.joined vertex pixel).2) := by
  unfold linkNames joined
  rw [op_get_bind]
  cases hg : d.profile.isGlsl with
  | false => exact Or.inr rfl
  | true =>
    simp only [if_true, op_lift_bind, freshName_run, emit_run, emitAll_run, say_say]
    cases d.driver.linkFailure d.nextName with
    | none => exact Or.inr rfl
    | some log =>
      simp only [op_lift_bind, emit_run, say_say]
      exact Or.inl ⟨trivial, log, rfl, rfl⟩

def draft (d : Device) (name : Nat) (vertex pixel : Option CompiledShader) : LinkedProgram :=
  programOf d (d.store.addProgram vertex pixel (d.generation - 1)).1
    ⟨name, nameOf vertex, nameOf pixel⟩ vertex pixel

theorem linkShaders_run (h : ¬(vertex.isNone = true ∧ pixel.isNone = true)) (d : Device) :
    (linkShaders vertex pixel).run.run d =
      match (linkNames vertex pixel).run.run d with
      | (.error e, d') => (.error e, d')
      | (.ok name, d') =>
        match attributePlaces d' name (vertex.elim [] (·.code.attributes)) [] with
        | .error e => (.error e, d'.withStore
            ((d'.store.addProgram vertex pixel (d'.generation - 1)).2.dropProgram
              (d'.draft name vertex pixel)))
        | .ok attributes => (.ok { d'.draft name vertex pixel with attributes },
            (d'.withStore (d'.store.addProgram vertex pixel (d'.generation - 1)).2).say
              (setupCalls d' ⟨name, nameOf vertex, nameOf pixel⟩
                (vertex.toList ++ pixel.toList))) := by
  unfold linkShaders
  rw [if_neg h]
  rw [op_bind]
  rcases (linkNames vertex pixel).run.run d with ⟨r, d'⟩
  cases r with
  | error e => rfl
  | ok name =>
    simp only [op_get_bind, op_set_bind]
    cases attributePlaces d' name (vertex.elim [] (·.code.attributes)) [] <;> rfl

/-- Linking finds no shader, is refused by the driver, fails at an attribute, or gives a
program. -/
theorem link_cases (vertex pixel : Option CompiledShader) (d : Device) :
    (vertex = none ∧ pixel = none ∧
      (link vertex pixel).run.run d = (.error .nothingToLink, d.failed .nothingToLink)) ∨
    (d.profile.isGlsl = true ∧ ∃ log, d.driver.linkFailure d.nextName = some log ∧
      (link vertex pixel).run.run d = (.error (.link log), (d.named.say
        (createCalls d.nextName (vertex.toList ++ pixel.toList) ++
          [.deleteProgram d.nextName])).failed (.link log))) ∨
    ∃ name d', d.joined vertex pixel = (name, d') ∧
      ((∃ e, (link vertex pixel).run.run d = (.error e, (d'.withStore
        ((d'.store.addProgram vertex pixel (d'.generation - 1)).2.dropProgram
          (d'.draft name vertex pixel))).failed e)) ∨
      ∃ attributes, (link vertex pixel).run.run d =
        (.ok { d'.draft name vertex pixel with attributes },
          (d'.withStore (d'.store.addProgram vertex pixel (d'.generation - 1)).2).say
            (setupCalls d' ⟨name, nameOf vertex, nameOf pixel⟩
              (vertex.toList ++ pixel.toList)))) := by
  simp only [link, recording_run]
  by_cases hnone : vertex.isNone = true ∧ pixel.isNone = true
  · refine Or.inl ⟨isNone_iff_eq_none.mp hnone.1, isNone_iff_eq_none.mp hnone.2, ?_⟩
    simp only [linkShaders, hnone, and_self, if_true]
    rfl
  · refine Or.inr ?_
    rw [linkShaders_run hnone]
    rcases linkNames_cases vertex pixel d with ⟨hg, log, hlog, hrun⟩ | hrun
    · rw [hrun]
      exact Or.inl ⟨hg, log, hlog, rfl⟩
    · rcases hj : d.joined vertex pixel with ⟨name, d'⟩
      rw [hj] at hrun
      rw [hrun]
      refine Or.inr ⟨name, d', rfl, ?_⟩
      dsimp only
      cases attributePlaces d' name (vertex.elim [] (·.code.attributes)) [] with
      | error e => exact Or.inl ⟨e, rfl⟩
      | ok attributes => exact Or.inr ⟨attributes, rfl⟩

theorem exists_of_link {d' : Device} (h : (link vertex pixel).run.run d = (.ok p, d')) :
    ∃ name, ∃ e : Device, ∃ attributes, p = { e.draft name vertex pixel with attributes } ∧
      d' = (e.withStore (e.store.addProgram vertex pixel (e.generation - 1)).2).say
        (setupCalls e ⟨name, nameOf vertex, nameOf pixel⟩ (vertex.toList ++ pixel.toList)) := by
  rcases link_cases vertex pixel d with ⟨-, -, hrun⟩ | ⟨-, log, -, hrun⟩ |
      ⟨name, e, -, ⟨fault, hrun⟩ | ⟨attributes, hrun⟩⟩ <;> rw [h] at hrun
  · cases hrun
  · cases hrun
  · cases hrun
  · exact ⟨name, e, attributes, Except.ok.inj (Prod.mk.inj hrun).1, (Prod.mk.inj hrun).2⟩

theorem shaders_of_link {d' : Device} (h : (link vertex pixel).run.run d = (.ok p, d')) :
    p.vertex = vertex ∧ p.pixel = pixel := by
  obtain ⟨name, e, attributes, rfl, -⟩ := exists_of_link h
  exact ⟨rfl, rfl⟩

/-! ### Binding and deleting -/

def enablingCalls (d : Device) : List Call :=
  (List.range d.trackedArrays).flatMap fun i =>
    arrayCalls i (d.wanted.getD i false) (d.enabled.getD i false)

def arranged (d : Device) : Device :=
  { d.say d.enablingCalls with
    enabled := (List.range d.trackedArrays).foldl
      (fun e i => e.setIfInBounds i (d.wanted.getD i false)) d.enabled
    trackedArrays := match ((List.range d.trackedArrays).filter
        fun i => d.wanted.getD i false).getLast? with
      | some i => i + 1
      | none => 0 }

@[simp] theorem updateArrays_run (d : Device) : updateArrays.run d = ((), d.arranged) := rfl

/-- A device that wants no array. -/
def cleared (d : Device) : Device :=
  { d with
    wanted := (List.range d.trackedArrays).foldl (fun w i => w.setIfInBounds i false) d.wanted }

def switched (d : Device) (p : Option LinkedProgram) : Device :=
  { (if p.isNone then d.cleared.arranged else d.cleared).say
      (useCalls d.profile.isGlsl (namesOf p)) with
    bound := p }

theorem bindHeld_run (p : Option LinkedProgram) (d : Device) :
    (bindHeld p).run d =
      ((), if sameProgram p d.bound then d.withStore (d.store.dropProgram? p)
        else ((d.switched p).withStore ((d.switched p).store.dropProgram? d.bound)).collected) := by
  unfold bindHeld
  rw [run_get_bind]
  cases sameProgram p d.bound with
  | true => rfl
  | false =>
    simp only [Bool.false_eq_true, if_false]
    cases p with
    | none =>
      simp only [isNone_none, if_true, run_bind, run_modify, updateArrays_run,
        useProgram_run, modifyStore_run, collect_run]
      rfl
    | some p =>
      simp only [isNone_some, Bool.false_eq_true, if_false, run_bind, run_modify,
        useProgram_run, modifyStore_run, collect_run]
      rfl

theorem bind_run (p : Option LinkedProgram) (d : Device) :
    (bind p).run d = (bindHeld p).run (d.withStore (d.store.holdProgram? p)) := rfl

theorem bindShaders_none (d : Device) :
    (bindShaders none none).run.run d = (.ok (), ((bindHeld none).run d).2) := rfl

theorem bindShaders_run (h : ¬(vertex.isNone = true ∧ pixel.isNone = true)) (d : Device) :
    (bindShaders vertex pixel).run.run d =
      match d.cached? vertex pixel with
      | some p => (.ok (), ((bind (some p)).run d).2)
      | none =>
        match (link vertex pixel).run.run d with
        | (.error e, d') => (.error e, d')
        | (.ok p, d') => (.ok (), ((bind (some p)).run { d' with
            linkCache := d'.linkCache ++ [((nameOf vertex, nameOf pixel), p)] }).2) := by
  unfold bindShaders
  rw [if_neg h, op_get_bind]
  cases d.cached? vertex pixel with
  | some p => rfl
  | none =>
    rw [op_bind]
    rcases (link vertex pixel).run.run d with ⟨r, d'⟩
    cases r <;> rfl

/-- Whatever holds after each of the ways to bind a pair holds after binding it. -/
theorem bindShaders_induct {P : Device → Prop} (hnone : P ((bindHeld none).run d).2)
    (hkept : ∀ p, d.cached? vertex pixel = some p → P ((bind (some p)).run d).2)
    (herror : ∀ e d', (link vertex pixel).run.run d = (.error e, d') → P d')
    (hlink : ∀ p d', (link vertex pixel).run.run d = (.ok p, d') → P ((bind (some p)).run { d' with
      linkCache := d'.linkCache ++ [((nameOf vertex, nameOf pixel), p)] }).2) :
    P ((bindShaders vertex pixel).run.run d).2 := by
  by_cases h : vertex.isNone = true ∧ pixel.isNone = true
  · rw [isNone_iff_eq_none.mp h.1, isNone_iff_eq_none.mp h.2, bindShaders_none]
    exact hnone
  · rw [bindShaders_run h]
    cases hcached : d.cached? vertex pixel with
    | some p => exact hkept p hcached
    | none =>
      rcases hrun : (link vertex pixel).run.run d with ⟨e | p, d'⟩
      · exact herror e d' hrun
      · exact hlink p d' hrun

theorem deleteShader_run (s : CompiledShader) (d : Device) :
    (deleteShader s).run d =
      ((), ({ d with
        linkCache := d.linkCache.filter fun e => !e.2.uses s
        store := (dropPrograms d.store
          ((d.linkCache.filter fun e => e.2.uses s).map (·.2))).dropShader s } :
            Device).collected) := by
  unfold deleteShader
  simp only [List.partition_eq_filter_filter, run_bind, run_modify, collect_run]
  rfl

theorem deleteProgram_run (p : LinkedProgram) (d : Device) :
    (deleteProgram p).run d = ((), (d.withStore (d.store.dropProgram p)).collected) := by
  simp only [deleteProgram, run_bind, modifyStore_run, collect_run]

/-! ### Drawing -/

theorem setAttribute_cases (s : Semantic) (f : ArrayFormat) (d : Device) :
    (setAttribute s f).run d = ((), d) ∨ ∃ i type, i < d.wanted.size ∧
      (setAttribute s f).run d =
        ((), { d.say [.vertexAttribPointer i f.size type f.normalized f.stride f.offset] with
          wanted := d.wanted.setIfInBounds i true
          trackedArrays := max d.trackedArrays (i + 1) }) := by
  unfold setAttribute
  rw [run_get_bind]
  cases d.attributeArray? s with
  | none => exact Or.inl rfl
  | some i =>
    dsimp only
    by_cases h : i < d.wanted.size
    · rw [if_pos h]
      exact Or.inr ⟨i, f.type.code d.capabilities, h, rfl⟩
    · rw [if_neg h]
      exact Or.inl rfl

theorem setDivisor_cases (s : Semantic) (divisor : Nat) (d : Device) :
    (∃ e, (setDivisor s divisor).run.run d = (.error e, d.failed e)) ∨
    (setDivisor s divisor).run.run d = (.ok (), d) ∨
    ∃ i, i < d.divisors.size ∧ d.divisors.getD i 0 ≠ divisor ∧
      (setDivisor s divisor).run.run d =
        (.ok (), { d.say [.vertexAttribDivisor i divisor] with
          divisors := d.divisors.setIfInBounds i divisor }) := by
  unfold setDivisor
  rw [recording_run, op_get_bind]
  cases d.capabilities.has [.arbInstancedArrays] with
  | false => exact Or.inl ⟨_, rfl⟩
  | true =>
    refine Or.inr ?_
    cases d.attributeArray? s with
    | none => exact Or.inl rfl
    | some i =>
      dsimp only
      by_cases h : i < d.divisors.size ∧ d.divisors.getD i 0 ≠ divisor
      · rw [if_pos h]
        exact Or.inr ⟨i, h.1, h.2, rfl⟩
      · rw [if_neg h]
        exact Or.inl rfl

def sized (d : Device) (p : LinkedProgram) : Device :=
  if p.setsPointSize ≠ d.pointSize then
    { d.say [if p.setsPointSize then .enable pointSizeEnum else .disable pointSizeEnum] with
      pointSize := p.setsPointSize }
  else d

@[simp] theorem updatePointSize_run (p : LinkedProgram) (d : Device) :
    (updatePointSize p).run d = ((), d.sized p) := by
  unfold updatePointSize sized
  rw [run_get_bind]
  split_ifs <;> rfl

theorem updateUniforms_of_missing (h : d.store.shadows[p.id]? = none) :
    (updateUniforms p).run d = ((), d) := by
  unfold updateUniforms
  rw [run_get_bind, h]
  rfl

/-- The shadow of a program is brought up if registers were written since, and sent if that
changed it. -/
theorem updateUniforms_run {shadow : Shadow} {values : PerStage StageUniforms} {changed : Bool}
    (hs : d.store.shadows[p.id]? = some shadow)
    (hr : p.refresh d.registers shadow.values = (values, changed)) :
    (updateUniforms p).run d =
      ((), if p.hasUniforms && shadow.generation != d.generation then
        (d.withStore { d.store with
          shadows := d.store.shadows.setIfInBounds p.id ⟨d.generation, values⟩ }).say
            (if changed then d.uploads p values else [])
      else d) := by
  unfold updateUniforms
  rw [run_get_bind, hs]
  dsimp only
  cases hc : p.hasUniforms && shadow.generation != d.generation with
  | false => rfl
  | true =>
    rw [if_pos rfl, hr]
    cases changed <;> rfl

theorem ready_run (d : Device) :
    ready.run d =
      match d.bound with
      | none => ((), d)
      | some p => (updateUniforms p).run (d.arranged.sized p) := by
  unfold ready
  rw [run_get_bind]
  cases d.bound with
  | none => rfl
  | some p => simp only [run_bind, updateArrays_run, updatePointSize_run]

/-! ### Creation -/

/-- A new device that has made no call. -/
def blank (driver : Driver) (config : Config) : Device where
  driver := driver
  capabilities := .ofDriver driver
  profile := config.profile
  cache := default
  vertexSamplerOffset := samplerOffset driver config.vertexTextures
  registers := .zero
  generation := 0
  bound := none
  linkCache := []
  wanted := Array.replicate (min config.vertexArrays maxVertexArrays) false
  enabled := Array.replicate (min config.vertexArrays maxVertexArrays) false
  divisors := Array.replicate (min config.vertexArrays maxVertexArrays) 0
  trackedArrays := 0
  pointSize := false
  lastError := ""
  store := .empty
  pairs := 0
  issued := 0
  calls := #[]

/-- A device starts with no program current. -/
theorem eq_of_create {driver : Driver} {config : Config} (h : Device.create driver config = .ok d) :
    d = (blank driver config).say (useCalls config.profile.isGlsl (namesOf none)) := by
  simp only [Device.create] at h
  cases hcheck : (Capabilities.ofDriver driver).check config.profile with
  | error e =>
    rw [hcheck] at h
    simp [Bind.bind, Except.bind] at h
  | ok _ =>
    rw [hcheck] at h
    exact (Except.ok.inj h).symm

end ShaderPipeline.Device
