import ScriptHost.Proofs.Binding.Moment
import ScriptHost.Proofs.Homes.Talk

/-! Sessions with a diary. Whatever a step of a session runs on a machine is a talk, and so are the
host functions of a program, which run no scripts at all; so that each step can be taken with a
diary. -/

namespace ScriptHost

variable {H : Type}

/-! ### Work that leaves lists and classes alone -/

theorem Machine.Rests.dispatch (keep : ForeignId → H → H) (r : Routine) (m : Machine H) :
    m.Rests ((r.dispatch keep).run m).2 := by
  rw [Routine.dispatch_run]
  cases m.decodeArguments r.params with
  | error f => exact .refl m
  | ok args =>
    dsimp only
    have marked : m.Rests ((r.call args m.heap).mark keep m) := by
      have lists := Heap.setPayloads_lists m.heap (r.call args m.heap).writes
      have classes := Heap.setPayloads_classes m.heap (r.call args m.heap).writes
      unfold Effect.mark
      cases (r.call args m.heap).keeps <;> exact ⟨rfl, lists, classes⟩
    refine marked.trans ?_
    obtain same | ⟨v, same⟩ := (r.call args m.heap).outcome.land_machine r.returns
      ((r.call args m.heap).mark keep m)
    · rw [same]
      exact .refl _
    · rw [same]
      exact .onVm _ rfl

theorem Machine.Rests.newForeign {m n : Machine H} {slot classSlot : Nat} {payload : Payload}
    {id : ForeignId} (made : m.newForeign? slot classSlot payload = some (id, n)) : m.Rests n := by
  unfold Machine.newForeign? at made
  cases there : m.slotForeignClass? classSlot with
  | none =>
    rw [there] at made
    cases made
  | some classId =>
    rw [there] at made
    cases made
    exact ⟨rfl, rfl, rfl⟩

namespace Surroundings

theorem runEntry_rests (e : Entry) (m : Machine Surroundings) : m.Rests (runEntry e m) := by
  have stopped {n : Machine Surroundings} (rests : m.Rests n) (f : BoundaryFault) :
      m.Rests (stop n f) := rests.trans ⟨rfl, rfl, rfl⟩
  cases e with
  | routine r =>
    rw [runEntry_dispatch]
    have rests := Machine.Rests.dispatch keep r m
    revert rests
    generalize (r.dispatch keep).run m = result
    obtain ⟨_ | _, n⟩ := result
    · exact fun rests => stopped rests _
    · exact id
  | maker maker =>
    unfold runEntry allocate
    dsimp only
    cases maker.make with
    | error message => exact stopped (.refl m) _
    | ok payload =>
      dsimp only
      cases made : m.newForeign? 0 0 payload with
      | none => exact stopped (.refl m) _
      | some result => exact .newForeign made

theorem runs_rests (f : HostFunction) (m : Machine Surroundings) : m.Rests (runs f m) := by
  unfold runs
  cases f with
  | entry point =>
    dsimp only
    cases m.host.registry.find? point with
    | none => exact .onVm m rfl
    | some e => exact runEntry_rests e m
  | method key | allocator className => exact .refl m

/-- A host function of a program is work alone. -/
def talk (f : HostFunction) : Talk Surroundings Unit := .only (modify (runs f))

theorem talk_gentle (f : HostFunction) : (talk f).Gentle :=
  Talk.gentle_only (.modify (runs_rests f))

theorem talk_host : Talk.host callbacks talk = host := by
  refine congrArg (Host.mk callbacks) (funext fun f => funext fun engine => ?_)
  unfold talk
  rw [Talk.run_only]
  exact funext fun m => (host_run f engine m).symm

end Surroundings

/-! ### What an embedding program does -/

namespace Client

def settledTalk (run : Talk Surroundings (Except InterpretError Unit)) :
    Talk Surroundings (Except BoundaryFault Unit) := do
  .only (setPending none)
  let result ← run
  let pending ← .only ((·.host.record.pending) <$> get)
  .only (setPending none)
  return result.mapError (cause pending)

def interpretTalk (source : String) : Talk Surroundings (Except BoundaryFault Unit) :=
  settledTalk (.interpret entryModule source .done)

def callTalk (receiver : Value) (signature : String) (params : List HostValue) :
    Talk Surroundings (Except BoundaryFault (Option HostValue)) := do
  if params.length < signatureArity signature then
    return .error (.missingArgument (params.length + 1))
  .only (modify fun m => m.onVm fun vm => (vm.ensureSlots (params.length + 1)).setSlot 0 receiver)
  match ← .only (encodeFrom 1 params) with
  | .error f => return .error f
  | .ok () =>
    match ← settledTalk (.call signature .done) with
    | .error f => return .error f
    | .ok () =>
      .only do
        return match (← get).decode 0 .any with
          | .error f => .error f
          | .ok .null => .ok none
          | .ok value => .ok (some value)

variable (engine : Engine Surroundings)

theorem settledTalk_run (run : Talk Surroundings (Except InterpretError Unit)) :
    (settledTalk run).run engine = settled (run.run engine) := by
  unfold settledTalk settled
  simp only [Talk.run_bind, Talk.run_only, Talk.run_pure]
  rfl

theorem interpretTalk_run (source : String) :
    (interpretTalk source).run engine = interpret engine source := by
  unfold interpretTalk interpret
  rw [settledTalk_run, Talk.run_interpret]

theorem callTalk_run (receiver : Value) (signature : String) (params : List HostValue) :
    (callTalk receiver signature params).run engine = call engine receiver signature params := by
  rw [call_eq]
  unfold callTalk
  split
  · rfl
  simp only [Talk.run_bind, Talk.run_only]
  refine bind_congr fun _ => bind_congr fun encoded => ?_
  cases encoded with
  | error f => rfl
  | ok =>
    dsimp only
    rw [Talk.run_bind, settledTalk_run, Talk.run_call]
    refine bind_congr fun result => ?_
    cases result with
    | error f => rfl
    | ok => exact Talk.run_only engine _

theorem setPending_gentle (f : Option BoundaryFault) : Live.Gentle (setPending f) :=
  fun _ => ⟨rfl, rfl, rfl⟩

theorem settledTalk_gentle {run : Talk Surroundings (Except InterpretError Unit)}
    (gentle : run.Gentle) : (settledTalk run).Gentle :=
  Talk.gentle_bind (Talk.gentle_only (setPending_gentle none)) fun _ =>
    Talk.gentle_bind gentle fun _ =>
      Talk.gentle_bind (Talk.gentle_only (Live.Gentle.reading _)) fun _ =>
        Talk.gentle_bind (Talk.gentle_only (setPending_gentle none)) fun _ => trivial

theorem interpretTalk_gentle (source : String) : (interpretTalk source).Gentle :=
  settledTalk_gentle fun _ => trivial

theorem encodeFrom_gentle (slot : Nat) (params : List HostValue) :
    Live.Gentle (encodeFrom slot params) := by
  induction params generalizing slot with
  | nil => exact Live.Gentle.reading _
  | cons value rest ih =>
    refine fun m => .get_bind ?_
    unfold Machine.encode
    cases value.toValue slot with
    | error f => exact .refl m
    | ok v => exact (Machine.Rests.onVm m rfl).trans (ih (slot + 1) _)

theorem callTalk_gentle (receiver : Value) (signature : String) (params : List HostValue) :
    (callTalk receiver signature params).Gentle := by
  unfold callTalk
  split
  · trivial
  refine Talk.gentle_bind (Talk.gentle_only (.modify fun m => .onVm m rfl)) fun _ => ?_
  refine Talk.gentle_bind (Talk.gentle_only (encodeFrom_gentle 1 params)) fun encoded => ?_
  cases encoded with
  | error f => trivial
  | ok =>
    refine Talk.gentle_bind (settledTalk_gentle fun _ => trivial) fun result => ?_
    cases result with
    | error f => trivial
    | ok => exact Talk.gentle_only (Live.Gentle.reading _)

end Client

/-! ### Steps -/

/-- A talk that a step of a session is about. -/
structure Job where
  name : String
  vm : Vm
  record : VmRecord
  {α : Type}
  talk : Talk Surroundings (Except BoundaryFault α)
  result : α → StepResult

namespace Job

/-- The host of a program, with a diary. -/
def host : Host (Diaried Surroundings) := Talk.notedHost Surroundings.callbacks Surroundings.talk

/-- The talk with a diary that is blank. -/
def noted (j : Job) (m : Machine Surroundings) :
    EStateM.Result Halt (Machine (Diaried Surroundings)) (Except BoundaryFault j.α) :=
  j.talk.noted (Diaried.engine host programDepth) (Diaried.beside m [])

theorem noted_told {j : Job} (gentle : j.talk.Gentle) (m : Machine Surroundings) :
    let ended := Live.machine (j.noted m)
    Diaried.forget (j.noted m) = j.talk.run Program.engine m ∧
    ended.vm.core = m.vm.core ∧
    ∀ note ∈ ended.host.diary, note.home.core = m.vm.core ∧
      ended.heap.InModule note.classId note.home.moduleName := by
  obtain ⟨same, core, -, notes⟩ := Diaried.talk_noted
    (fun f => (Surroundings.talk_gentle f).mild) gentle.mild programDepth m
  rw [Surroundings.talk_host] at same
  exact ⟨same, core, notes⟩

end Job

namespace Program

/-- What a step talks about with a machine: a script or a call. -/
def job? (p : Program) : Step → Option Job
  | .on name errand =>
    match p.machines.get? name with
    | none => none
    | some (vm, record) =>
      match errand with
      | .call value signature params => (p.values.get? value).map fun v =>
        ⟨name, vm, record, Client.callTalk v signature params, .returned⟩
      | other => ((Step.on name other).text? p.files).map fun source =>
        ⟨name, vm, record, Client.interpretTalk source, fun _ => .done⟩
  | _ => none

/-- A machine that is there has work once a source is interpreted on it. -/
theorem exists_job?_interpret {p : Program} {name : String}
    (there : (p.machines.get? name).isSome = true) (source : String) :
    ∃ j, p.job? (.on name (.interpret source)) = some j := by
  obtain ⟨⟨vm, record⟩, found⟩ := Option.isSome_iff_exists.mp there
  unfold job?
  dsimp only
  rw [found]
  exact ⟨_, rfl⟩

/-- The step of a job, if the job is done in some way. -/
def finish (p : Program) (j : Job) (act : Client (Except BoundaryFault j.α)) :
    StepReport × Program :=
  let (w, p) := p.work j.name j.vm j.record act
  (reported j.result w, p)

/-- A step with a diary that is blank, and the notes made. -/
def stepNoted (p : Program) (s : Step) : (StepReport × Program) × List Note :=
  match p.job? s with
  | none => (p.step s, [])
  | some j =>
    (p.finish j fun m => Diaried.forget (j.noted m),
      (Live.machine (j.noted (p.started j.vm j.record))).host.diary)

/-- A session with a diary, the latest note first. -/
def stepsNoted : Program → List Step → (List StepReport × Program) × List Note
  | p, [] => (([], p), [])
  | p, s :: rest =>
    let ((r, p), notes) := p.stepNoted s
    let ((rs, p), later) := stepsNoted p rest
    ((r :: rs, p), later ++ notes)

/-- A step without a job runs no scripts; all others are their jobs. -/
theorem step_job (p : Program) (s : Step) :
    match p.job? s with
    | none => ∀ engine, p.stepOn engine s = p.step s
    | some j => (∃ errand, s = .on j.name errand) ∧
      p.machines.get? j.name = some (j.vm, j.record) ∧ j.talk.Gentle ∧
      p.step s = p.finish j (j.talk.run engine) := by
  unfold step stepOn job?
  cases s with
  | on name errand =>
    dsimp only
    cases found : p.machines.get? name with
    | none => exact fun _ => rfl
    | some there =>
      obtain ⟨vm, record⟩ := there
      have script (source : String) :
          (∃ e, Step.on name errand = .on name e) ∧
          p.machines.get? name = some (vm, record) ∧ (Client.interpretTalk source).Gentle ∧
            p.runSource engine name vm record source =
              p.finish ⟨name, vm, record, Client.interpretTalk source, fun _ => .done⟩
                ((Client.interpretTalk source).run engine) := by
        refine ⟨⟨errand, rfl⟩, found, Client.interpretTalk_gentle source, ?_⟩
        rw [Client.interpretTalk_run]
        rfl
      cases errand with
      | call value signature params =>
        unfold runErrand
        dsimp only
        cases held : p.values.get? value with
        | none => exact fun _ => rfl
        | some v =>
          refine ⟨⟨_, rfl⟩, found, Client.callTalk_gentle v signature params, ?_⟩
          dsimp only
          rw [Client.callTalk_run]
          rfl
      | interpret source => exact script source
      | interpretBytes bytes =>
        unfold runErrand Step.text?
        dsimp only
        cases Files.readText (fun _ => .ok bytes) "" with
        | error f => exact fun _ => rfl
        | ok source => exact script source
      | interpretFile path =>
        unfold runErrand Step.text?
        dsimp only
        cases p.files.readText path with
        | error f => exact fun _ => rfl
        | ok source => exact script source
      | _ => exact fun _ => rfl
  | _ => exact fun _ => rfl

/-- The diary changes nothing. -/
theorem stepNoted_step (p : Program) (s : Step) : (p.stepNoted s).1 = p.step s := by
  have job := step_job p s
  unfold stepNoted
  revert job
  cases p.job? s with
  | none => exact fun _ => rfl
  | some j =>
    rintro ⟨-, -, gentle, same⟩
    exact (congrArg (p.finish j) (funext fun m => (Job.noted_told gentle m).1)).trans same.symm

theorem stepsNoted_cons (p : Program) (s : Step) (rest : List Step) :
    p.stepsNoted (s :: rest) =
      (((p.stepNoted s).1.1 :: ((p.stepNoted s).1.2.stepsNoted rest).1.1,
        ((p.stepNoted s).1.2.stepsNoted rest).1.2),
      ((p.stepNoted s).1.2.stepsNoted rest).2 ++ (p.stepNoted s).2) := rfl

theorem stepsNoted_steps (p : Program) (ss : List Step) : (p.stepsNoted ss).1 = p.steps ss := by
  induction ss generalizing p with
  | nil => rfl
  | cons s rest ih =>
    rw [stepsNoted_cons, stepNoted_step, ih]
    rfl

theorem stepsNoted_append (p : Program) (ss ts : List Step) :
    (p.stepsNoted (ss ++ ts)).2 =
      ((p.steps ss).2.stepsNoted ts).2 ++ (p.stepsNoted ss).2 := by
  induction ss generalizing p with
  | nil => exact (List.append_nil _).symm
  | cons s rest ih =>
    rw [List.cons_append, stepsNoted_cons, stepsNoted_cons, stepNoted_step, ih, List.append_assoc]
    rfl

/-- The notes of a session from its start, the latest first. -/
def diary (files : Files) (ss : List Step) : List Note := ((start files).stepsNoted ss).2

theorem diary_append (files : Files) (ss : List Step) (s : Step) :
    diary files (ss ++ [s]) = ((after files ss).stepNoted s).2 ++ diary files ss := by
  unfold diary
  rw [stepsNoted_append]
  rfl

end Program
end ScriptHost
