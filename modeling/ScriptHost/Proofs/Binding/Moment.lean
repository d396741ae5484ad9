import ScriptHost.Proofs.Binding.Session

/-! The moments of a session. Between the steps of a session bindings hold together and every class
has its place; and so they do at every moment of the work on a machine, whose names are those of its
program for as long as it works. -/

namespace ScriptHost

def StepReport.fault? (r : StepReport) : Option BoundaryFault :=
  match r.result with
  | .fault f => some f
  | _ => none

def StepReport.panic? (r : StepReport) : Option String :=
  match r.result with
  | .panic message => some message
  | _ => none

def StepReport.text? (r : StepReport) : Option String :=
  match r.result with
  | .returned (some (.text s)) => some s
  | _ => none

def noFiles : Files := fun _ => .error .missing

/-- The texts of a session: what its steps run in the entry module, and for each module the files
that it may be loaded from. -/
def sessionTexts (files : Files) (ss : List Step) : Texts := fun moduleName text =>
  (moduleName = entryModule ∧ ∃ s ∈ ss, s.text? files = some text) ∨
    ∃ directory path, path ∈ moduleCandidates directory moduleName ∧
      files.readText path = .ok text

theorem Client.settled_run {run : Client (Except InterpretError Unit)}
    {m m' : Machine Surroundings} {result : Except InterpretError Unit}
    (quiet : m.host.record.pending = none) (ran : run m = .ok result m') :
    settled run m = .ok (result.mapError (cause m'.host.record.pending))
      { m' with host := m'.host.setPending none } := by
  have same : ({ m with host := m.host.setPending none } : Machine Surroundings) = m := by
    unfold Surroundings.setPending
    rw [← quiet]
  change EStateM.bind run _ { m with host := m.host.setPending none } = _
  unfold EStateM.bind
  rw [same, ran]
  rfl

namespace Program

variable {files : Files} {ss : List Step} {texts : Texts} {p : Program} {name : String}

/-! ### Between steps -/

def after (files : Files) (ss : List Step) : Program := ((start files).steps ss).2

theorem stepsOn_cons (engine : Engine Surroundings) (p : Program) (s : Step) (rest : List Step) :
    p.stepsOn engine (s :: rest) =
      ((p.stepOn engine s).1 :: ((p.stepOn engine s).2.stepsOn engine rest).1,
        ((p.stepOn engine s).2.stepsOn engine rest).2) := rfl

theorem stepsOn_append (engine : Engine Surroundings) (p : Program) (ss ts : List Step) :
    p.stepsOn engine (ss ++ ts) =
      ((p.stepsOn engine ss).1 ++ ((p.stepsOn engine ss).2.stepsOn engine ts).1,
        ((p.stepsOn engine ss).2.stepsOn engine ts).2) := by
  induction ss generalizing p with
  | nil => rfl
  | cons s rest ih =>
    rw [List.cons_append, stepsOn_cons, stepsOn_cons, ih]
    rfl

theorem after_append (files : Files) (ss ts : List Step) :
    after files (ss ++ ts) = ((after files ss).steps ts).2 := by
  unfold after steps
  rw [stepsOn_append]

theorem unguarded (ss : List Step) : List.Forall₂ (Step.GuardedBy False) ss ss :=
  List.forall₂_same.mpr fun s _ => .same s

theorem stepped_start (files : Files) (ss : List Step)
    (within : ∀ moduleName text, sessionTexts files ss moduleName text → texts moduleName text) :
    Stepped False texts (start files) ((start files).steps ss) ((start files).steps ss) := by
  have sound : (start files).Sound texts :=
    sound_start fun candidate read => within _ _ (.inr ⟨_, _, candidate, read⟩)
  refine (sound.paired False.elim).stepsOn (serves_engine _) (unguarded ss) ?_ False.elim
  intro s hs text run
  exact within _ _ (.inl ⟨rfl, s, hs, run⟩)

theorem sound_after (within : ∀ moduleName text, sessionTexts files ss moduleName text →
    texts moduleName text) : (after files ss).Sound texts :=
  (stepped_start files ss within).paired.sound

/-- What a session has, it has for good. -/
theorem leadsTo_after (files : Files) (ss ts : List Step) :
    (after files ss).LeadsTo (after files (ss ++ ts)) := by
  have sound : (after files ss).Sound fun _ _ => True := sound_after fun _ _ _ => trivial
  rw [after_append]
  exact ((sound.paired False.elim).stepsOn (serves_engine _) (unguarded ts)
    (fun _ _ _ _ => trivial) False.elim).leads

/-! ### Within a step -/

/-- A moment of the work on a machine of a program: no fault is on its way. -/
structure Moment (texts : Texts) (p : Program) (name : String) (m : Machine Surroundings) :
    Prop where
  registry : m.host.registry = p.registry
  names : ∃ vm record, p.machines.get? name = some (vm, record) ∧
    m.host.record.methods = record.methods ∧ m.host.record.classes = record.classes
  files : m.host.files = p.files
  sound : m.heap.Sound p.registry
  placed : m.heap.Placed texts
  kept : p.heap.KeptIn m.heap
  quiet : m.host.record.pending = none

theorem Sound.moment_started (sound : p.Sound texts) {vm : Vm} {record : VmRecord}
    (found : p.machines.get? name = some (vm, record)) :
    p.Moment texts name (p.started vm record) :=
  ⟨rfl, ⟨vm, record, found, rfl, rfl⟩, rfl, sound.heap, sound.placed, .refl _,
    (sound.records found).2⟩

/-- The run of a machine of a program, twice the same, from a heap on. -/
def Sound.twin (sound : p.Sound texts) {vm : Vm} {record : VmRecord}
    (found : p.machines.get? name = some (vm, record)) (start : Heap) : Twin :=
  { (sound.paired False.elim).twin found with start }

theorem Sound.twin_other (sound : p.Sound texts) {vm : Vm} {record : VmRecord}
    (found : p.machines.get? name = some (vm, record)) (start : Heap) {m : Machine Surroundings}
    (registry : m.host.registry = p.registry) : (sound.twin found start).other m = m := by
  unfold Twin.other
  change ({ m with host := { m.host with registry := p.registry } } : Machine Surroundings) = m
  rw [← registry]

/-- At each moment the two runs are at the same machine. -/
theorem Moment.going (sound : p.Sound texts) {m : Machine Surroundings}
    (h : p.Moment texts name m) :
    ∃ vm record, ∃ found : p.machines.get? name = some (vm, record),
      (sound.twin found m.heap).simulation.going .id m m := by
  obtain ⟨vm, record, found, methods, classes⟩ := h.names
  refine ⟨vm, record, found, rfl, (sound.twin_other found m.heap h.registry).symm, ?_, h.quiet⟩
  exact ⟨h.registry, methods, classes, h.files, h.sound, h.placed, .refl _⟩

/-- The runs from a moment lead to moments, and lose nothing on the way. -/
theorem Moment.of_going (sound : p.Sound texts) {start m n : Machine Surroundings}
    (h : p.Moment texts name start) {vm : Vm} {record : VmRecord}
    {found : p.machines.get? name = some (vm, record)} {ρ : Renaming}
    (going : (sound.twin found start.heap).simulation.going ρ m n) :
    p.Moment texts name m ∧ start.heap.KeptIn m.heap := by
  obtain ⟨-, -, holds, quiet⟩ := going
  refine ⟨⟨holds.registry, ⟨vm, record, found, holds.methods, holds.classes⟩, holds.files,
    holds.sound, holds.placed, h.kept.trans holds.kept, quiet⟩, holds.kept⟩

/-- What is written in the module of an activation leads from moment to moment. -/
theorem Moment.exec (sound : p.Sound texts) {m m' : Machine Surroundings}
    (h : p.Moment texts name m) (depth : Nat) {s : Stmt} {frame frame' : Frame} {flow : Flow}
    (written : ∀ decl ∈ s.declarations, Written texts frame.moduleName decl)
    (ran : (exec (Surroundings.host.engine depth) s).run.run frame m =
      .ok (.ok flow, frame') m') : p.Moment texts name m' ∧ m.heap.KeptIn m'.heap := by
  obtain ⟨vm, record, found, going⟩ := h.going sound
  have laws := (sound.twin found m.heap).attended.toNesting
  have executed := exec_sim laws.toLawful (engine_alike laws depth) s written frame frame m m
    frame.alike_refl going
  rw [ran] at executed
  obtain ⟨-, -, ⟨going', -⟩⟩ := executed
  exact h.of_going sound going'

theorem Moment.perform (sound : p.Sound texts) {m m' : Machine Surroundings}
    (h : p.Moment texts name m) (depth : Nat) {a : Action} {v : Value}
    (ran : (Surroundings.host.perform depth a).run m = .ok (.ok v) m') :
    p.Moment texts name m' ∧ m.heap.KeptIn m'.heap := by
  obtain ⟨vm, record, found, going⟩ := h.going sound
  have laws := (sound.twin found m.heap).attended.toNesting
  have alike : a.Alike .id a := by
    cases a with
    | send v signature args =>
      exact .send signature (Value.alike_refl v) (Value.allAlike_id.mpr rfl)
    | load name => exact .load name
  have performed := (engine_alike laws depth).perform alike m m going
  change Simulation.Ended _ _ _ ((Surroundings.host.perform depth a).run m)
    ((Surroundings.host.perform depth a).run m) at performed
  rw [ran] at performed
  obtain ⟨-, ⟨going', -⟩⟩ := performed
  exact h.of_going sound going'

/-! ### Reports -/

/-- A run of a script or of a method of a value, as the embedding program asks for it. -/
inductive Asked (texts : Texts) : Client (Except InterpretError Unit) → Prop
  | interpret {source} : texts entryModule source →
    Asked texts (engine.interpret entryModule source)
  | call (signature : String) : Asked texts (engine.call signature)

/-- A run that ends with a fault has left the cause behind. -/
theorem Moment.blamed (sound : p.Sound texts) {m m' : Machine Surroundings}
    (h : p.Moment texts name m) {run : Client (Except InterpretError Unit)}
    (asked : Asked texts run) {e : RuntimeError} (ran : run m = .ok (.error (.runtime e)) m') :
    e.fault.BlamedOn texts m'.host.record.pending := by
  obtain ⟨vm, record, found, going⟩ := h.going sound
  have laws := (sound.twin found m.heap).attended
  have engines := engine_alike laws.toNesting programDepth
  have concluded : (sound.twin found m.heap).simulation.Ended .id
      (sound.twin found m.heap).simulation.Concluded (run m) (run m) := by
    cases asked with
    | interpret text =>
      exact Engine.interpret_sim laws.toReporting engines
        (fun body parsed decl inside => .text text parsed inside) going laws.rewind
    | call signature => exact Engine.call_sim laws.toDriven engines signature going
  rw [ran] at concluded
  obtain ⟨-, ⟨⟩ | ⟨⟩ | ⟨-, -, -, blamed⟩⟩ := concluded
  exact blamed

/-- A run stopped by a foreign member that was not bound is reported with the key of that member,
and with the module if the member has no business there. -/
theorem Moment.unbound_reported (sound : p.Sound texts) {m m' : Machine Surroundings}
    (h : p.Moment texts name m) {run : Client (Except InterpretError Unit)}
    (asked : Asked texts run) {e : RuntimeError} (ran : run m = .ok (.error (.runtime e)) m')
    {signature className moduleName : String}
    (stopped : e.fault = .unknownForeignMethod signature className moduleName) :
    ∃ decl d, Written texts moduleName decl ∧ decl.name = className ∧ d ∈ decl.methods ∧
      d.isForeign ∧ d.signature = signature ∧
      Client.settled run m = .ok
        (.error (if moduleName = entryModule then .unresolved (d.key className)
          else .untrusted moduleName (d.key className)))
        { m' with host := m'.host.setPending none } := by
  have blamed := h.blamed sound asked ran
  rw [stopped] at blamed
  obtain ⟨decl, d, written, named, member, foreign, signed, pending⟩ := blamed
  refine ⟨decl, d, written, named, member, foreign, signed, ?_⟩
  rw [Client.settled_run h.quiet ran, pending]
  rfl

end Program
end ScriptHost
