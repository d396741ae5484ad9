import ScriptHost.Proofs.Attribution.Calls
import ScriptHost.Proofs.Attribution.Journal
import ScriptHost.Proofs.Binding.Moment

/-! Errors and their causes. What an embedding program is told of a script or a call that went wrong
is what stopped it: the failure of a host function or of a maker as it was, the foreign member that
was not bound, or else the machine's own words. The cause travels beside the fault, through what the
surroundings remember; a journal of the host's mishaps, which nothing reads, shows that it is always
that of the very run, and that nothing is remembered from one run to the next. -/

namespace ScriptHost

theorem Mishap.fault_compile {x : Mishap} : x.fault = .compile ↔ x = .failed .compile := by
  cases x with
  | failed f => exact ⟨congrArg _, fun same => Mishap.failed.inj same⟩
  | unbound name =>
    unfold fault
    dsimp only
    split <;> exact ⟨nofun, nofun⟩

/-- A fault with nothing remembered beside it is none of the host's. -/
theorem RuntimeFault.BlamedOn.own {texts : Texts} {f : RuntimeFault}
    (blamed : f.BlamedOn texts none) (x : Mishap) : f ≠ x.runtimeFault := by
  rintro rfl
  cases x with
  | failed e =>
    obtain ⟨_, remembered, -⟩ := blamed
    cases remembered
  | unbound name =>
    obtain ⟨_, _, -, -, -, -, -, remembered⟩ := blamed
    cases remembered

/-- What an embedding program is told of a run, by what the run came to and by the host's mishaps
on the way. -/
inductive Told : List Mishap → Except InterpretError Unit → Except BoundaryFault Unit → Prop
  | done : Told [] (.ok ()) (.ok ())
  | compile {errors} : Told [] (.error (.compile errors)) (.error .compile)
  /-- The machine stopped by itself: no mishap leads to such a fault. -/
  | own {e} : (∀ x : Mishap, e.fault ≠ x.runtimeFault) →
    Told [] (.error (.runtime e)) (.error (.runtime e.message))
  | mishap {e x} : e.fault = Mishap.runtimeFault x → Told [x] (.error (.runtime e)) (.error x.fault)

theorem Told.compile_iff {journal : List Mishap} {r : Except InterpretError Unit}
    {told : Except BoundaryFault Unit} (h : Told journal r told) :
    told = .error .compile ↔
      (∃ errors, r = .error (.compile errors)) ∨ journal = [.failed .compile] := by
  cases h with
  | done => simp
  | compile => simp
  | own => simp
  | @mishap e x => simp [Mishap.fault_compile]

/-- The engine of programs, with a journal. -/
def Journaled.engine : Engine Journaled := Journaled.host.engine programDepth

theorem Journaled.engines :
    Engine.Alike shadow.simulation host Surroundings.host engine Program.engine :=
  engine_alike nesting.simulates programDepth

/-- A script does not compile exactly if it does not parse. -/
theorem Engine.interpret_compile_iff {H : Type} {engine : Engine H} {moduleName source : String}
    {m m' : Machine H} {r : Except InterpretError Unit}
    (ran : engine.interpret moduleName source m = .ok r m') :
    (∃ errors, r = .error (.compile errors)) ↔ ∃ errors, parseModule source = .error errors := by
  unfold Engine.interpret at ran
  cases parsed : parseModule source with
  | error errors =>
    rw [parsed] at ran
    cases (reporting_run engine _ _ m).symm.trans ran
    exact ⟨fun _ => ⟨_, rfl⟩, fun _ => ⟨_, rfl⟩⟩
  | ok body =>
    rw [parsed] at ran
    refine ⟨?_, nofun⟩
    rintro ⟨errors, rfl⟩
    obtain ⟨e | _, n, -, ran⟩ :=
      Live.bind_inv (x := (runModule engine moduleName body).run) (m := m.onVm _) ran
    · cases (reporting_run engine e.reports _ n).symm.trans ran
    · cases ran

namespace Program

variable {texts : Texts} {p : Program} {name : String}

theorem Moment.onVm {m : Machine Surroundings} (h : p.Moment texts name m) (f : Vm → Vm) :
    p.Moment texts name (m.onVm f) :=
  ⟨h.registry, h.names, h.files, h.sound, h.placed, h.kept, h.quiet⟩

/-- A script run, and the same with a journal that is empty at first. -/
theorem Moment.interpret_journaled {m : Machine Surroundings} (h : p.Moment texts name m)
    (source : String) :
    Journaled.shadow.simulation.Ended .id Journaled.shadow.simulation.Concluded
      (Journaled.engine.interpret entryModule source (Journaled.beside m []))
      (engine.interpret entryModule source m) :=
  Engine.interpret_sim Journaled.driven.simulates.toReporting Journaled.engines
    (fun _ _ _ _ => trivial) ⟨rfl, rfl, rfl, h.quiet⟩ fun opened => ⟨rfl, rfl, opened.2.2⟩

/-- A method called, and the same with a journal that is empty at first. -/
theorem Moment.call_journaled {m : Machine Surroundings} (h : p.Moment texts name m)
    (signature : String) :
    Journaled.shadow.simulation.Ended .id Journaled.shadow.simulation.Concluded
      (Journaled.engine.call signature (Journaled.beside m [])) (engine.call signature m) :=
  Engine.call_sim Journaled.driven.simulates Journaled.engines signature
    ⟨rfl, rfl, rfl, h.quiet⟩

/-- What is told of a run is what the journal of that run has. -/
theorem Moment.told (sound : p.Sound texts) {m m' : Machine Surroundings}
    (h : p.Moment texts name m) {run : Client (Except InterpretError Unit)}
    (asked : Asked texts run) {journaled : Live Journaled (Except InterpretError Unit)}
    (concluded : Journaled.shadow.simulation.Ended .id Journaled.shadow.simulation.Concluded
      (journaled (Journaled.beside m [])) (run m))
    {r : Except InterpretError Unit} (ran : run m = .ok r m') :
    ∃ journal told, journaled (Journaled.beside m []) = .ok r (Journaled.beside m' journal) ∧
      Client.settled run m = .ok told { m' with host := m'.host.setPending none } ∧
      Told journal r told := by
  have blamed {e : RuntimeError} (same : r = .error (.runtime e)) :=
    h.blamed sound asked (same ▸ ran)
  rw [Client.settled_run h.quiet ran]
  rw [ran] at concluded
  revert concluded
  generalize journaled (Journaled.beside m []) = s
  -- The run came to a result, so that the one with the journal came to the same.
  rintro (@⟨_, _, n, _, _, -, concluded⟩ | - | ⟨⟩)
  obtain ⟨-, rfl, journal, -⟩ | ⟨-, rfl, journal, -⟩ | @⟨e, _, _, -, rfl, explained⟩ := concluded
  · refine ⟨_, _, rfl, rfl, ?_⟩
    rw [journal]
    exact .done
  · refine ⟨_, _, rfl, rfl, ?_⟩
    rw [journal]
    exact .compile
  · refine ⟨n.host.journal, _, rfl, rfl, ?_⟩
    have blamed := blamed rfl
    change e.fault.BlamedOn texts n.host.surroundings.record.pending at blamed
    change e.fault.Explained n.host.journal n.host.surroundings.record.pending at explained
    change Told n.host.journal (.error (.runtime e))
      (.error (Client.cause n.host.surroundings.record.pending (.runtime e)))
    revert blamed explained
    generalize n.host.journal = journal, n.host.surroundings.record.pending = pending
    rintro blamed (_ | ⟨x, same⟩)
    · exact .own fun x => blamed.own x
    · exact .mishap same

/-- In every session, whatever was done before: between its steps no error is remembered. A script
is told of as it went: with a compile error if it does not parse, and otherwise only if a host
function failed with that very error; with the failure of the host function or maker that stopped
it, as it was; with the foreign member that was refused or is not registered, if that stopped it;
with the machine's own words if it stopped for any other reason; and with nothing if it went well.
The same goes for a method called on a value, where the answer is what the method returned. The
journal of the run alone decides, and has at most one mishap. -/
theorem errors_told_by_cause (files : Files) (ss : List Step) :
    (∀ (name : String) (vm : Vm) (record : VmRecord),
      (after files ss).machines.get? name = some (vm, record) → record.pending = none) ∧
    (∀ (name : String) (vm : Vm) (record : VmRecord) (source : String)
      (r : Except InterpretError Unit) (m' : Machine Surroundings),
      (after files ss).machines.get? name = some (vm, record) →
      engine.interpret entryModule source ((after files ss).started vm record) = .ok r m' →
      ∃ journal told,
        Journaled.engine.interpret entryModule source
          (Journaled.beside ((after files ss).started vm record) []) =
            .ok r (Journaled.beside m' journal) ∧
        Client.interpret engine source ((after files ss).started vm record) =
          .ok told { m' with host := m'.host.setPending none } ∧
        Told journal r told ∧
        (told = .error .compile ↔
          (∃ errors, parseModule source = .error errors) ∨ journal = [.failed .compile])) ∧
    ∀ (name : String) (vm : Vm) (record : VmRecord) (receiver : Value) (signature : String)
      (params : List HostValue) (args : List Value) (r : Except InterpretError Unit)
      (m m' : Machine Surroundings),
      (after files ss).machines.get? name = some (vm, record) →
      signatureArity signature ≤ params.length → List.Forall₂ HostValue.Puts params args →
      m = ((after files ss).started vm record).onVm (·.holding (receiver :: args)) →
      engine.call signature m = .ok r m' →
      ∃ journal told answer,
        Journaled.engine.call signature (Journaled.beside m []) =
          .ok r (Journaled.beside m' journal) ∧
        Client.call engine receiver signature params ((after files ss).started vm record) =
          .ok answer { m' with host := m'.host.setPending none } ∧
        Told journal r told ∧ (told = .error .compile ↔ journal = [.failed .compile]) ∧
        match told with
        | .error f => answer = .error f
        | .ok () => ∃ v n, (engine.send receiver signature
            (args.take (signatureArity signature))).run m = .ok (.ok v) n ∧
              answer = n.heap.answer v := by
  -- Which classes the session's scripts declare plays no part here.
  have sound : (after files ss).Sound fun _ _ => True := sound_after fun _ _ _ => trivial
  refine ⟨fun name vm record found => (sound.records found).2, ?_, ?_⟩
  · intro name vm record source r m' found ran
    have moment := sound.moment_started found
    obtain ⟨journal, told, journaled, settled, tells⟩ :=
      moment.told sound (@Asked.interpret (fun _ _ => True) source trivial)
        (moment.interpret_journaled source) ran
    refine ⟨journal, told, journaled, settled, tells, ?_⟩
    rw [tells.compile_iff, Engine.interpret_compile_iff ran]
  · intro name vm record receiver signature params args r m m' found enough puts holding ran
    subst holding
    have moment := (sound.moment_started found).onVm (·.holding (receiver :: args))
    obtain ⟨journal, told, journaled, settled, tells⟩ :=
      moment.told sound (.call signature) (moment.call_journaled signature) ran
    have called := Client.call_run engine ((after files ss).started vm record) receiver enough puts
    rw [settled] at called
    have compiled : told = .error .compile ↔ journal = [.failed .compile] := by
      rw [tells.compile_iff]
      exact or_iff_right fun ⟨errors, same⟩ => Engine.call_not_compile ran errors same
    cases told with
    | error f => exact ⟨journal, _, _, journaled, called, tells, compiled, rfl⟩
    | ok _ =>
      cases tells with
      | done =>
        obtain ⟨v, n, sent, rfl⟩ := Engine.call_ok_holding (puts.length_eq ▸ enough) ran
        exact ⟨[], _, _, journaled, called, .done, compiled, v, n, sent,
          congrArg answerOf (n.decode_setSlot 0 v .any)⟩

/-- A script that parses, and calls a host function that fails as if it did not. -/
def compileByHost : List Step := [
  .machine "a" false,
  .on "a" (.register "static A.f()" (.described [] none (.fault .compile))),
  .on "a" (.interpret "class A \x7b\n  foreign static f()\n\x7d\nA.f()")]

/-- A compile error is told of a script that parses. -/
theorem compileByHost_parses :
    (parseModule "class A \x7b\n  foreign static f()\n\x7d\nA.f()").isOk ∧
      ((start noFiles).steps compileByHost).1.map StepReport.fault? =
        [none, none, some .compile] := by
  decide +kernel

end Program
end ScriptHost
