import ScriptHost.Proofs.Sequence
import ScriptHost.Proofs.Splitting.Desks

/-! A program given in two parts. Two scripts run one after the other do what the script does that
is made of both: the second part finds the variables and objects that it would have found, in an
activation that differs in its line at most. -/

namespace ScriptHost

variable {H : Type}

/-- The machine as a script in a module finds it. -/
def Machine.opened (m : Machine H) (moduleName : String) : Machine H :=
  m.onVm fun vm => { vm.openModule moduleName with depth := 0 }

/-- Whether the top level of a script comes to its end, and is not left before it by a `return` or a
`break`. -/
def Engine.runsThrough (engine : Engine H) (moduleName source : String) (m : Machine H) : Bool :=
  match parseModule source with
  | .error _ => false
  | .ok body =>
    match (Script.activate (.ofModule moduleName) (execAll engine body)).run
        (m.opened moduleName) with
    | .ok (.ok .normal) _ => true
    | _ => false

/-! ### The first part -/

/-- Statements in front of others that come to their end leave the rest to those. -/
theorem execAll_append {engine : Engine H} {first : List Stmt} {k k' : Frame} {m m' : Machine H}
    (ran : (execAll engine first).run.run k m = .ok (.ok .normal, k') m') (rest : List Stmt) :
    (execAll engine (first ++ rest)).run.run k m = (execAll engine rest).run.run k' m' := by
  induction first generalizing k m with
  | nil =>
    simp only [execAll] at ran
    cases ran
    rfl
  | cons t first ih =>
    simp only [List.cons_append, execAll] at ran ⊢
    obtain ⟨⟨_ | flow, l⟩, n, here, more⟩ := Live.bind_inv (x := (exec engine t).run.run k) ran
    · cases more
    · cases flow with
      | normal => exact (Live.bind_run here).trans (ih more)
      | _ => cases more

/-- What follows runs that came to the same. -/
theorem bind_at_eq {α β : Type} {x y : Live H α} {m m' : Machine H} (same : x m = y m')
    (f : α → Live H β) : EStateM.bind x f m = EStateM.bind y f m' := by
  unfold EStateM.bind
  rw [same]

/-- So a module goes on with the rest in the activation that the first statements left. -/
theorem runModule_append {engine : Engine H} {name : String} {first : List Stmt} {k : Frame}
    {m m' : Machine H}
    (ran : (execAll engine first).run.run (.ofModule name) m = .ok (.ok .normal, k) m')
    (rest : List Stmt) :
    (runModule engine name (first ++ rest)).run m =
      (Script.activate k (execAll engine rest) >>= fun _ => Pure.pure () : Run H Unit).run m' := by
  have activated : (Script.activate (.ofModule name) (execAll engine (first ++ rest))).run m =
      (Script.activate k (execAll engine rest)).run m' := by
    rw [ScriptSim.activate_run, ScriptSim.activate_run]
    exact bind_at_eq (execAll_append ran rest) _
  exact bind_at_eq activated _

theorem interpret_parsed {engine : Engine H} {moduleName source : String} {body : List Stmt}
    (parsed : parseModule source = .ok body) (m : Machine H) :
    engine.interpret moduleName source m =
      (do
        match ← (runModule engine moduleName body).run with
        | .ok () => return .ok ()
        | .error e =>
          engine.reportAll e.reports
          return .error (.runtime e) : Live H (Except InterpretError Unit))
        (m.opened moduleName) := by
  unfold Engine.interpret
  rw [parsed]
  rfl

/-- An activation that ended well, seen from inside. -/
theorem activate_inv {k : Frame} {x : Script H Flow} {flow : Flow} {m m' : Machine H}
    (ran : (Script.activate k x).run m = .ok (.ok flow) m') :
    ∃ k', x.run.run k m = .ok (.ok flow, k') m' := by
  rw [ScriptSim.activate_run] at ran
  obtain ⟨⟨_ | _, k'⟩, n, inside, left⟩ := Live.bind_inv (x := x.run.run k) ran
  · cases left
  · cases left
    exact ⟨k', inside⟩

theorem runsThrough_inv {engine : Engine H} {moduleName source : String} {m : Machine H}
    (through : engine.runsThrough moduleName source m) :
    ∃ body k m', parseModule source = .ok body ∧
      (execAll engine body).run.run (.ofModule moduleName) (m.opened moduleName) =
        .ok (.ok .normal, k) m' ∧
      engine.interpret moduleName source m = .ok (.ok ()) m' := by
  unfold Engine.runsThrough at through
  split at through
  · cases through
  · rename_i body parsed
    split at through
    · rename_i m' ran
      obtain ⟨k, inside⟩ := activate_inv ran
      refine ⟨body, k, m', parsed, inside, ?_⟩
      have module_ran : (runModule engine moduleName body).run (m.opened moduleName) =
        .ok (.ok ()) m' := Live.bind_run ran
      rw [interpret_parsed parsed]
      exact Live.bind_run module_ran
    · cases through

variable {hosts : H → H → Prop} {host : Host H}

/-- What is left behind by statements at the top of a module that came to their end: the module is
open, no method is running, and the activation is as it was, but for its line. -/
theorem first_part {s : Split H} {engine : Engine H} (knows : engine.Blind s) {moduleName : String}
    {body : List Stmt} {k : Frame} {m m' : Machine H} (same : s.hosts m.host m.host)
    (ran : (execAll engine body).run.run (.ofModule moduleName) (m.opened moduleName) =
      .ok (.ok .normal, k) m') :
    s.Alike ⟨moduleName, m'.heap.classes.size, 0⟩ m' m' ∧
      k = { Frame.ofModule moduleName with line := k.line } := by
  -- The run is compared with itself: what two runs keep to, one run keeps to.
  have opened : s.Alike ⟨moduleName, 0, 0⟩ (m.opened moduleName) (m.opened moduleName) :=
    ⟨Heap.moved_refl .., rfl, same, Nat.zero_le _, Vm.hasModule_opened m.vm moduleName,
      Nat.le_refl 0⟩
  have frames : Frame.Moved .origin (.ofModule moduleName) False (.ofModule moduleName)
    (.ofModule moduleName) := ⟨rfl, rfl, rfl, rfl, rfl, False.elim⟩
  have ended := execAll_alike knows .here body frames opened
  rw [Stmt.origin_rebaseAll, ran] at ended
  obtain ⟨alike, ⟨frames', -⟩⟩ := ended
  refine ⟨⟨Heap.moved_refl .., rfl, alike.host, Nat.le_refl _, alike.home, alike.depth⟩, ?_⟩
  obtain ⟨name, this, scopes, line, function⟩ := k
  have noScopes : scopes = [] := List.length_eq_zero_iff.mp frames'.scopes
  simp only [Frame.ofModule, Frame.mk.injEq]
  exact ⟨frames'.moduleName, frames'.this, noScopes, trivial, frames'.function⟩

/-! ### Both parts -/

/-- A machine in which a module is open and no method is running is as a script finds it. -/
theorem Split.Alike.opened {s : Split H} {moduleName : String} {classes : Nat} {m n : Machine H}
    (alike : s.Alike ⟨moduleName, classes, 0⟩ m n) : m.opened moduleName = m := by
  have idle : m.vm.depth = 0 := Nat.le_zero.mp alike.depth
  have open_already : m.vm.openModule moduleName = m.vm := Vm.openModule_self alike.home
  have kept : { m.vm.openModule moduleName with depth := 0 } = m.vm := by
    rw [open_already, ← idle]
  exact congrArg (fun vm => { m with vm }) kept

/-- A script that comes to its end, and then another script, do what the script does that has the
other on the lines behind it. The host hears the same, everything ends in the same way, and the
variables and objects are the same, up to the lines of the second part; the classes that were there
before it keep theirs. The host may do with the lines that it is told whatever does not come back to
the scripts: that is what `hosts` counts as the same. -/
theorem split_program {host : Host H} {hosts : H → H → Prop} {first second : String}
    (blind : host.Blind ⟨nextLine first, hosts⟩) (fuel : Nat) (moduleName : String)
    {m m' : Machine H} (same : hosts m.host m.host)
    (through : (host.engine fuel).runsThrough moduleName first m)
    (ran : (host.engine fuel).interpret moduleName first m = .ok (.ok ()) m')
    (accepted : (parseModule second).isOk) :
    Split.Ended ⟨nextLine first, hosts⟩ ⟨moduleName, m'.heap.classes.size, 0⟩
      (Concluded (nextLine first))
      ((host.engine fuel).interpret moduleName second m')
      ((host.engine fuel).interpret moduleName (first ++ "\n" ++ second) m) := by
  have knows := blind.engine_blind fuel
  obtain ⟨body, k, n, parsed, inside, ran'⟩ := runsThrough_inv through
  obtain rfl : m' = n := by
    rw [ran] at ran'
    cases ran'
    rfl
  obtain ⟨alike, left⟩ := first_part knows same inside
  cases parsed' : parseModule second with
  | error errors =>
    rw [parsed'] at accepted
    cases accepted
  | ok body' =>
    rw [interpret_parsed parsed', interpret_parsed (parseModule_lines parsed parsed'),
      alike.opened]
    -- The joined script comes to its second part where the second script starts, on another line.
    have frames : Frame.Moved (nextLine first) (.ofModule moduleName) False (.ofModule moduleName)
        k := ⟨rfl, rfl, rfl, rfl, left, False.elim⟩
    have second_part : Split.Ended ⟨nextLine first, hosts⟩ ⟨moduleName, m'.heap.classes.size, 0⟩
        (Split.Came ⟨nextLine first, hosts⟩ Eq)
        ((runModule (host.engine fuel) moduleName body').run m')
        ((runModule (host.engine fuel) moduleName
          (body ++ body'.map (Stmt.rebase (nextLine first)))).run (m.opened moduleName)) := by
      rw [runModule_append inside, ← Stmt.rebaseAll_eq]
      exact (Split.ScriptAlike.activate .moved frames
        (execAll_alike knows .moved body')).bind_eq (fun _ => .pure rfl) alike
    exact Engine.concluded_alike knows second_part (fun _ => .pure .ok) (fun _ => rfl) fun _ => rfl

/-- A greeting defined in one script and written by the next, which then fails. -/
theorem greeting_split :
    let plan : Plan := ⟨[], [], [], ⟨true, true, true, true, true⟩⟩
    let first := "var greeting = \"hello\""
    let second := "System.print(greeting)\nmissing"
    ∃ m', (plan.host.engine 2).interpret "main" first (.fresh .empty) = .ok (.ok ()) m' ∧
      Split.Ended (Split.desks (nextLine first)) ⟨"main", m'.heap.classes.size, 0⟩
        (Concluded (nextLine first))
        ((plan.host.engine 2).interpret "main" second m')
        ((plan.host.engine 2).interpret "main" (first ++ "\n" ++ second) (.fresh .empty)) := by
  intro plan first second
  have through : (plan.host.engine 2).runsThrough "main" first (.fresh .empty) = true := by
    decide +kernel
  have accepted : (parseModule second).isOk = true := by decide +kernel
  obtain ⟨_, _, m', -, -, ran⟩ := runsThrough_inv through
  exact ⟨m', ran, split_program (plan.blind _) 2 "main" (Desk.moved_refl ..) through ran accepted⟩

end ScriptHost
