import ScriptHost.Proofs.Scoping.Rules
import ScriptHost.Proofs.Traces

/-! What an import leaves behind. One that fails before the statements of its module run leaves the
machine as it was, but for the host's side; one whose module stops leaves it as the statements left
it, with the module registered; one that lacks a name has taken those before it. Nothing is ever
undone: a module that stopped is not run again, and its variables can be imported. -/

namespace ScriptHost

variable {c : Conduct} {depth : Nat} {source into : String} {names : List String}
  {m m' : Machine Desk}

/-- A module that was not registered was found and compiled, and its statements ran to a result and
a machine. -/
def Conduct.Ran (c : Conduct) (depth : Nat) (source : String) (m : Machine Desk)
    (r : Except RuntimeError Unit) (m' : Machine Desk) : Prop :=
  m.vm.hasModule source = false ∧ ∃ inner text body, depth = inner + 1 ∧
    (m.onHost (c.callbacks.load source)).1 = some text ∧ parseModule text = .ok body ∧
    (runModule (c.host.engine inner) source body).run
      ((m.onHost (c.callbacks.load source)).2.onVm (·.openModule source)) = .ok r m'

/-- A load of a module that came to a result. -/
inductive Conduct.Loads (c : Conduct) (depth : Nat) (source : String) (m m' : Machine Desk) :
    Except RuntimeError Unit → Prop
  | notFound : (m.onHost (c.callbacks.load source)).1 = none → m'.vm = m.vm → m'.heap = m.heap →
    Loads c depth source m m' (.error ⟨.moduleNotLoaded source, []⟩)
  | notCompiled {text errors} : (m.onHost (c.callbacks.load source)).1 = some text →
    parseModule text = .error errors → m'.vm = m.vm → m'.heap = m.heap →
    Loads c depth source m m' (.error ⟨.moduleNotCompiled source, []⟩)
  | ran {r} : c.Ran depth source m r m' → Loads c depth source m m' r

/-! ### Loading -/

theorem Engine.reported_kept {H : Type} (engine : Engine H) (rs : List Report) (m : Machine H) :
    (engine.reported m rs).vm = m.vm ∧ (engine.reported m rs).heap = m.heap := by
  induction rs generalizing m with
  | nil => exact ⟨rfl, rfl⟩
  | cons r rest ih => exact ih _

/-- Some reports made, and then a fault. -/
theorem Engine.reporting_fault {H α : Type} (engine : Engine H) (rs : List Report)
    (f : RuntimeFault) (m : Machine H) :
    (do
      engine.reportAll rs
      fault f : Run H α).run m = .ok (.error ⟨f, []⟩) (engine.reported m rs) := by
  have lifted : (monadLift (engine.reportAll rs) : Run H Unit).run m =
      .ok (.ok ()) (engine.reported m rs) := by
    change EStateM.map Except.ok (engine.reportAll rs) m = _
    unfold EStateM.map
    rw [Engine.reportAll_run]
  exact Live.bind_run (x := (monadLift (engine.reportAll rs) : Run H Unit).run) lifted

theorem load_loads {r : Except RuntimeError Unit} (absent : m.vm.hasModule source = false)
    (loaded : (loadModule (c.host.engine depth) source).run m = .ok r m') :
    c.Loads (depth + 1) source m m' r := by
  have heard : (c.host.engine depth).callbacks = c.callbacks := rfl
  rw [load_by, loadBy_run, heard] at loaded
  cases found : (m.onHost (c.callbacks.load source)).1 with
  | none =>
    rw [found] at loaded
    cases loaded
    exact .notFound found rfl rfl
  | some text =>
    rw [found] at loaded
    dsimp only at loaded
    cases parsed : parseModule text with
    | error errors =>
      rw [parsed] at loaded
      dsimp only at loaded
      rw [Engine.reporting_fault] at loaded
      cases loaded
      obtain ⟨vm, heap⟩ := (c.host.engine depth).reported_kept
        (errors.map (·.report source)) (m.onHost (c.callbacks.load source)).2
      exact .notCompiled found parsed vm heap
    | ok body =>
      rw [parsed] at loaded
      exact .ran ⟨absent, depth, text, body, rfl, found, parsed, loaded⟩

/-- An import of a module that is not registered, which came to a result: the load failed, or the
names were copied after it. -/
theorem importNames_loads {r : Except RuntimeError Unit} (absent : m.vm.hasModule source = false)
    (imported : (importNames (c.host.engine depth) source into names).run m = .ok r m') :
    (∃ e, r = .error e ∧ c.Loads depth source m m' (.error e)) ∨
      ∃ n, c.Ran depth source m (.ok ()) n ∧ (copyNames source into names).run n = .ok r m' := by
  have unfolded : (importNames (c.host.engine depth) source into names).run m =
      (do
        let _ ← (c.host.engine depth).perform (.load source)
        copyNames source into names : Run Desk Unit).run m := by
    change (do
      unless m.vm.hasModule source do
        let _ ← (c.host.engine depth).perform (.load source)
      copyNames source into names : Run Desk Unit).run m = _
    rw [absent]
    rfl
  rw [unfolded] at imported
  cases depth with
  | zero => cases imported
  | succ inner =>
    obtain ⟨e, rfl, failed⟩ | ⟨v, n, performed, copied⟩ := Run.bind_inv imported
    · obtain ⟨e', same, failed⟩ | ⟨_, _, -, returned⟩ :=
        Run.bind_inv (x := loadModule (c.host.engine inner) source) failed
      · cases same
        exact .inl ⟨e, rfl, load_loads absent failed⟩
      · cases returned
    · obtain ⟨_, same, -⟩ | ⟨_, _, loaded, returned⟩ :=
        Run.bind_inv (x := loadModule (c.host.engine inner) source) performed
      · cases same
      · cases returned
        cases load_loads absent loaded with
        | ran ran => exact .inr ⟨n, ran, copied⟩

/-! ### Modules stay -/

/-- The statements of a module never take another module away. -/
theorem runModule_grows (c : Conduct) (depth : Nat) (name : String) (body : List Stmt)
    {r : Except RuntimeError Unit} {m m' : Machine Desk}
    (ran : (runModule (c.host.engine depth) name body).run m = .ok r m') :
    m.vm.modules.Grows m'.vm.modules := by
  let start := Logged.noted (.enter (.ofModule name)) (Logged.beside m .blank)
  have same := runModule_sim (Logged.nesting_host c).simulates.toLawful (Logged.alike c depth) name
    body (fun _ _ => trivial) _ _ (Logged.going_plain start)
  have kept := Logged.runModule_keeps name body
    (Logged.engine_runs c m.vm.modules depth [.ofModule name]) start
    ⟨rfl, (Logged.Tallies.blank c m.vm.modules).withActive _⟩
  change Logged.erasure.Ended _ _ _ ((runModule (c.host.engine depth) name body).run m) at same
  rw [ran] at same
  revert kept same
  generalize (runModule (Logged.engine c depth) name body).run start = logged
  rintro kept (⟨-, settled⟩ | - | -)
  obtain ⟨⟨-, same, -⟩, -⟩ | ⟨-, same, -⟩ := settled
  · rw [same]
    exact kept.2.grows
  · obtain ⟨_, _, -, -, -, tallies⟩ := kept
    rw [same]
    exact tallies.grows

/-- Neither does anything that a program asks for. -/
theorem hold_grows {d : Dialogue} {m m' : Machine Desk}
    (held : d.hold (Desk.serve (c.host.engine depth)) m = .ok () m') :
    m.vm.modules.Grows m'.vm.modules := by
  obtain ⟨book, ran⟩ := Logged.of_forget
    (Logged.hold_forget c depth d (Logged.beside m .blank)) held
  have tallies := Logged.hold_tallies c depth d m
  rw [ran] at tallies
  exact tallies.grows

/-- A module that was opened and whose statements ran is registered. -/
theorem Conduct.Ran.registered {r : Except RuntimeError Unit}
    (ran : c.Ran depth source m r m') : m'.vm.hasModule source = true := by
  obtain ⟨absent, inner, text, body, -, -, -, ran⟩ := ran
  refine (runModule_grows c inner source body ran).has ?_
  change (m.vm.openModule source).modules.has source = true
  unfold Vm.openModule
  rw [absent]
  exact (Table.has_set _ _ _).mpr (.inl rfl)

/-! ### Imports -/

/-- The module of an import is ready for it: it was registered, or it was found and compiled and its
statements ran to their end. -/
def Conduct.Readied (c : Conduct) (depth : Nat) (source : String) (m n : Machine Desk) : Prop :=
  m.vm.hasModule source = true ∧ n = m ∨ c.Ran depth source m (.ok ()) n

/-- What an import that failed leaves behind. -/
inductive Conduct.FailedImport (c : Conduct) (depth : Nat) (source into : String)
    (names : List String) (m m' : Machine Desk) : RuntimeError → Prop
  /-- There is no such module: nothing has changed but the host's side. -/
  | notFound : m.vm.hasModule source = false → (m.onHost (c.callbacks.load source)).1 = none →
    m'.vm = m.vm → m'.heap = m.heap →
    FailedImport c depth source into names m m' ⟨.moduleNotLoaded source, []⟩
  /-- It does not compile: nothing has changed but the host's side. -/
  | notCompiled {text errors} : m.vm.hasModule source = false →
    (m.onHost (c.callbacks.load source)).1 = some text → parseModule text = .error errors →
    m'.vm = m.vm → m'.heap = m.heap →
    FailedImport c depth source into names m m' ⟨.moduleNotCompiled source, []⟩
  /-- Its statements stopped: all is as they left it, and the module is registered. -/
  | stopped {e} : c.Ran depth source m (.error e) m' → m'.vm.hasModule source = true →
    FailedImport c depth source into names m m' e
  /-- It lacks a name: those before that are taken. -/
  | lacking {n before name after} : c.Readied depth source m n →
    names = before ++ name :: after → n.vm.binding? source name = none →
    n.Imports source into before m' →
    FailedImport c depth source into names m m' ⟨.variableNotExported name source, []⟩

theorem importNames_failed {e : RuntimeError}
    (failed : (importNames (c.host.engine depth) source into names).run m = .ok (.error e) m') :
    c.FailedImport depth source into names m m' e := by
  cases known : m.vm.hasModule source with
  | true =>
    have imported := importNames_imported (c.host.engine depth) source into names known
    rw [failed] at imported
    cases imported with
    | missing split absent imports => exact .lacking (.inl ⟨known, rfl⟩) split absent imports
  | false =>
    obtain ⟨_, same, loads⟩ | ⟨n, ran, copied⟩ := importNames_loads known failed
    · cases same
      cases loads with
      | notFound found vm heap => exact .notFound known found vm heap
      | notCompiled found parsed vm heap => exact .notCompiled known found parsed vm heap
      | ran ran => exact .stopped ran ran.registered
    · have imported := copyNames_imported source into names n
      rw [copied] at imported
      cases imported with
      | missing split absent imports => exact .lacking (.inr ran) split absent imports

theorem importNames_succeeded
    (imported : (importNames (c.host.engine depth) source into names).run m = .ok (.ok ()) m') :
    ∃ n, c.Readied depth source m n ∧ n.Imports source into names m' := by
  cases known : m.vm.hasModule source with
  | true =>
    have taken := importNames_imported (c.host.engine depth) source into names known
    rw [imported] at taken
    cases taken with
    | all imports => exact ⟨m, .inl ⟨known, rfl⟩, imports⟩
  | false =>
    obtain ⟨_, same, -⟩ | ⟨n, ran, copied⟩ := importNames_loads known imported
    · cases same
    · have taken := copyNames_imported source into names n
      rw [copied] at taken
      cases taken with
      | all imports => exact ⟨n, .inr ran, imports⟩

/-- What an import statement comes to is what its import comes to. -/
theorem exec_import {engine : Engine Desk} {span : Span} {f f' : Frame}
    {r : Except RuntimeError Flow}
    (ran : (exec engine (.importNames span source names)).run.run f m = .ok (r, f') m') :
    (∃ e, r = .error e ∧ (importNames engine source f.moduleName names).run m = .ok (.error e) m') ∨
      r = .ok .normal ∧
        (importNames engine source f.moduleName names).run m = .ok (.ok ()) m' := by
  simp only [exec] at ran
  have marked : (markLine (.importNames span source names) : Script Desk Unit).run.run f m =
    .ok (.ok (), { f with line := span.line }) m := rfl
  rw [Script.bind_run marked, Script.getFrame_run] at ran
  obtain ⟨e, rfl, failed⟩ | ⟨_, k, n, imported, ended⟩ := Script.bind_inv ran
  · exact .inl ⟨e, rfl, (Script.ofRun_inv failed).1⟩
  · cases ended
    exact .inr ⟨rfl, (Script.ofRun_inv imported).1⟩

/-- Of an import statement, in whatever activation and on whatever machine. If it fails, none of its
names is set by it when the module is not found, does not compile or stops; the module is registered
in the last case only. When the module lacks a name, the names before it are set, and nothing else.
It goes well if the module is registered or runs to its end, and has all the names; then they are
set. For a module that is registered, that is all that is done. A registered module stays. -/
theorem imports_are_not_undone (c : Conduct) (depth : Nat) :
    (∀ (span : Span) source names (f f' : Frame) (m m' : Machine Desk) e,
      (exec (c.host.engine depth) (.importNames span source names)).run.run f m =
        .ok (.error e, f') m' →
      c.FailedImport depth source f.moduleName names m m' e) ∧
    (∀ (span : Span) source names (f f' : Frame) (m m' : Machine Desk) flow,
      (exec (c.host.engine depth) (.importNames span source names)).run.run f m =
        .ok (.ok flow, f') m' →
      ∃ n, c.Readied depth source m n ∧ n.Imports source f.moduleName names m') ∧
    (∀ (engine : Engine Desk) source into names (m : Machine Desk),
      m.vm.hasModule source = true →
      m.Imported source into names ((importNames engine source into names).run m)) ∧
    ∀ (d : Dialogue) (m m' : Machine Desk) name,
      d.hold (Desk.serve (c.host.engine depth)) m = .ok () m' →
      m.vm.hasModule name = true → m'.vm.hasModule name = true := by
  refine ⟨fun span source names f f' m m' e ran => ?_,
    fun span source names f f' m m' flow ran => ?_,
    fun engine source into names m known => importNames_imported engine source into names known,
    fun d m m' name held known => (hold_grows held).has known⟩
  · obtain ⟨_, same, failed⟩ | ⟨same, -⟩ := exec_import ran
    · cases same
      exact importNames_failed failed
    · cases same
  · obtain ⟨_, same, -⟩ | ⟨-, imported⟩ := exec_import ran
    · cases same
    · exact importNames_succeeded imported

/-- A module that has one name, and one that fails after it has made one. -/
def halves : Plan where
  modules := [("half", "var A = true"), ("broken", "var A = true\nnull.foo()")]
  methods := []
  classes := []
  hearing := ⟨true, true, true, true, true⟩

/-- A part of an activation that failed, as can be found out by running it. -/
theorem Script.failed_of_check {α : Type}
    {r : EStateM.Result Halt (Machine Desk) (Except RuntimeError α × Frame)}
    {P : RuntimeError → Machine Desk → Prop} [∀ e m, Decidable (P e m)]
    (h : (match r with
      | .ok (.error e, _) m => decide (P e m)
      | _ => false) = true) : ∃ e f m, r = .ok (.error e, f) m ∧ P e m := by
  split at h
  · exact ⟨_, _, _, rfl, of_decide_eq_true h⟩
  · cases h

/-- An import of two names, of which the module has the first. -/
theorem imports_are_not_undone_half :
    ∃ e f' m', (exec (halves.conduct.host.engine unreachedDepth)
        (.importNames default "half" ["A", "B"])).run.run (.ofModule "main") (.fresh .empty) =
          .ok (.error e, f') m' ∧
      halves.conduct.FailedImport unreachedDepth "half" "main" ["A", "B"] (.fresh .empty) m' e ∧
      e = ⟨.variableNotExported "B" "half", []⟩ := by
  obtain ⟨e, f', m', failed, lacking⟩ := Script.failed_of_check
    (r := (exec (halves.conduct.host.engine unreachedDepth)
      (.importNames default "half" ["A", "B"])).run.run (.ofModule "main") (.fresh .empty))
    (P := fun e _ => e = ⟨.variableNotExported "B" "half", []⟩) (by decide +kernel)
  have ends := (imports_are_not_undone halves.conduct unreachedDepth).1 default "half" ["A", "B"]
    (.ofModule "main") f' (.fresh .empty) m' e failed
  exact ⟨e, f', m', failed, ends, lacking⟩

/-- Whether a script goes well, and its module has a variable then. -/
def endsWith (r : EStateM.Result Halt (Machine Desk) (Except InterpretError Unit))
    (moduleName name : String) : Bool :=
  match r with
  | .ok (.ok ()) m => (m.vm.binding? moduleName name).isSome
  | _ => false

/-- Failed imports are not undone: of two names, the one that the module has is set in spite of the
other; and a module that failed is imported from, although it never ran to its end. -/
theorem import_left_half :
    (∃ e m', (halves.conduct.host.engine unreachedDepth).interpret "main"
        "import \"half\" for A, B" (.fresh .empty) = .ok (.error (.runtime e)) m' ∧
      (m'.vm.binding? "main" "A").isSome = true) ∧
    ∃ e m', (halves.conduct.host.engine unreachedDepth).interpret "main"
        "import \"broken\" for A" (.fresh .empty) = .ok (.error (.runtime e)) m' ∧
      (m'.vm.binding? "main" "A").isSome = false ∧
      endsWith ((halves.conduct.host.engine unreachedDepth).interpret "main"
        "import \"broken\" for A" m') "main" "A" = true :=
  ⟨failed_of_check (by decide +kernel), failed_of_check (by decide +kernel)⟩

end ScriptHost
