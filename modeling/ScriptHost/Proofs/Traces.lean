import ScriptHost.Proofs.Course.Tally

/-! Stack traces. The trace of a run that ends with a fault names the bodies that were running
inside each other when the fault was raised, the innermost first, and the host is told of the fault
once and then of each line of the trace. What was running is known from the logbook, which has
nothing to do with how a trace comes about. -/

namespace ScriptHost

/-- The machine after the host was told of a fault: of its message, and then of each line of its
trace. -/
def Conduct.told (c : Conduct) (failed : Machine Desk) (e : RuntimeError) : Machine Desk :=
  let message : Report := ⟨.runtime, "", 0, e.message⟩
  let lines := e.trace.map fun t => (⟨.trace, t.moduleName, t.line, t.function⟩ : Report)
  (message :: lines).foldl (fun m r => (m.onHost (c.callbacks.report r)).2) failed

namespace Logged

/-- A plain run that went well is one with a logbook. -/
theorem of_forget {α : Type} {r : EStateM.Result Halt (Machine Logged) α}
    {s : EStateM.Result Halt (Machine Desk) α} {a : α} {m' : Machine Desk} (same : forget r = s)
    (ran : s = .ok a m') : ∃ book, r = .ok a (beside m' book) := by
  subst same
  cases r with
  | ok b n =>
    cases ran
    exact ⟨n.host.book, rfl⟩
  | error halt n => cases ran

end Logged

/-- A script that ended with a fault ran to the fault, which was then reported. -/
theorem interpret_failed {c : Conduct} {depth : Nat} {moduleName source : String}
    {m m' : Machine Desk} {e : RuntimeError}
    (failed : (c.host.engine depth).interpret moduleName source m = .ok (.error (.runtime e)) m') :
    ∃ body n, parseModule source = .ok body ∧
      (runModule (c.host.engine depth) moduleName body).run
        (m.onVm fun vm => { vm.openModule moduleName with depth := 0 }) = .ok (.error e) n ∧
      m' = c.told n e := by
  rw [Engine.interpret_by] at failed
  exact Engine.interpretBy_failed failed

theorem call_failed {c : Conduct} {depth : Nat} {signature : String} {m m' : Machine Desk}
    {e : RuntimeError}
    (failed : (c.host.engine depth).call signature m = .ok (.error (.runtime e)) m') :
    ∃ n, ((c.host.engine depth).sent signature).run m = .ok (.error e) n ∧ m' = c.told n e :=
  Engine.call_failed failed

/-- Whatever a program's callbacks and host functions do: when a script or a call ends with a fault,
the trace names the bodies that were running when the fault was raised, as the interpreter with a
logbook has them, and the host was told of the fault and of each line of the trace. The last line
of a script's trace is its module. -/
theorem traces_name_running_bodies (c : Conduct) (depth : Nat) (m : Machine Desk) :
    (∀ moduleName source e m',
      (c.host.engine depth).interpret moduleName source m = .ok (.error (.runtime e)) m' →
      ∃ book, Logged.interpret (Logged.engine c depth) moduleName source (Logged.beside m .blank) =
          .ok (.error (.runtime e)) (Logged.beside m' book) ∧
        e.trace.map (·.activation) = book.active ∧
        (∃ inner line, e.trace = inner ++ [⟨moduleName, line, "(script)"⟩]) ∧
        ∃ body n, parseModule source = .ok body ∧
          (runModule (c.host.engine depth) moduleName body).run
            (m.onVm fun vm => { vm.openModule moduleName with depth := 0 }) = .ok (.error e) n ∧
          m' = c.told n e) ∧
    ∀ signature e m',
      (c.host.engine depth).call signature m = .ok (.error (.runtime e)) m' →
      ∃ book, (Logged.engine c depth).call signature (Logged.beside m .blank) =
          .ok (.error (.runtime e)) (Logged.beside m' book) ∧
        e.trace.map (·.activation) = book.active ∧
        ∃ n, ((c.host.engine depth).sent signature).run m = .ok (.error e) n ∧ m' = c.told n e := by
  have runs := Logged.engine_runs c m.vm.modules depth
  have going : (Logged.course c m.vm.modules []).going (Logged.beside m .blank).vm.modules
      (Logged.beside m .blank).host := ⟨rfl, .blank c m.vm.modules⟩
  constructor
  · intro moduleName source e m' failed
    obtain ⟨book, ran⟩ := Logged.of_forget (Logged.interpret_forget c depth moduleName source
      (Logged.beside m .blank)) failed
    have told := Logged.interpret_told runs rfl moduleName source going
    rw [ran] at told
    have active := (Logged.bodyCourse_fault told).1
    obtain ⟨inner, entry, trace, named, -⟩ := told
    refine ⟨book, ran, ?_, ⟨inner, entry.line, ?_⟩, interpret_failed failed⟩
    · rw [List.append_nil] at active
      exact active.symm
    · obtain ⟨_, line, _⟩ := entry
      cases named
      exact trace
  · intro signature e m' failed
    obtain ⟨book, ran⟩ := Logged.of_forget (Logged.call_forget c depth signature
      (Logged.beside m .blank)) failed
    have told := Logged.call_told runs rfl signature going
    rw [ran] at told
    have active := told.1
    rw [List.append_nil] at active
    exact ⟨book, ran, active.symm, call_failed failed⟩

/-! ### Two scripts that fail -/

/-- A run that ended with a fault, as can be found out by running it. -/
theorem failed_of_check {H : Type}
    {r : EStateM.Result Halt (Machine H) (Except InterpretError Unit)}
    {P : RuntimeError → Machine H → Prop} [∀ e m, Decidable (P e m)]
    (h : (match r with
      | .ok (.error (.runtime e)) m => decide (P e m)
      | _ => false) = true) : ∃ e m, r = .ok (.error (.runtime e)) m ∧ P e m := by
  split at h
  · exact ⟨_, _, rfl, of_decide_eq_true h⟩
  · cases h

/-- A program with a module to import, and two foreign classes. The objects of `A` are made of the
class that the constructor is given. -/
def lending : Plan where
  modules := [("other",
    "class Q \x7b static f() \x7b null.foo() \x7d \x7d\nforeign class B \x7b\x7d")]
  methods := []
  classes := [("A", ⟨some [.newForeign 0 1 none], false, none⟩), ("B", ⟨some [], false, none⟩)]
  hearing := ⟨true, true, true, true, true⟩

def calling : String :=
  "import \"other\" for Q\nclass P \x7b construct new() \x7b Q.f() \x7d \x7d\nP.new()"

/-- A method of another module that fails inside a constructor. -/
theorem traces_name_running_bodies_nested :
    ∃ e m' book,
      (lending.conduct.host.engine unreachedDepth).interpret "main" calling (.fresh .empty) =
        .ok (.error (.runtime e)) m' ∧
      Logged.interpret (Logged.engine lending.conduct unreachedDepth) "main" calling
        (Logged.beside (.fresh .empty) .blank) =
          .ok (.error (.runtime e)) (Logged.beside m' book) ∧
      book.active = [⟨"other", "Q.f()"⟩, ⟨"main", "P.new()"⟩, ⟨"main", "(script)"⟩] := by
  obtain ⟨e, m', failed, trace⟩ := failed_of_check
    (r := (lending.conduct.host.engine unreachedDepth).interpret "main" calling (.fresh .empty))
    (P := fun e _ => e.trace.map (·.activation) =
      [⟨"other", "Q.f()"⟩, ⟨"main", "P.new()"⟩, ⟨"main", "(script)"⟩]) (by decide +kernel)
  obtain ⟨book, ran, active, -⟩ := (traces_name_running_bodies lending.conduct unreachedDepth
    (.fresh .empty)).1 "main" calling e m' failed
  exact ⟨e, m', book, failed, ran, active.symm.trans trace⟩

def lent : String :=
  "import \"other\" for B\nforeign class A \x7b\n  construct new(b) \x7b\n    null.foo()\n" ++
    "  \x7d\n\x7d\nA.new(B)"

/-- The class that a variable of a module is bound to has a constructor of a signature. -/
def Machine.Constructs {H : Type} (m : Machine H) (moduleName className signature : String) :
    Bool :=
  match m.method? ((m.vm.binding? moduleName className).getD .null) signature with
  | some (.constructor _) => true
  | _ => false

/-- A constructor is not always named after its class: here that of `A`, in the main module, runs
and fails, and the trace has it as one of `B` in the other module, which has none. -/
theorem constructor_not_named_for_class :
    ∃ e m',
      (lending.conduct.host.engine unreachedDepth).interpret "main" lent (.fresh .empty) =
        .ok (.error (.runtime e)) m' ∧
      e.trace.map (·.activation) = [⟨"other", "B.new(_)"⟩, ⟨"main", "(script)"⟩] ∧
      m'.Constructs "main" "A" "new(_)" = true ∧ m'.Constructs "other" "B" "new(_)" = false :=
  failed_of_check (by decide +kernel)

end ScriptHost
