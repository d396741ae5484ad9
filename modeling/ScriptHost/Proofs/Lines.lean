import ScriptHost.Proofs.Lines.Erasure
import ScriptHost.Proofs.Lines.Marks
import ScriptHost.Proofs.Traces

/-! The lines of a stack trace. What was under way when a fault was raised is known from the chart,
which has nothing to do with how a trace comes about: each entry of the trace has the line of the
innermost statement of its body. The one exception is a `while` that asks its condition again. -/

namespace ScriptHost

variable {H : Type}

namespace Charted

/-- A plain run that went well is one with a chart. -/
theorem of_forget {α : Type} {r : EStateM.Result Halt (Machine (Charted H)) α}
    {s : EStateM.Result Halt (Machine H) α} {a : α} {m' : Machine H} (same : forget r = s)
    (ran : s = .ok a m') : ∃ chart, r = .ok a (beside m' chart) := by
  subst same
  cases r with
  | ok b n =>
    cases ran
    exact ⟨n.host.chart, rfl⟩
  | error halt n => cases ran

end Charted

/-- Whatever a host does: when a script or a call ends with a fault, the interpreter with a chart
ends with it too, and the chart has one place for each entry of the trace. The entry is of the body
that ran there, with the line of the innermost statement that was under way in it, or, where that is
a `while` whose body was executed before, with the line of what was started last in that body. -/
theorem faults_carry_lines (host : Host H) (depth : Nat) (m : Machine H) :
    (∀ moduleName source e m',
      (host.engine depth).interpret moduleName source m = .ok (.error (.runtime e)) m' →
      ∃ chart, Charted.interpret (Charted.engine host depth) moduleName source
          (Charted.beside m []) = .ok (.error (.runtime e)) (Charted.beside m' chart) ∧
        List.Forall₂ TraceEntry.Marks e.trace chart) ∧
    ∀ signature e m',
      (host.engine depth).call signature m = .ok (.error (.runtime e)) m' →
      ∃ chart, (Charted.engine host depth).call signature (Charted.beside m []) =
          .ok (.error (.runtime e)) (Charted.beside m' chart) ∧
        List.Forall₂ TraceEntry.Marks e.trace chart := by
  constructor
  · intro moduleName source e m' failed
    obtain ⟨chart, ran⟩ := Charted.of_forget (Charted.interpret_forget host depth moduleName source
      (Charted.beside m [])) failed
    obtain ⟨inner, whole, marks⟩ := Charted.interpret_marks ran
    obtain rfl := whole.trans (List.append_nil inner)
    exact ⟨chart, ran, marks⟩
  · intro signature e m' failed
    obtain ⟨chart, ran⟩ := Charted.of_forget (Charted.call_forget host depth signature
      (Charted.beside m [])) failed
    obtain ⟨inner, whole, marks⟩ := Charted.call_marks ran
    obtain rfl := whole.trans (List.append_nil inner)
    exact ⟨chart, ran, marks⟩

/-! ### Two scripts that fail -/

def searching : String :=
  "import \"other\" for Q\nclass P \x7b\n  construct new() \x7b\n    for (i in [true]) \x7b\n" ++
    "      if (i) Q.f()\n    \x7d\n  \x7d\n\x7d\nP.new()"

/-- A method of another module that fails below a condition in a loop of a constructor. -/
theorem faults_carry_lines_loop :
    ∃ e m' chart,
      (lending.conduct.host.engine unreachedDepth).interpret "main" searching (.fresh .empty) =
        .ok (.error (.runtime e)) m' ∧
      e.trace = [⟨"other", 1, "Q.f()"⟩, ⟨"main", 5, "P.new()"⟩, ⟨"main", 9, "(script)"⟩] ∧
      Charted.interpret (Charted.engine lending.conduct.host unreachedDepth) "main" searching
        (Charted.beside (.fresh .empty) []) =
          .ok (.error (.runtime e)) (Charted.beside m' chart) ∧
      List.Forall₂ TraceEntry.Marks e.trace chart := by
  obtain ⟨e, m', failed, trace⟩ := failed_of_check
    (r := (lending.conduct.host.engine unreachedDepth).interpret "main" searching (.fresh .empty))
    (P := fun e _ => e.trace =
      [⟨"other", 1, "Q.f()"⟩, ⟨"main", 5, "P.new()"⟩, ⟨"main", 9, "(script)"⟩])
    (by decide +kernel)
  obtain ⟨chart, ran, marks⟩ := (faults_carry_lines lending.conduct.host unreachedDepth
    (.fresh .empty)).1 "main" searching e m' failed
  exact ⟨e, m', chart, failed, trace, ran, marks⟩

theorem TraceEntry.Carries.lines {trace : List TraceEntry} {chart : List Progress}
    (h : List.Forall₂ TraceEntry.Carries trace chart) :
    chart.map Progress.line? = (trace.map (·.line)).map some := by
  induction h with
  | nil => rfl
  | cons carries _ ih => exact congrArg₂ List.cons carries.2 ih

def waiting : String :=
  "var a = true\nwhile (a || null.foo) \x7b\n  a = false\n\x7d"

/-- Not each entry has the line of its innermost statement: here the condition of a `while` fails
when it is asked again, and the entry has the line of the assignment in the loop. -/
theorem repeated_condition_misplaced :
    ∃ e m' chart,
      (lending.conduct.host.engine unreachedDepth).interpret "main" waiting (.fresh .empty) =
        .ok (.error (.runtime e)) m' ∧
      Charted.interpret (Charted.engine lending.conduct.host unreachedDepth) "main" waiting
        (Charted.beside (.fresh .empty) []) =
          .ok (.error (.runtime e)) (Charted.beside m' chart) ∧
      e.trace.map (·.line) = [3] ∧ chart.map Progress.line? = [some 2] ∧
      ¬List.Forall₂ TraceEntry.Carries e.trace chart := by
  obtain ⟨e, m, ran, trace, chart⟩ := failed_of_check
    (r := Charted.interpret (Charted.engine lending.conduct.host unreachedDepth) "main" waiting
      (Charted.beside (.fresh .empty) []))
    (P := fun e m => e.trace.map (·.line) = [3] ∧ m.host.chart.map Progress.line? = [some 2])
    (by decide +kernel)
  have failed := Charted.interpret_forget lending.conduct.host unreachedDepth "main" waiting
    (Charted.beside (.fresh .empty) [])
  rw [ran] at failed
  refine ⟨e, Charted.plain m, m.host.chart, failed.symm, ran, trace, chart, fun carries => ?_⟩
  have lines := TraceEntry.Carries.lines carries
  rw [trace, chart] at lines
  exact absurd lines (by decide)

end ScriptHost
