import ScriptHost.Proofs.Course.Interpreter
import ScriptHost.Proofs.Primitives.Home

/-! Runs without misuse. Whatever machine the guarded interpreter starts on, no fault of its runs is
that of an argument missing to a primitive, or of a constructor run for an object. -/

namespace ScriptHost

variable {H α : Type} {m m' : Machine H} {e : RuntimeError}

/-- Runs whose faults are no misuse. -/
def Course.ordinary (H : Type) : Course H where
  going _ _ := True
  fault f _ _ _ := f.isMisuse = false
  halt _ _ := True

open Course (ordinary)

namespace Course.ordinary

variable {engine : Engine H}

theorem lawful : (ordinary H).Lawful where
  define _ _ _ _ := trivial
  register _ _ _ _ := trivial
  raise _ := id
  stop _ := trivial
  fail _ := trivial

theorem live (x : Live H α) : LiveKeeps (ordinary H) x := by
  intro m _
  cases x m <;> trivial

theorem follows (act : StateM H α) : (ordinary H).Follows act := fun _ => trivial

theorem halts (h : Halt) : RunKeeps (ordinary H) (throwThe Halt h : Run H α) := .halt lawful h

/-! ### Answers -/

theorem answer {answered : Except RuntimeFault Value}
    (h : ∀ f, answered = .error f → f.isMisuse = false) :
    RunKeeps (ordinary H) (Primitive.answer answered) := by
  cases answered with
  | ok v => exact .pure v
  | error f => exact .fault lawful (h f rfl)

theorem of_subscript {items : Array Value} {index : Value} (f : RuntimeFault)
    (failed : subscript items index = .error f) : f.isMisuse = false := by
  cases index with
  | number x =>
    unfold subscript at failed
    dsimp only at failed
    split at failed
    · generalize (if _ < (0 : Int) then _ else _ : Int) = place at failed
      split at failed
      · cases failed
        rfl
      · split at failed <;> cases failed
        rfl
    · cases failed
      rfl
  | _ =>
    cases failed
    rfl

theorem of_answerAnyway {m : Machine H} {v : Value} {signature : String} {args : List Value}
    (f : RuntimeFault) (failed : answerAnyway m v signature args = .error f) :
    f.isMisuse = false := by
  unfold answerAnyway at failed
  split at failed
  case h_6 => split at failed <;> cases failed <;> rfl
  all_goals cases failed

/-! ### Bodies -/

theorem activate (runs : (ordinary H).Runs engine) (k : Frame) (statements : List Stmt) :
    RunKeeps (ordinary H) (Script.activate k (execAll engine statements)) :=
  fun _ going => (execAll_keeps runs statements).activate id (fun kept _ _ => kept) id going

theorem body (runs : (ordinary H).Runs engine) (decl : MethodDecl) (receiver : Value)
    (args : List Value) : RunKeeps (ordinary H) (callScript engine decl receiver args) := by
  refine .get_bind fun m => ?_
  refine (openModule_keeps lawful _).bind fun _ => (activate runs _ _).bind fun flow => ?_
  cases flow <;> exact .pure _

theorem foreign (host : Host H) (f : HostFunction) (receiver : Value) (args : List Value) :
    RunKeeps (ordinary H) (callForeign host engine f receiver args) :=
  callForeign_keeps lawful f receiver args (live _)

/-! ### Runs -/

/-- Surroundings whose messages and loads are such runs. -/
theorem runs (performs : ∀ action, RunKeeps (ordinary H) (engine.perform action)) :
    (ordinary H).Runs engine where
  toLawful := lawful
  write _ := follows _
  report _ := follows _
  bindMethod _ := follows _
  bindClass _ _ := follows _
  send receiver signature args := performs (.send receiver signature args)
  load going name _ := performs (.load name) _ going

theorem strict (alarm : Halt) (performs : ∀ action, RunKeeps (ordinary H) (engine.perform action))
    (action : Action) : RunKeeps (ordinary H) ((engine.strict alarm).perform action) := by
  by_cases fits : action.Fits
  · rw [engine.strict_perform alarm action fits]
    exact performs action
  · rw [engine.strict_refuses alarm action fits]
    exact halts alarm

theorem statements (runs : (ordinary H).Runs engine) (name : String) (statements : List Stmt) :
    RunKeeps (ordinary H) (runModule engine name statements) :=
  (activate runs (.ofModule name) statements).bind fun _ => .pure ()

theorem fault {x : Run H α} (keeps : RunKeeps (ordinary H) x)
    (failed : x.run m = .ok (.error e) m') : e.fault.isMisuse = false := by
  have settled := keeps m trivial
  rw [failed] at settled
  exact settled

theorem interpret (runs : (ordinary H).Runs engine) {moduleName source : String}
    (failed : engine.interpret moduleName source m = .ok (.error (.runtime e)) m') :
    e.fault.isMisuse = false := by
  rw [Engine.interpret_by] at failed
  obtain ⟨body, n, -, ran, -⟩ := Engine.interpretBy_failed failed
  exact fault (statements runs moduleName body) ran

theorem call (runs : (ordinary H).Runs engine) {signature : String}
    (failed : engine.call signature m = .ok (.error (.runtime e)) m') :
    e.fault.isMisuse = false := by
  obtain ⟨n, ran, -⟩ := Engine.call_failed failed
  exact fault (Engine.sent_keeps runs signature) ran

end Course.ordinary

open Course.ordinary

/-! ### The guarded interpreter -/

namespace Guarded

variable {engine : Engine H} (alarm : Halt)

theorem arithmetic_ordinary (f : Float → Value) (v : Value) :
    RunKeeps (ordinary H) (arithmetic f v) := by
  cases v with
  | number y => exact .pure (f y)
  | _ => exact .fault lawful rfl

theorem textual_ordinary {complaint : RuntimeFault} (plain : complaint.isMisuse = false)
    (f : String → Value) (v : Value) : RunKeeps (ordinary H) (textual complaint f v) := by
  cases v with
  | string t => exact .pure (f t)
  | _ => exact .fault lawful plain

theorem apply_ordinary (runs : (ordinary H).Runs engine) (p : Primitive) (receiver : Value)
    (args : List Value) : RunKeeps (ordinary H) (apply alarm engine p receiver args) := by
  have written (text : String) : RunKeeps (ordinary H) (monadLift (engine.write text)) :=
    .lift (live _)
  unfold apply
  split
  -- The methods of strings and lists, and of what is printed, in their order.
  case h_21 | h_23 => exact textual_ordinary rfl _ _
  case h_25 item => exact (RunKeeps.modify fun _ _ => trivial).bind fun _ => .pure item
  case h_26 => exact .get_bind fun m => .pure _
  case h_27 => exact .get_bind fun m => answer of_subscript
  case h_28 =>
    exact .get_bind fun m => (Engine.textsOf_keeps runs _).bind fun texts => .pure _
  case h_29 => exact (written _).bind fun _ => .pure Value.null
  case h_30 v | h_31 v =>
    exact (Engine.textOf_keeps runs v).bind fun text => (written _).bind fun _ => .pure v
  case h_32 => exact halts alarm
  -- The others answer at once.
  all_goals first
    | exact .pure _
    | exact arithmetic_ordinary _ _

theorem send_ordinary (runs : (ordinary H).Runs engine) (host : Host H) (receiver : Value)
    (signature : String) (args : List Value) :
    RunKeeps (ordinary H) (send alarm host engine receiver signature args) := by
  refine .get_bind fun m => ?_
  rcases m.method? receiver signature with _ | p | f | decl | decl
  · exact answer of_answerAnyway
  · dsimp only
    split
    · exact apply_ordinary alarm runs p receiver args
    · exact halts alarm
  · exact foreign host f receiver args
  · exact nested_keeps lawful (body runs decl receiver args)
  · cases receiver with
    | classObject id =>
      have constructed : RunKeeps (ordinary H) (construct host engine id decl args) :=
        constructBy_keeps lawful (foreign host) (fun _ object => body runs decl object args) id args
      exact nested_keeps lawful constructed
    | _ => exact halts alarm

theorem run_ordinary (runs : (ordinary H).Runs engine) (host : Host H) (action : Action) :
    RunKeeps (ordinary H) (run alarm host engine action) := by
  cases action with
  | send receiver signature args => exact send_ordinary alarm runs host receiver signature args
  | load name =>
    have loaded : RunKeeps (ordinary H) (loadModule engine name) :=
      loadBy_keeps runs (follows _) (statements runs name)
    exact loaded.bind fun _ => .pure Value.null

/-- The guarded interpreter stays without misuse, at every depth. -/
theorem perform_ordinary (host : Host H) (depth : Nat) (action : Action) :
    RunKeeps (ordinary H) ((Guarded.engine alarm host depth).perform action) := by
  induction depth generalizing action with
  | zero => exact strict alarm (fun _ => halts .exhausted) action
  | succ depth ih => exact strict alarm (run_ordinary alarm (runs ih) host) action

end Guarded
end ScriptHost
