import ScriptHost.Proofs.Binding.Dispatch
import ScriptHost.Proofs.Course.Logbook

/-! The interpreter on course. Expressions, statements and the methods of the machine itself stay on
a course as long as what the engine runs for them does: by induction on the expression and on the
statement, loops by induction on their turns. A module is loaded only where it is not registered. -/

namespace ScriptHost

variable {H α : Type} {C : Course H} {engine : Engine H} {body : Activation}

/-- Surroundings of a script that stay on course. -/
structure Course.Runs (C : Course H) (engine : Engine H) : Prop extends C.Lawful where
  write : ∀ text, C.Follows (engine.callbacks.write text)
  report : ∀ r, C.Follows (engine.callbacks.report r)
  bindMethod : ∀ name, C.Follows (engine.callbacks.bindMethod name)
  bindClass : ∀ moduleName className, C.Follows (engine.callbacks.bindClass moduleName className)
  send : ∀ receiver signature args, RunKeeps C (engine.perform (.send receiver signature args))
  load : ∀ {m}, C.going m.vm.modules m.host → ∀ {name}, m.vm.hasModule name = false →
    C.Ended C.Settled ((engine.perform (.load name)).run m)

namespace Engine

theorem reportAll_keeps (runs : C.Runs engine) (rs : List Report) :
    LiveKeeps C (engine.reportAll rs) := by
  induction rs with
  | nil => exact .pure ()
  | cons r rest ih => exact LiveKeeps.bind (.callback (runs.report r)) fun _ => ih

theorem textOf_keeps (runs : C.Runs engine) (v : Value) : RunKeeps C (engine.textOf v) := by
  cases v with
  | string s => exact .pure s
  | number x => exact .pure _
  | _ =>
    refine (runs.send _ "toString" []).bind fun answer => ?_
    cases answer with
    | string s => exact .pure s
    | _ => exact .get_bind fun m => .pure _

theorem textsOf_keeps (runs : C.Runs engine) (vs : List Value) :
    RunKeeps C (engine.textsOf vs) := by
  induction vs with
  | nil => exact .pure []
  | cons v rest ih =>
    exact (textOf_keeps runs v).bind fun _ => ih.bind fun _ => .pure _

/-- The message of a call that a host asks for. -/
theorem sent_keeps (runs : C.Runs engine) (signature : String) :
    RunKeeps C (engine.sent signature) := by
  refine .get_bind fun m => ?_
  cases m.vm.slots with
  | nil => exact .fault runs.toLawful rfl
  | cons receiver rest =>
    dsimp only
    split
    · exact runs.send _ _ _
    · exact .fault runs.toLawful rfl

end Engine

/-! ### Methods of the machine itself -/

namespace Primitive

theorem answer_keeps (raises : C.Raises) (answered : Except RuntimeFault Value) :
    RunKeeps C (answer answered : Run H Value) := by
  cases answered with
  | ok v => exact .pure v
  | error f => exact fun _ going => raises going f

theorem apply_keeps (runs : C.Runs engine) (raises : C.Raises) (p : Primitive) (receiver : Value)
    (args : List Value) : RunKeeps C (p.apply engine receiver args) := by
  have answers := answer_keeps raises
  cases p with
  | stringCount | listCount => cases receiver <;> exact fun _ going => going
  | append =>
    refine (answers _).bind fun item => ?_
    cases receiver with
    | list id => exact (RunKeeps.modify fun _ going => going).bind fun _ => .pure item
    | _ => exact .pure item
  | subscript =>
    cases receiver with
    | list id => exact (answers _).bind fun index => .get_bind fun m => answers _
    | _ => exact .pure Value.null
  | listText =>
    cases receiver with
    | list id =>
      exact .get_bind fun m => (Engine.textsOf_keeps runs _).bind fun _ => .pure _
    | _ => exact .pure _
  | printNewline =>
    exact (RunKeeps.lift (.callback (runs.write "\n"))).bind fun _ => .pure Value.null
  | print | write =>
    refine (answers _).bind fun v => (Engine.textOf_keeps runs v).bind fun text => ?_
    exact (RunKeeps.lift (.callback (runs.write _))).bind fun _ => .pure v
  | add | subtract | multiply | divide | remainder | less | greater | lessEqual | greaterEqual
  | concat | contains => exact answers _
  | _ => exact .pure _

end Primitive

/-! ### Expressions -/

namespace Script

theorem readField_keeps (laws : C.Lawful) (name : String) :
    ScriptKeeps C body (readField name : Script H Value) := by
  refine .getFrame_bind fun k _ => ?_
  rcases k.this with _ | _ | _
  case some.object id => exact .get_bind fun m => .pure _
  all_goals exact .fault laws rfl

theorem assignTo_keeps (laws : C.Lawful) (target : Target) (v : Value) :
    ScriptKeeps C body (assignTo target v : Script H Unit) := by
  cases target with
  | «variable» name =>
    refine .getFrame_bind fun k _ => .get_bind fun m => ?_
    cases Frame.assignLocal? name v k.scopes with
    | some scopes => exact .modifyFrame fun _ => rfl
    | none =>
      dsimp only
      split
      · exact .modify fun _ going => laws.define going k.moduleName name v
      · exact .fault laws rfl
  | field name =>
    refine .getFrame_bind fun k _ => ?_
    rcases k.this with _ | _ | _
    case some.object id => exact .modify fun _ going => going
    all_goals exact .fault laws rfl

theorem lookup_keeps (laws : C.Lawful) (name : String) :
    ScriptKeeps C body (lookup name : Script H Value) := by
  refine .getFrame_bind fun k _ => .get_bind fun m => ?_
  cases k.local? name with
  | some v => exact .pure v
  | none =>
    dsimp only
    cases m.vm.binding? k.moduleName name with
    | some v => exact .pure v
    | none => exact .fault laws rfl

theorem declare_keeps (laws : C.Lawful) (name : String) (v : Value) :
    ScriptKeeps C body (declare name v : Script H Unit) := by
  refine .getFrame_bind fun k _ => ?_
  cases k.scopes with
  | nil => exact .modify fun _ going => laws.define going k.moduleName name v
  | cons scope outer => exact .modifyFrame fun _ => rfl

theorem send_keeps (runs : C.Runs engine) (receiver : Value) (signature : String)
    (args : List Value) : ScriptKeeps C body (send engine receiver signature args) :=
  .ofRun (runs.send receiver signature args)

end Script

mutual

theorem eval_keeps (runs : C.Runs engine) (e : Expr) : ScriptKeeps C body (eval engine e) := by
  cases e with
  | number _ x => simp only [eval]; exact .pure _
  | string _ s => simp only [eval]; exact .pure _
  | interpolation _ parts =>
    simp only [eval]
    exact (evalFragments_keeps runs parts).bind fun _ => .pure _
  | bool _ b => simp only [eval]; exact .pure _
  | null _ => simp only [eval]; exact .pure _
  | this _ =>
    simp only [eval]
    refine .getFrame_bind fun k _ => ?_
    cases k.this with
    | some v => exact .pure v
    | none => exact .fault runs.toLawful rfl
  | «variable» _ name => simp only [eval]; exact Script.lookup_keeps runs.toLawful name
  | field _ name => simp only [eval]; exact Script.readField_keeps runs.toLawful name
  | list _ elements =>
    simp only [eval]
    refine (evalAll_keeps runs elements).bind fun _ => ?_
    exact (ScriptKeeps.modifyGet fun _ going => going).bind fun _ => .pure _
  | unary _ op operand =>
    simp only [eval]
    exact (eval_keeps runs operand).bind fun v => Script.send_keeps runs v _ _
  | binary _ op lhs rhs =>
    simp only [eval]
    exact (eval_keeps runs lhs).bind fun a => (eval_keeps runs rhs).bind fun b =>
      Script.send_keeps runs a _ _
  | logical _ op lhs rhs =>
    simp only [eval]
    refine (eval_keeps runs lhs).bind fun a => ?_
    split
    · exact .pure a
    · exact .pure a
    · exact eval_keeps runs rhs
  | assign _ target value =>
    simp only [eval]
    refine (eval_keeps runs value).bind fun v => ?_
    exact (Script.assignTo_keeps runs.toLawful target v).bind fun _ => .pure v
  | getter _ receiver name =>
    simp only [eval]
    exact (eval_keeps runs receiver).bind fun v => Script.send_keeps runs v _ _
  | call _ receiver name args =>
    simp only [eval]
    exact (eval_keeps runs receiver).bind fun v => (evalAll_keeps runs args).bind fun _ =>
      Script.send_keeps runs v _ _
  | subscript _ receiver index =>
    simp only [eval]
    exact (eval_keeps runs receiver).bind fun v => (eval_keeps runs index).bind fun _ =>
      Script.send_keeps runs v _ _
termination_by structural e

theorem evalAll_keeps (runs : C.Runs engine) (es : List Expr) :
    ScriptKeeps C body (evalAll engine es) := by
  cases es with
  | nil => simp only [evalAll]; exact .pure []
  | cons e rest =>
    simp only [evalAll]
    exact (eval_keeps runs e).bind fun _ => (evalAll_keeps runs rest).bind fun _ => .pure _
termination_by structural es

theorem evalFragments_keeps (runs : C.Runs engine) (fragments : List Fragment) :
    ScriptKeeps C body (evalFragments engine fragments) := by
  cases fragments with
  | nil => simp only [evalFragments]; exact .pure ""
  | cons fragment rest =>
    cases fragment with
    | literal text =>
      simp only [evalFragments]
      exact (evalFragments_keeps runs rest).bind fun _ => .pure _
    | code e =>
      simp only [evalFragments]
      exact (eval_keeps runs e).bind fun v =>
        (ScriptKeeps.ofRun (Engine.textOf_keeps runs v)).bind fun _ =>
          (evalFragments_keeps runs rest).bind fun _ => .pure _
termination_by structural fragments

end

/-! ### Classes and imports -/

theorem bindMethod_keeps (runs : C.Runs engine) (moduleName className : String)
    (decl : MethodDecl) : RunKeeps C (bindMethod engine moduleName className decl) := by
  unfold bindMethod
  split
  · refine (RunKeeps.callback (runs.bindMethod _)).bind fun found => ?_
    cases found with
    | some f => exact .pure _
    | none => exact .fault runs.toLawful rfl
  · split <;> exact .pure _

theorem bindMethods_keeps (runs : C.Runs engine) (c : ClassObject) (decls : List MethodDecl) :
    RunKeeps C (bindMethods engine c decls) := by
  induction decls generalizing c with
  | nil => exact .pure c
  | cons decl rest ih =>
    unfold bindMethods
    exact (bindMethod_keeps runs c.moduleName c.name decl).bind fun method => ih _

theorem defineClass_keeps (runs : C.Runs engine) (moduleName : String) (decl : ClassDecl) :
    RunKeeps C (defineClass engine moduleName decl) := by
  have bound : RunKeeps C (bindClass engine moduleName decl) := by
    unfold bindClass
    split
    · refine (RunKeeps.callback (runs.bindClass moduleName decl.name)).bind fun answer => ?_
      cases answer with
      | error message => exact .halt runs.toLawful _
      | ok binding =>
        dsimp only
        split
        · exact .fault runs.toLawful rfl
        · exact .pure binding
    · exact .pure _
  refine bound.bind fun binding => (bindMethods_keeps runs _ decl.methods).bind fun c => ?_
  exact .modifyGet fun _ going => going

theorem copyNames_keeps (laws : C.Lawful) (source into : String) (names : List String) :
    RunKeeps C (copyNames source into names) := by
  induction names with
  | nil => exact .pure ()
  | cons name rest ih =>
    refine .get_bind fun m => ?_
    cases m.vm.binding? source name with
    | some v =>
      exact (RunKeeps.modify fun _ going => laws.define going into name v).bind fun _ => ih
    | none => exact .fault laws rfl

theorem importNames_keeps (runs : C.Runs engine) (source into : String) (names : List String) :
    RunKeeps C (importNames engine source into names) := by
  intro m going
  have copied := copyNames_keeps runs.toLawful source into names
  change C.Ended C.Settled ((do
    unless m.vm.hasModule source do
      let _ ← engine.perform (.load source)
    copyNames source into names : Run H Unit).run m)
  -- Only a module that is not there is loaded.
  cases known : m.vm.hasModule source with
  | true => exact copied m going
  | false => exact RunKeeps.bind_at (runs.load going known) fun _ => copied

/-! ### Statements -/

theorem branch_keeps (s : Stmt) {x : Script H Flow} (h : ScriptKeeps C body x) :
    ScriptKeeps C body (branch s x) := by
  unfold branch
  split
  · exact h
  · exact .inScope [] h

theorem repeatWhile_keeps (laws : C.Lawful) {condition : Script H Value} {x : Script H Flow}
    (asked : ScriptKeeps C body condition) (h : ScriptKeeps C body x) (turns : Nat) :
    ScriptKeeps C body (repeatWhile condition x turns) := by
  induction turns with
  | zero => exact .halt laws _
  | succ turns ih =>
    refine asked.bind fun v => ?_
    split
    · refine h.bind fun flow => ?_
      cases flow with
      | normal => exact ih
      | broken => exact .pure _
      | returned v => exact .pure _
    · exact .pure _

theorem forEach_keeps (name : String) {x : Script H Flow} (h : ScriptKeeps C body x)
    (vs : List Value) : ScriptKeeps C body (forEach name x vs) := by
  induction vs with
  | nil => exact .pure _
  | cons v rest ih =>
    refine (ScriptKeeps.inScope [(name, v)] h).bind fun flow => ?_
    cases flow with
    | normal => exact ih
    | broken => exact .pure _
    | returned v => exact .pure _

theorem elementsOf_keeps (laws : C.Lawful) (v : Value) :
    ScriptKeeps C body (elementsOf v : Script H (List Value)) := by
  cases v with
  | list id => exact .get_bind fun m => .pure _
  | _ => exact .fault laws rfl

theorem markLine_keeps (s : Stmt) : ScriptKeeps C body (markLine s : Script H Unit) := by
  unfold markLine
  split
  · exact .modifyFrame fun _ => rfl
  · exact .pure ()

mutual

theorem exec_keeps (runs : C.Runs engine) (s : Stmt) : ScriptKeeps C body (exec engine s) := by
  cases s with
  | expr e =>
    simp only [exec]
    exact (markLine_keeps _).bind fun _ => (eval_keeps runs e).bind fun _ => .pure _
  | var span name init =>
    have declared (v : Value) : ScriptKeeps C body (do
        Script.declare name v
        return .normal : Script H Flow) :=
      (Script.declare_keeps runs.toLawful name v).bind fun _ => .pure _
    cases init with
    | some e =>
      simp only [exec]
      exact (markLine_keeps _).bind fun _ => (eval_keeps runs e).bind declared
    | none =>
      simp only [exec]
      exact (markLine_keeps _).bind fun _ => declared .null
  | ifElse condition thenBranch elseBranch =>
    have first := branch_keeps thenBranch (exec_keeps runs thenBranch)
    cases elseBranch with
    | some other =>
      simp only [exec]
      refine (markLine_keeps _).bind fun _ => (eval_keeps runs condition).bind fun v => ?_
      split
      · exact first
      · exact branch_keeps other (exec_keeps runs other)
    | none =>
      simp only [exec]
      refine (markLine_keeps _).bind fun _ => (eval_keeps runs condition).bind fun v => ?_
      split
      · exact first
      · exact .pure _
  | whileLoop condition loopBody =>
    simp only [exec]
    refine (markLine_keeps _).bind fun _ => ?_
    exact repeatWhile_keeps runs.toLawful (eval_keeps runs condition)
      (branch_keeps loopBody (exec_keeps runs loopBody)) engine.limit
  | forLoop name sequence loopBody =>
    simp only [exec]
    refine (markLine_keeps _).bind fun _ => (eval_keeps runs sequence).bind fun v => ?_
    exact (elementsOf_keeps runs.toLawful v).bind (forEach_keeps name (exec_keeps runs loopBody))
  | block inner =>
    simp only [exec]
    exact (markLine_keeps _).bind fun _ => .inScope [] (execAll_keeps runs inner)
  | returnValue span value =>
    cases value with
    | some e =>
      simp only [exec]
      exact (markLine_keeps _).bind fun _ => (eval_keeps runs e).bind fun _ => .pure _
    | none =>
      simp only [exec]
      exact (markLine_keeps _).bind fun _ => .pure _
  | breakLoop span =>
    simp only [exec]
    exact (markLine_keeps _).bind fun _ => .pure _
  | classDecl decl =>
    simp only [exec]
    refine (markLine_keeps _).bind fun _ => .getFrame_bind fun k _ => ?_
    refine (ScriptKeeps.ofRun (defineClass_keeps runs k.moduleName decl)).bind fun id => ?_
    exact (Script.declare_keeps runs.toLawful decl.name _).bind fun _ => .pure _
  | importNames span source names =>
    simp only [exec]
    refine (markLine_keeps _).bind fun _ => .getFrame_bind fun k _ => ?_
    exact (ScriptKeeps.ofRun (importNames_keeps runs source k.moduleName names)).bind fun _ =>
      .pure _
termination_by structural s

theorem execAll_keeps (runs : C.Runs engine) (statements : List Stmt) :
    ScriptKeeps C body (execAll engine statements) := by
  cases statements with
  | nil => simp only [execAll]; exact .pure _
  | cons s rest =>
    simp only [execAll]
    refine (exec_keeps runs s).bind fun flow => ?_
    cases flow with
    | normal => exact execAll_keeps runs rest
    | broken => exact .pure _
    | returned v => exact .pure _
termination_by structural statements

end

/-! ### Messages -/

theorem nested_keeps {act : Run H α} (laws : C.Lawful) (h : RunKeeps C act) :
    RunKeeps C (nested act) := by
  intro m going
  by_cases deep : depthLimit ≤ m.vm.depth
  · rw [nested_run_deep act deep]
    exact laws.raise going rfl
  · rw [nested_run act deep]
    refine (h (m.onVm Vm.deeper) going).bind fun result n settled => ?_
    rw [countOff_then]
    split
    · cases result with
      | ok a => exact laws.stop settled
      | error e => exact laws.fail settled
    · cases result with
      | ok a => exact settled
      | error e => exact settled

theorem callForeign_keeps {host : Host H} (laws : C.Lawful) (f : HostFunction) (v : Value)
    (vs : List Value) (served : LiveKeeps C (host.run f engine)) :
    RunKeeps C (callForeign host engine f v vs) := by
  intro m going
  rw [callForeign_bind]
  refine Course.Ended.bind (served (m.windowed v vs) going) fun _ n going => ?_
  change C.Settled n.vm.verdict (n.closed m.vm)
  unfold Vm.verdict
  cases n.vm.abort with
  | some message => exact laws.raise going rfl
  | none => exact going

theorem newObject_keeps {host : Host H} (laws : C.Lawful)
    (called : ∀ f v vs, RunKeeps C (callForeign host engine f v vs)) (classId : ClassId)
    (c : ClassObject) (args : List Value) : RunKeeps C (newObject host engine classId c args) := by
  unfold newObject
  split
  · cases c.binding.allocate with
    | none => exact .fault laws rfl
    | some f =>
      refine (called f _ args).bind fun v => ?_
      cases v with
      | foreign id => exact .pure _
      | _ => exact .fault laws rfl
  · exact (RunKeeps.modifyGet fun _ going => going).bind fun id => .pure _

theorem constructBy_keeps {host : Host H} {made : ClassObject → Value → Run H Value}
    (laws : C.Lawful) (called : ∀ f v vs, RunKeeps C (callForeign host engine f v vs))
    (bodies : ∀ c v, RunKeeps C (made c v)) (classId : ClassId) (args : List Value) :
    RunKeeps C (constructBy host engine made classId args) := by
  refine .get_bind fun m => ?_
  cases m.heap.class? classId with
  | none => exact .pure _
  | some c =>
    exact (newObject_keeps laws called classId c args).bind fun object =>
      (bodies c object).bind fun _ => .pure object

theorem invokeBy_keeps {host : Host H} {act : MethodDecl → Run H Value}
    {making : ClassId → MethodDecl → Run H Value} (runs : C.Runs engine) (raises : C.Raises)
    (called : ∀ f v vs, RunKeeps C (callForeign host engine f v vs))
    (acts : ∀ decl, RunKeeps C (act decl)) (makings : ∀ id decl, RunKeeps C (making id decl))
    (receiver : Value) (signature : String) (args : List Value) :
    RunKeeps C (invokeBy host engine act making receiver signature args) := by
  refine .get_bind fun m => ?_
  rcases m.method? receiver signature with _ | p | f | decl | decl
  · exact Primitive.answer_keeps raises _
  · exact Primitive.apply_keeps runs raises p receiver args
  · exact called f receiver args
  · exact acts decl
  · cases receiver with
    | classObject id => exact makings id decl
    | _ => exact fun _ going => raises going _

/-! ### Modules -/

theorem openModule_keeps (laws : C.Lawful) (name : String) :
    RunKeeps C (modify (·.onVm (·.openModule name))) :=
  .modify fun _ going => laws.openModule going name

theorem loadBy_keeps (runs : C.Runs engine) {run : List Stmt → Run H Unit} {name : String}
    (loads : C.Follows (engine.callbacks.load name)) (bodies : ∀ body, RunKeeps C (run body)) :
    RunKeeps C (loadBy engine run name) := by
  refine (RunKeeps.callback loads).bind fun found => ?_
  cases found with
  | none => exact .fault runs.toLawful rfl
  | some source =>
    dsimp only
    cases parseModule source with
    | error errors =>
      exact (RunKeeps.lift (Engine.reportAll_keeps runs _)).bind fun _ =>
        .fault runs.toLawful rfl
    | ok body => exact (openModule_keeps runs.toLawful name).bind fun _ => bodies body

end ScriptHost
