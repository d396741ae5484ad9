import ScriptHost.Proofs.Binding.Dispatch
import ScriptHost.Proofs.Simulation.Facade
import ScriptHost.Proofs.Splitting.Scripts

/-! Messages, modules and scripts where some code has moved. A method is found where it was found,
and its moved declaration runs alike; so an engine that works to some depth does the same wherever
code stands, by induction on the depth. -/

namespace ScriptHost

variable {H α β : Type} {s : Split H} {g : Footing} {engine : Engine H} {host : Host H}
  {b : Position}

/-! ### Methods of the machine itself -/

namespace Primitive

theorem answer_alike (x : Except RuntimeFault Value) :
    s.RunAlike g Eq (answer x : Run H Value) (answer x) := by
  cases x with
  | ok v => exact .pure rfl
  | error f => exact .fault f

theorem append_alike (v : Value) (args : List Value) :
    s.RunAlike g Eq (apply engine .append v args) (apply engine .append v args) := by
  refine (answer_alike _).bind_eq fun item => ?_
  cases v with
  | list id =>
    refine Split.RunAlike.bind_eq (.modify fun {m n} alike => ?_) fun _ => .pure rfl
    exact alike.mapHeap (alike.heap.append id item) (Nat.le_refl _)
  | _ => exact .pure rfl

theorem elementAt_alike (v : Value) (args : List Value) :
    s.RunAlike g Eq (apply engine .subscript v args) (apply engine .subscript v args) := by
  cases v with
  | list id =>
    refine (answer_alike _).bind_eq fun index => .get_bind fun {m n} alike => ?_
    rw [alike.heap.list]
    exact answer_alike _ alike
  | _ => exact .pure rfl

theorem listText_alike (blind : engine.Blind s) (v : Value) (args : List Value) :
    s.RunAlike g Eq (apply engine .listText v args) (apply engine .listText v args) := by
  cases v with
  | list id =>
    refine .get_bind fun {m n} alike => ?_
    rw [alike.heap.list]
    exact ((blind.textsOf _).bind_eq fun _ => .pure rfl) alike
  | _ => exact .pure rfl

theorem written_alike (blind : engine.Blind s) (args : List Value) (close : String → String) :
    s.RunAlike g Eq
      (do
        let v ← answer (argument args)
        engine.write (close (← engine.textOf v))
        return v)
      (do
        let v ← answer (argument args)
        engine.write (close (← engine.textOf v))
        return v) := by
  refine (answer_alike _).bind_eq fun v => (blind.textOf v).bind_eq fun text => ?_
  exact (Split.RunAlike.lift (blind.told _)).bind_eq fun _ => .pure rfl

/-- A method of the machine itself does the same on machines that hold the same objects. -/
theorem apply_alike (blind : engine.Blind s) (p : Primitive) (v : Value) (args : List Value) :
    s.RunAlike g Eq (p.apply engine v args) (p.apply engine v args) := by
  cases p with
  | append => exact append_alike v args
  | listCount =>
    cases v with
    | list id =>
      refine .get_bind fun {m n} alike => ?_
      rw [alike.heap.list]
      exact Split.RunAlike.pure rfl alike
    | _ => exact .pure rfl
  | subscript => exact elementAt_alike v args
  | listText => exact listText_alike blind v args
  | stringCount => cases v <;> exact .pure rfl
  | printNewline => exact (Split.RunAlike.lift (blind.told _)).bind_eq fun _ => .pure rfl
  | print => exact written_alike blind args (· ++ "\n")
  | write => exact written_alike blind args id
  | boolNot | boolText | nullNot | nullText | negate | absolute | floor | ceil | squareRoot
  | isInteger | numberText | stringText => exact .pure rfl
  | _ => exact answer_alike _

end Primitive

theorem Split.Alike.answerAnyway {m n : Machine H} (alike : s.Alike g m n) (v : Value)
    (signature : String) (args : List Value) :
    answerAnyway n v signature args = answerAnyway m v signature args := by
  simp only [ScriptHost.answerAnyway, alike.heap.describe, alike.classOf, alike.heap.className]

/-! ### Running a method -/

theorem nested_alike {P : α → β → Prop} {x : Run H α} {y : Run H β}
    (h : s.RunAlike { g with depth := g.depth + 1 } P x y) :
    s.RunAlike g P (nested x) (nested y) := by
  intro m n alike
  have depth : n.vm.depth = m.vm.depth := congrArg Vm.depth alike.vm
  by_cases deep : depthLimit ≤ m.vm.depth
  · rw [nested_run_deep x deep, nested_run_deep y (depth ▸ deep)]
    exact .ok alike (.fault (.raised _))
  · rw [nested_run x deep, nested_run y (depth ▸ deep)]
    have inside := alike.onVm (f := Vm.deeper) alike.home (Nat.succ_le_succ alike.depth)
    refine Split.Ended.bind_from (h inside) fun {_ _ m n} after came => ?_
    have depth : n.vm.depth = m.vm.depth := congrArg Vm.depth after.vm
    rw [countOff_then, countOff_then, depth]
    split
    · exact .halt after
    · have bound : m.vm.depth - 1 ≤ g.depth := by
        have below := after.depth
        dsimp only at below
        omega
      exact .ok (after.onVm (f := Vm.shallower) after.home bound) came

theorem callScript_alike (blind : engine.Blind s) (landing : Landing s.base b) (decl : MethodDecl)
    (receiver : Value) (args : List Value) :
    s.RunAlike g Eq (callScript engine decl receiver args)
      (callScript engine (decl.rebase b) receiver args) := by
  intro m n alike
  rw [callScript_run, callScript_run, alike.moduleOf, alike.classOf, alike.heap.className,
    MethodDecl.rebase_body, MethodDecl.rebase_kind, ← Stmt.rebaseAll_eq]
  have frames (moduleName className : String) :
      Frame.Moved b (decl.frame moduleName className receiver args) True
        (decl.frame moduleName className receiver args)
        ((decl.rebase b).frame moduleName className receiver args) := by
    refine ⟨rfl, rfl, rfl, rfl, ?_, fun _ => ?_⟩
    · simp only [MethodDecl.frame, MethodDecl.rebase_params, MethodDecl.rebase_signature]
    · rw [MethodDecl.frame, MethodDecl.rebase_span, Span.rebase_line]
      rfl
  refine Split.RunAlike.bind_eq (.modify fun alike => alike.openModule _) (fun _ => ?_) alike
  refine (Split.ScriptAlike.activate landing (frames _ _)
    (execAll_alike blind landing (decl.body.getD []))).bind_eq fun flow => ?_
  split
  · exact .pure rfl
  · exact .pure rfl

theorem callForeign_alike (blind : host.Blind s) (knows : engine.Blind s) (f : HostFunction)
    (receiver : Value) (args : List Value) :
    s.RunAlike g Eq (callForeign host engine f receiver args)
      (callForeign host engine f receiver args) := by
  intro m n alike
  rw [callForeign_bind, callForeign_bind]
  have inside : s.Alike g (m.windowed receiver args) (n.windowed receiver args) :=
    alike.onVm alike.home alike.depth
  refine Split.Ended.bind (blind.run knows g f inside) fun {_ _ m' n'} after _ => ?_
  have closed : s.Alike g (m'.closed m.vm) (n'.closed n.vm) := by
    rw [alike.vm]
    exact after.onVm after.home after.depth
  refine .ok closed ?_
  rw [after.vm, Vm.verdict]
  split
  · exact .fault (.raised _)
  · exact .ok rfl

theorem newObject_alike (blind : host.Blind s) (knows : engine.Blind s) (classId : ClassId)
    (o : ClassObject) (args : List Value) :
    s.RunAlike g Eq (newObject host engine classId o args)
      (newObject host engine classId (o.rebase b) args) := by
  have same : newObject host engine classId (o.rebase b) args =
    newObject host engine classId o args := rfl
  rw [same]
  unfold newObject
  split
  · split
    · exact .fault _
    · refine (callForeign_alike blind knows _ _ _).bind_eq fun v => ?_
      split
      · exact .pure rfl
      · exact .fault _
  · refine Split.RunAlike.bind_eq (.modifyGet fun {m n} alike => ?_) fun _ => .pure rfl
    exact alike.onHeap (alike.heap.addInstance classId) (Nat.le_refl _)

theorem construct_alike (blind : host.Blind s) (knows : engine.Blind s)
    (landing : Landing s.base b) (classId : ClassId) (decl : MethodDecl) (args : List Value) :
    s.RunAlike g Eq (construct host engine classId decl args)
      (construct host engine classId (decl.rebase b) args) := by
  intro m n alike
  rw [construct_run, construct_run]
  obtain ⟨b', -, -, there⟩ := alike.heap.classes classId
  rw [there]
  cases m.heap.class? classId with
  | none => exact Split.RunAlike.pure rfl alike
  | some o =>
    refine ((newObject_alike blind knows classId o args).bind_eq fun object => ?_) alike
    exact (callScript_alike knows landing decl object args).bind_eq fun _ => .pure rfl

theorem invoke_alike (blind : host.Blind s) (knows : engine.Blind s) (receiver : Value)
    (signature : String) (args : List Value) :
    s.RunAlike g Eq (invoke host engine receiver signature args)
      (invoke host engine receiver signature args) := by
  refine .get_bind fun {m n} alike => ?_
  obtain ⟨b, landing, found⟩ := alike.method? receiver signature
  rw [found]
  cases m.method? receiver signature with
  | none =>
    rw [Option.map_none, alike.answerAnyway]
    exact Primitive.answer_alike _ alike
  | some method =>
    rw [Option.map_some]
    cases method with
    | primitive p => exact Primitive.apply_alike knows p receiver args alike
    | foreign f => exact callForeign_alike blind knows f receiver args alike
    | script decl => exact nested_alike (callScript_alike knows landing decl receiver args) alike
    | constructor decl =>
      cases receiver with
      | classObject id =>
        exact nested_alike (construct_alike blind knows landing id decl args) alike
      | _ => exact Split.RunAlike.fault _ alike

/-! ### Modules -/

theorem runModule_alike (knows : engine.Blind s) (landing : Landing s.base b) (name : String)
    (body : List Stmt) :
    s.RunAlike g Eq (runModule engine name body)
      (runModule engine name (body.map (Stmt.rebase b))) := by
  have frames : Frame.Moved b (.ofModule name) False (.ofModule name) (.ofModule name) :=
    ⟨rfl, rfl, rfl, rfl, rfl, False.elim⟩
  rw [← Stmt.rebaseAll_eq]
  exact (Split.ScriptAlike.activate landing frames
    (execAll_alike knows landing body)).bind_eq fun _ => .pure rfl

/-- A module that is the same in both runs. -/
theorem runModule_here (knows : engine.Blind s) (name : String) (body : List Stmt) :
    s.RunAlike g Eq (runModule engine name body) (runModule engine name body) := by
  have ran := runModule_alike (g := g) knows .here name body
  rw [← Stmt.rebaseAll_eq, Stmt.origin_rebaseAll] at ran
  exact ran

theorem forall₂_same (rs : List Report) : List.Forall₂ (Report.Moved s.base) rs rs :=
  List.forall₂_same.mpr fun r _ => .same r

theorem loadModule_alike (knows : engine.Blind s) (name : String) :
    s.RunAlike g Eq (loadModule engine name) (loadModule engine name) := by
  refine (Split.RunAlike.modifyGet fun alike =>
    alike.onHost (knows.callbacks.load name)).bind_eq fun found => ?_
  split
  · exact .fault _
  · split
    · exact (Split.RunAlike.lift (knows.reportAll (forall₂_same _))).bind_eq fun _ => .fault _
    · refine Split.RunAlike.bind_eq (.modify fun alike => alike.openModule name) fun _ => ?_
      exact runModule_here knows name _

/-! ### The interpreter -/

theorem run_alike (blind : host.Blind s) (knows : engine.Blind s) (action : Action) :
    s.RunAlike g Eq (action.run host engine) (action.run host engine) := by
  cases action with
  | send receiver signature args => exact invoke_alike blind knows receiver signature args
  | load name => exact (loadModule_alike knows name).bind_eq fun _ => .pure rfl

/-- An engine that works to some depth does the same wherever code stands, if its host does. -/
theorem Host.Blind.engine_blind (blind : host.Blind s) (depth : Nat) :
    (host.engine depth).Blind s := by
  induction depth with
  | zero => exact ⟨blind.callbacks, fun g _ => .halt _⟩
  | succ depth ih => exact ⟨blind.callbacks, fun g action => run_alike blind ih action⟩

/-! ### What the host asks for -/

namespace Engine

variable {m n : Machine H}

/-- A run that the host asked for: its fault is reported, and given back. -/
theorem concluded_alike {P : α → β → Prop} (knows : engine.Blind s)
    {x : Live H (Except RuntimeError α)} {y : Live H (Except RuntimeError β)}
    {f : Except RuntimeError α → Live H (Except InterpretError Unit)}
    {f' : Except RuntimeError β → Live H (Except InterpretError Unit)}
    (ended : s.Ended g (s.Came P) (x m) (y n))
    (ok : ∀ {a b}, P a b → s.LiveAlike g (Concluded s.base) (f (.ok a)) (f' (.ok b)))
    (faulty : ∀ e, f (.error e) = do
      engine.reportAll e.reports
      return .error (.runtime e))
    (faulty' : ∀ e, f' (.error e) = do
      engine.reportAll e.reports
      return .error (.runtime e)) :
    s.Ended g (Concluded s.base) ((x >>= f) m) ((y >>= f') n) := by
  refine ended.bind ?_
  rintro _ _ m n alike (hab | moved)
  · exact ok hab alike
  · rw [faulty, faulty']
    refine ((knows.reportAll moved.reports).bind fun _ => ?_) alike
    exact .pure (.runtime moved)

/-- A script run on machines that are alike once its module is open and no method is running. -/
theorem interpret_alike (knows : engine.Blind s) (moduleName source : String) :
    s.LiveAlike g (Concluded s.base) (engine.interpret moduleName source)
      (engine.interpret moduleName source) := by
  intro m n alike
  unfold interpret
  cases parsed : parseModule source with
  | error errors =>
    refine ((knows.reportAll (forall₂_same _)).bind fun _ => ?_) alike
    exact .pure (.compile errors)
  | ok body =>
    have opened : s.Alike g (m.onVm fun vm => { vm.openModule moduleName with depth := 0 })
        (n.onVm fun vm => { vm.openModule moduleName with depth := 0 }) :=
      alike.onVm (Vm.hasModule_openModule alike.home moduleName) (Nat.zero_le _)
    exact concluded_alike knows (runModule_here knows moduleName body opened)
      (fun _ => .pure .ok) (fun _ => rfl) fun _ => rfl

theorem sent_alike (knows : engine.Blind s) (signature : String) :
    s.RunAlike g Eq (engine.sent signature) (engine.sent signature) := by
  intro m n alike
  rw [sent_run, sent_run, alike.vm]
  split
  · split
    · exact knows.perform g _ alike
    · exact Split.RunAlike.fault _ alike
  · exact Split.RunAlike.fault _ alike

theorem call_alike (knows : engine.Blind s) (signature : String) :
    s.LiveAlike g (Concluded s.base) (engine.call signature) (engine.call signature) := by
  intro m n alike
  rw [call_run, call_run]
  refine concluded_alike knows (sent_alike knows signature alike) (fun {v _} same => ?_)
    (fun _ => rfl) fun _ => rfl
  obtain rfl := same
  refine (Split.LiveAlike.modify fun alike => ?_).bind fun _ => .pure .ok
  exact alike.onVm alike.home alike.depth

end Engine
end ScriptHost
