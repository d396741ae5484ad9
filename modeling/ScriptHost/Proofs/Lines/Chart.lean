import ScriptHost.Proofs.Course.Logbook

/-! An interpreter that keeps a chart. Beside the host of a program it has a record of the bodies
that run inside each other, and of the statements that are under way in each. A body or a statement
is entered when it starts and taken off when it ends well, and nothing reads the chart. What a fault
ends stays on it, so that after a failed run it tells what was under way when the fault was raised.
What a host function runs is run by the plain interpreter, since no fault gets out of it. -/

namespace ScriptHost

variable {H α : Type}

/-- How far a body has come: the statements that are under way in it, the innermost first, and the
one of all its statements that was started last, blocks apart. -/
structure Progress where
  body : Activation
  doing : List Stmt
  latest : Option Stmt

namespace Progress

def start (body : Activation) : Progress := ⟨body, [], none⟩

def begin (s : Stmt) (p : Progress) : Progress :=
  ⟨p.body, s :: p.doing, if s.isBlock then p.latest else some s⟩

def finish (p : Progress) : Progress := ⟨p.body, p.doing.tail, p.latest⟩

end Progress

/-- The host's side of a machine, and the chart, the innermost body first. -/
structure Charted (H : Type) where
  side : H
  chart : List Progress

namespace Charted

/-- A machine without its chart. -/
def plain (m : Machine (Charted H)) : Machine H := ⟨m.heap, m.vm, m.host.side⟩

/-- A machine with a chart. -/
def beside (m : Machine H) (chart : List Progress) : Machine (Charted H) :=
  ⟨m.heap, m.vm, ⟨m.host, chart⟩⟩

/-- What is done without a look at the chart. -/
def lift (act : Live H α) : Live (Charted H) α := fun m =>
  match act (plain m) with
  | .ok a n => .ok a (beside n m.host.chart)
  | .error h n => .error h (beside n m.host.chart)

def callback (act : StateM H α) : StateM (Charted H) α := fun c =>
  ((act.run c.side).1, ⟨(act.run c.side).2, c.chart⟩)

def callbacks (c : Callbacks H) : Callbacks (Charted H) where
  write text := callback (c.write text)
  report r := callback (c.report r)
  bindMethod name := callback (c.bindMethod name)
  bindClass moduleName className := callback (c.bindClass moduleName className)
  load name := callback (c.load name)

def noted (change : List Progress → List Progress) (m : Machine (Charted H)) :
    Machine (Charted H) :=
  { m with host := { m.host with chart := change m.host.chart } }

/-! ### Statements -/

/-- A note of how far the innermost body has come. -/
def mark (change : Progress → Progress) : Script (Charted H) Unit :=
  modifyThe (Machine (Charted H)) (noted (·.modifyHead change))

/-- A statement, which is on the chart while it is under way. -/
def during (s : Stmt) (act : Script (Charted H) Flow) : Script (Charted H) Flow := do
  mark (.begin s)
  let flow ← act
  mark .finish
  return flow

mutual

def exec (engine : Engine (Charted H)) (s : Stmt) : Script (Charted H) Flow := during s do
  markLine s
  match s with
  | .expr e =>
    let _ ← eval engine e
    return .normal
  | .var _ name init =>
    match init with
    | some e => Script.declare name (← eval engine e)
    | none => Script.declare name .null
    return .normal
  | .ifElse condition thenBranch elseBranch =>
    if (← eval engine condition).isTrue then branch thenBranch (exec engine thenBranch)
    else match elseBranch with
      | some other => branch other (exec engine other)
      | none => return .normal
  | .whileLoop condition body =>
    repeatWhile (eval engine condition) (branch body (exec engine body)) engine.limit
  | .forLoop name sequence body =>
    forEach name (exec engine body) (← elementsOf (← eval engine sequence))
  | .block body => Script.inScope [] (execAll engine body)
  | .returnValue _ value =>
    match value with
    | some e => return .returned (← eval engine e)
    | none => return .returned .null
  | .breakLoop _ => return .broken
  | .classDecl decl =>
    let id ← Script.ofRun (defineClass engine (← getThe Frame).moduleName decl)
    Script.declare decl.name (.classObject id)
    return .normal
  | .importNames _ source names =>
    Script.ofRun (importNames engine source (← getThe Frame).moduleName names)
    return .normal

def execAll (engine : Engine (Charted H)) : List Stmt → Script (Charted H) Flow
  | [] => return .normal
  | s :: rest => do
    match ← exec engine s with
    | .normal => execAll engine rest
    | flow => return flow

end

/-! ### Bodies -/

/-- A body, which is on the chart while it runs. -/
def activate (frame : Frame) (act : Script (Charted H) α) : Run (Charted H) α := do
  modify (noted (.start frame.activation :: ·))
  let a ← Script.activate frame act
  modify (noted .tail)
  return a

/-- The body of a method run on a receiver. -/
def callScript (engine : Engine (Charted H)) (decl : MethodDecl) (receiver : Value)
    (args : List Value) : Run (Charted H) Value := do
  let m ← get
  let frame :=
    decl.frame (m.moduleOf receiver) (m.heap.className (m.classOf receiver)) receiver args
  modify fun m => m.onVm (·.openModule frame.moduleName)
  match ← activate frame (execAll engine (decl.body.getD [])) with
  | .returned v => return v
  | _ => return if decl.kind = .constructor then receiver else .null

theorem callScript_run (engine : Engine (Charted H)) (decl : MethodDecl) (receiver : Value)
    (args : List Value) (m : Machine (Charted H)) :
    (callScript engine decl receiver args).run m =
      (do
        modify (·.onVm (·.openModule (m.moduleOf receiver)))
        match ← activate
            (decl.frame (m.moduleOf receiver) (m.heap.className (m.classOf receiver)) receiver args)
            (execAll engine (decl.body.getD [])) with
        | .returned v => return v
        | _ => return if decl.kind = .constructor then receiver else .null :
          Run (Charted H) Value).run m :=
  rfl

def construct (host : Host (Charted H)) (engine : Engine (Charted H)) (classId : ClassId)
    (decl : MethodDecl) (args : List Value) : Run (Charted H) Value :=
  constructBy host engine (fun _ object => callScript engine decl object args) classId args

theorem construct_run (host : Host (Charted H)) (engine : Engine (Charted H)) (classId : ClassId)
    (decl : MethodDecl) (args : List Value) (m : Machine (Charted H)) :
    (construct host engine classId decl args).run m =
      (match m.heap.class? classId with
      | none => return .null
      | some k => do
        let object ← newObject host engine classId k args
        let _ ← callScript engine decl object args
        return object : Run (Charted H) Value).run m :=
  rfl

def runModule (engine : Engine (Charted H)) (name : String) (body : List Stmt) :
    Run (Charted H) Unit := do
  let _ ← activate (.ofModule name) (execAll engine body)

/-! ### The interpreter with a chart -/

/-- A host beside the chart, whose functions the plain interpreter serves. -/
def host (h : Host H) : Host (Charted H) where
  callbacks := callbacks h.callbacks
  run f engine := lift (h.run f (h.engine engine.limit))

def perform (h : Host H) : Nat → Action → Run (Charted H) Value
  | 0, _ => throwThe Halt .exhausted
  | depth + 1, action =>
    let here : Engine (Charted H) := ⟨callbacks h.callbacks, depth, perform h depth⟩
    match action with
    | .send receiver signature args =>
      invokeBy (host h) here (fun decl => nested (callScript here decl receiver args))
        (fun id decl => nested (construct (host h) here id decl args)) receiver signature args
    | .load name => do
      loadBy here (runModule here name) name
      return .null

def engine (h : Host H) (depth : Nat) : Engine (Charted H) :=
  ⟨callbacks h.callbacks, depth, perform h depth⟩

theorem perform_send (h : Host H) (depth : Nat) (receiver : Value) (signature : String)
    (args : List Value) :
    perform h (depth + 1) (.send receiver signature args) =
      invokeBy (host h) (engine h depth)
        (fun decl => nested (callScript (engine h depth) decl receiver args))
        (fun id decl => nested (construct (host h) (engine h depth) id decl args))
        receiver signature args := rfl

def interpret (engine : Engine (Charted H)) (moduleName source : String) :
    Live (Charted H) (Except InterpretError Unit) :=
  engine.interpretBy (runModule engine moduleName) moduleName source

end Charted
end ScriptHost
