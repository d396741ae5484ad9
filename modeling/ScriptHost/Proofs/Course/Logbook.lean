import ScriptHost.Proofs.Course.Rules
import ScriptHost.Proofs.Depth.Requests
import ScriptHost.Proofs.Simulation.Invocation

/-! An interpreter that keeps a logbook. Beside the desk of a program it has a record of the bodies
that run inside each other, of the modules that the host is asked for, and of those whose statements
are started. The record is written where a body starts and ends and where a module is asked for, and
nothing reads it. A body that a fault ends stays in the record, so that after a failed run it tells
what was running when the fault was raised. -/

namespace ScriptHost

variable {H α : Type}

structure Logbook where
  /-- The bodies that run, the innermost first. -/
  active : List Activation
  /-- The modules that the host was asked for, and whether they were registered already; the latest
  first. -/
  asked : List (String × Bool)
  /-- The modules that were loaded and whose statements were started, the latest first. -/
  begun : List String

namespace Logbook

def blank : Logbook := ⟨[], [], []⟩

def enter (body : Activation) (b : Logbook) : Logbook := { b with active := body :: b.active }

def leave (b : Logbook) : Logbook := { b with active := b.active.tail }

def ask (name : String) (known : Bool) (b : Logbook) : Logbook :=
  { b with asked := (name, known) :: b.asked }

def begin (name : String) (b : Logbook) : Logbook := { b with begun := name :: b.begun }

def withActive (active : List Activation) (b : Logbook) : Logbook := { b with active }

end Logbook

/-- The statements of a module, as a trace names them. -/
def Activation.ofModule (name : String) : Activation := ⟨name, "(script)"⟩

/-- The body of a method or constructor of a class. -/
def Machine.bodyOf (m : Machine H) (classId : ClassId) (decl : MethodDecl) : Activation :=
  ⟨((m.heap.class? classId).map (·.moduleName)).getD "",
    m.heap.className classId ++ "." ++ decl.signature⟩

/-! ### Parts of the interpreter, where bodies run in a way of their own -/

def constructBy (host : Host H) (engine : Engine H) (body : ClassObject → Value → Run H Value)
    (classId : ClassId) (args : List Value) : Run H Value := do
  match (← get).heap.class? classId with
  | none => return .null
  | some c =>
    let object ← newObject host engine classId c args
    let _ ← body c object
    return object

def loadBy (engine : Engine H) (run : List Stmt → Run H Unit) (name : String) : Run H Unit := do
  match ← modifyGet (·.onHost (engine.callbacks.load name)) with
  | none => fault (.moduleNotLoaded name)
  | some source =>
    match parseModule source with
    | .error errors =>
      engine.reportAll (errors.map (·.report name))
      fault (.moduleNotCompiled name)
    | .ok body =>
      modify fun m => m.onVm (·.openModule name)
      run body

theorem loadBy_run (engine : Engine H) (run : List Stmt → Run H Unit) (name : String)
    (m : Machine H) :
    (loadBy engine run name).run m =
      (match (m.onHost (engine.callbacks.load name)).1 with
      | none => fault (.moduleNotLoaded name)
      | some source =>
        match parseModule source with
        | .error errors => do
          engine.reportAll (errors.map (·.report name))
          fault (.moduleNotCompiled name)
        | .ok body => do
          modify fun m => m.onVm (·.openModule name)
          run body : Run H Unit).run (m.onHost (engine.callbacks.load name)).2 := rfl

theorem load_by (engine : Engine H) (name : String) :
    loadModule engine name = loadBy engine (runModule engine name) name := rfl

def Engine.interpretBy (engine : Engine H) (run : List Stmt → Run H Unit)
    (moduleName source : String) : Live H (Except InterpretError Unit) := do
  match parseModule source with
  | .error errors =>
    engine.reportAll (errors.map (·.report moduleName))
    return .error (.compile errors)
  | .ok body =>
    modify fun m => m.onVm fun vm => { vm.openModule moduleName with depth := 0 }
    match ← (run body).run with
    | .ok () => return .ok ()
    | .error e =>
      engine.reportAll e.reports
      return .error (.runtime e)

theorem Engine.interpret_by (engine : Engine H) (moduleName source : String) :
    engine.interpret moduleName source =
      engine.interpretBy (runModule engine moduleName) moduleName source := rfl

/-- A script that ended with a fault ran to the fault, which was then reported. -/
theorem Engine.interpretBy_failed {engine : Engine H} {run : List Stmt → Run H Unit}
    {moduleName source : String} {m m' : Machine H} {e : RuntimeError}
    (failed : engine.interpretBy run moduleName source m = .ok (.error (.runtime e)) m') :
    ∃ body n, parseModule source = .ok body ∧
      (run body).run (m.onVm fun vm => { vm.openModule moduleName with depth := 0 }) =
        .ok (.error e) n ∧
      m' = engine.reported n e.reports := by
  unfold interpretBy at failed
  cases parsed : parseModule source with
  | error errors =>
    rw [parsed] at failed
    dsimp only at failed
    rw [reporting_run] at failed
    cases failed
  | ok body =>
    rw [parsed] at failed
    obtain ⟨result, n, ran, reported⟩ := Live.bind_inv (x := (run body).run) failed
    cases result with
    | ok _ => cases reported
    | error e' =>
      dsimp only at reported
      rw [reporting_run] at reported
      cases reported
      exact ⟨body, n, rfl, ran, rfl⟩

/-! ### The desk beside its logbook -/

structure Logged where
  desk : Desk
  book : Logbook

namespace Logged

/-- A machine without its logbook. -/
def plain (m : Machine Logged) : Machine Desk := ⟨m.heap, m.vm, m.host.desk⟩

/-- A machine with a logbook. -/
def beside (m : Machine Desk) (book : Logbook) : Machine Logged := ⟨m.heap, m.vm, ⟨m.host, book⟩⟩

/-- What is done without a look at the logbook. -/
def lift (act : DeskRun α) : Live Logged α := fun m =>
  match act (plain m) with
  | .ok a n => .ok a (beside n m.host.book)
  | .error h n => .error h (beside n m.host.book)

def callback (act : StateM Desk α) : StateM Logged α := fun l =>
  ((act.run l.desk).1, ⟨(act.run l.desk).2, l.book⟩)

def callbacks (c : Callbacks Desk) : Callbacks Logged where
  write text := callback (c.write text)
  report r := callback (c.report r)
  bindMethod name := callback (c.bindMethod name)
  bindClass moduleName className := callback (c.bindClass moduleName className)
  load name := callback (c.load name)

def noted (change : Logbook → Logbook) (m : Machine Logged) : Machine Logged :=
  { m with host := { m.host with book := change m.host.book } }

def note (change : Logbook → Logbook) : Live Logged Unit := modify (noted change)

/-- A body, which is in the logbook while it runs. -/
def within (body : Activation) (act : Run Logged α) : Run Logged α := do
  note (.enter body)
  let a ← act
  note .leave
  return a

/-- Work that the host asks for, with the bodies that it runs counted on their own. -/
def apart (act : Live Logged α) : Live Logged α := do
  let outer := (← get).host.book.active
  note (.withActive [])
  let a ← act
  note (.withActive outer)
  return a

/-! ### The interpreter with a logbook -/

/-- A method of the class of its receiver. -/
def method (engine : Engine Logged) (decl : MethodDecl) (receiver : Value) (args : List Value) :
    Run Logged Value := do
  let m ← get
  within (m.bodyOf (m.classOf receiver) decl) (callScript engine decl receiver args)

theorem method_run (engine : Engine Logged) (decl : MethodDecl) (receiver : Value)
    (args : List Value) (m : Machine Logged) :
    (method engine decl receiver args).run m =
      (within (m.bodyOf (m.classOf receiver) decl) (callScript engine decl receiver args)).run m :=
  rfl

/-- A constructor of the class that is asked for an object. What a foreign class has its objects
made by may hand over an object of another class, and the constructor is taken for one of that. -/
def making (host : Host Logged) (engine : Engine Logged) (classId : ClassId) (decl : MethodDecl)
    (args : List Value) : Run Logged Value :=
  constructBy host engine (fun c object => do
    let m ← get
    within (m.bodyOf (if c.isForeign then m.classOf object else classId) decl)
      (callScript engine decl object args)) classId args

theorem making_run (host : Host Logged) (engine : Engine Logged) (classId : ClassId)
    (decl : MethodDecl) (args : List Value) (m : Machine Logged) :
    (making host engine classId decl args).run m =
      (match m.heap.class? classId with
      | none => return .null
      | some k => do
        let object ← newObject host engine classId k args
        let m ← get
        let _ ← within (m.bodyOf (if k.isForeign then m.classOf object else classId) decl)
          (callScript engine decl object args)
        return object : Run Logged Value).run m :=
  rfl

/-- The statements of a module that was loaded. -/
def starting (engine : Engine Logged) (name : String) (body : List Stmt) : Run Logged Unit := do
  note (.begin name)
  within (.ofModule name) (runModule engine name body)

theorem starting_run (engine : Engine Logged) (name : String) (body : List Stmt)
    (m : Machine Logged) :
    (starting engine name body).run m =
      (within (.ofModule name) (runModule engine name body)).run (noted (.begin name) m) := rfl

def loading (engine : Engine Logged) (name : String) : Run Logged Unit := do
  let known := (← get).vm.hasModule name
  note (.ask name known)
  loadBy engine (starting engine name) name

theorem loading_run (engine : Engine Logged) (name : String) (m : Machine Logged) :
    (loading engine name).run m =
      (loadBy engine (starting engine name) name).run
        (noted (.ask name (m.vm.hasModule name)) m) := rfl

def interpret (engine : Engine Logged) (moduleName source : String) :
    Live Logged (Except InterpretError Unit) :=
  engine.interpretBy (fun body => within (.ofModule moduleName) (runModule engine moduleName body))
    moduleName source

/-- A request answered. What runs no script needs no interpreter. -/
def serve (c : Conduct) (engine : Engine Logged) : Request → Live Logged Reply
  | .interpret moduleName source => do
    let result ← apart (interpret engine moduleName source)
    lift (Desk.outcome (return .done) result)
  | .call handle => do
    match (← get).host.desk.calls.get? handle with
    | some signature =>
      let result ← apart (engine.call signature)
      lift do
        let m ← get
        Desk.outcome (return .called (m.heap.view (m.vm.slots.headD .null))) result
    | none => return .none
  | r => lift (Desk.serve (c.host.engine 0) r)

theorem serve_call (c : Conduct) (engine : Engine Logged) (handle : String) (m : Machine Logged) :
    serve c engine (.call handle) m =
      (match m.host.desk.calls.get? handle with
      | some signature => do
        let result ← apart (engine.call signature)
        lift do
          let m ← get
          Desk.outcome (return .called (m.heap.view (m.vm.slots.headD .null))) result
      | none => return .none : Live Logged Reply) m :=
  rfl

/-- A dialogue held with whoever answers its requests. -/
def hold (answer : Request → Live Logged Reply) : Dialogue → Live Logged Unit
  | .done => return ()
  | .ask r next => do
    let reply ← answer r
    hold answer (next reply)
  | .note change next => do
    lift (Desk.onDesk change)
    hold answer (next (← get).host.desk)

/-- A program's host, with a logbook. -/
def host (c : Conduct) : Host Logged where
  callbacks := callbacks c.callbacks
  run f engine := hold (serve c engine) (c.dialogue f)

def perform (c : Conduct) : Nat → Action → Run Logged Value
  | 0, _ => throwThe Halt .exhausted
  | depth + 1, action =>
    let here : Engine Logged := ⟨callbacks c.callbacks, depth, perform c depth⟩
    match action with
    | .send receiver signature args =>
      invokeBy (host c) here (fun decl => nested (method here decl receiver args))
        (fun id decl => nested (making (host c) here id decl args)) receiver signature args
    | .load name => do
      loading here name
      return .null

def engine (c : Conduct) (depth : Nat) : Engine Logged :=
  ⟨callbacks c.callbacks, depth, perform c depth⟩

theorem perform_send (c : Conduct) (depth : Nat) (receiver : Value) (signature : String)
    (args : List Value) :
    perform c (depth + 1) (.send receiver signature args) =
      invokeBy (host c) (engine c depth)
        (fun decl => nested (method (engine c depth) decl receiver args))
        (fun id decl => nested (making (host c) (engine c depth) id decl args))
        receiver signature args := rfl

end Logged
end ScriptHost
