import ScriptHost.Machine.Execution
import ScriptHost.Machine.Primitive
import ScriptHost.Machine.Window
import ScriptHost.Source.Tree.Statements
/-! Messages and modules: how a method is found and run, how an object is made, how a host function
gets its window, and how a module comes to be. `perform` ties the parts together; it works to a
depth that no run meets. -/

namespace ScriptHost

variable {H α : Type}

/-! Finding a method. -/

/-- The method that a signature means for a receiver: one of the class itself if the receiver is a
class, else one of its class. -/
def Machine.method? (m : Machine H) (receiver : Value) (signature : String) : Option Method :=
  match receiver with
  | .classObject id => (m.heap.class? id).bind (·.statics.get? signature)
  | v => (m.heap.class? (m.classOf v)).bind (·.methods.get? signature)

/-- What every value answers to when its class does not. -/
def answerAnyway (m : Machine H) (receiver : Value) (signature : String) (args : List Value) :
    Except RuntimeFault Value :=
  match signature, args with
  | "==(_)", [other] => .ok (.bool (receiver.same other))
  | "!=(_)", [other] => .ok (.bool (!receiver.same other))
  | "!", [] => .ok (.bool (!receiver.isTrue))
  | "toString", [] => .ok (.string (m.heap.describe receiver))
  | "type", [] => .ok (.classObject (m.classOf receiver))
  | _, _ =>
    let className := m.heap.className (m.classOf receiver)
    match receiver, signature, args with
    | .classObject _, "name", [] => .ok (.string (m.heap.describe receiver))
    | .classObject _, _, _ => .error (.missingStatic className signature)
    | _, _, _ => .error (.missingMethod className signature)

/-! Running a method. -/

/-- How many methods and constructors of scripts may run inside each other. -/
def depthLimit : Nat := 128

/-- The end of everything when a method ends and none is counted. -/
def Halt.miscount : Halt := .panic "attempt to subtract with overflow"

/-- One method less is counted. None is left if a host function has run a script inside of the
method: every script starts the count anew. -/
def countOff : Live H Unit := do
  if (← get).vm.depth = 0 then throw .miscount
  else modify fun m => m.onVm fun vm => { vm with depth := vm.depth - 1 }

/-- The run of a method or constructor, which counts while it lasts. -/
def nested (act : Run H α) : Run H α :=
  ExceptT.mk do
    if depthLimit ≤ (← get).vm.depth then return .error ⟨.tooDeep, []⟩
    else
      modify fun m => m.onVm fun vm => { vm with depth := vm.depth + 1 }
      let result ← act.run
      countOff
      return result

/-- The parameters of a method with their arguments; of two with one name the later counts. -/
def parameters (names : List String) (args : List Value) : Bindings :=
  (names.zip args).foldl (fun scope (name, v) => Table.set scope name v) []

/-- The body of a method run on a receiver. Its value is what it returns, else null. -/
def callScript (engine : Engine H) (decl : MethodDecl) (receiver : Value) (args : List Value) :
    Run H Value := do
  let m ← get
  let classId := m.classOf receiver
  let moduleName := ((m.heap.class? classId).map (·.moduleName)).getD ""
  modify fun m => m.onVm (·.openModule moduleName)
  let frame : Frame :=
    { moduleName, this := some receiver, scopes := [parameters decl.params args],
      line := decl.span.line, function := m.heap.className classId ++ "." ++ decl.signature }
  match ← Script.activate frame (execAll engine (decl.body.getD [])) with
  | .returned v => return v
  | _ => return if decl.kind = .constructor then receiver else .null

/-- A host function run on a window of its own, with the receiver in slot 0 and the arguments after
it. Its value is what it leaves in slot 0; a request to stop becomes a fault. -/
def callForeign (host : Host H) (engine : Engine H) (f : HostFunction) (receiver : Value)
    (args : List Value) : Run H Value :=
  ExceptT.mk do
    let outer := (← get).vm
    modify fun m => m.onVm fun vm =>
      { vm with slots := receiver :: args, returnWritten := false, abort := none }
    host.run f engine
    let inner := (← get).vm
    modify fun m => m.onVm fun vm =>
      { vm with
        slots := outer.slots, returnWritten := outer.returnWritten, abort := outer.abort }
    return match inner.abort with
      | some message => .error ⟨.aborted message, []⟩
      | none => .ok (if inner.returnWritten then inner.slots.headD .null else .null)

/-- The object that a constructor works on: a new instance, or what the allocator makes. -/
def newObject (host : Host H) (engine : Engine H) (classId : ClassId) (c : ClassObject)
    (args : List Value) : Run H Value := do
  if c.isForeign then
    match c.binding.allocate with
    | none => fault (.noAllocator c.name)
    | some f =>
      match ← callForeign host engine f (.classObject classId) args with
      | .foreign id => return .foreign id
      | _ => fault (.nothingAllocated c.name)
  else
    let id ← modifyGet (·.onHeap (·.addInstance classId))
    return .object id

def construct (host : Host H) (engine : Engine H) (classId : ClassId) (decl : MethodDecl)
    (args : List Value) : Run H Value := do
  match (← get).heap.class? classId with
  | none => return .null
  | some c =>
    let object ← newObject host engine classId c args
    let _ ← callScript engine decl object args
    return object

/-- A message sent: the method is found and run. -/
def invoke (host : Host H) (engine : Engine H) (receiver : Value) (signature : String)
    (args : List Value) : Run H Value := do
  let m ← get
  match m.method? receiver signature with
  | none => Primitive.answer (answerAnyway m receiver signature args)
  | some (.primitive p) => p.apply engine receiver args
  | some (.foreign f) => callForeign host engine f receiver args
  | some (.script decl) => nested (callScript engine decl receiver args)
  | some (.constructor decl) =>
    match receiver with
    | .classObject id => nested (construct host engine id decl args)
    | _ => fault .constructorOnObject

/-! Modules. -/

/-- The statements of a module run at its top. -/
def runModule (engine : Engine H) (name : String) (body : List Stmt) : Run H Unit := do
  let _ ← Script.activate (.ofModule name) (execAll engine body)

/-- A module found, compiled and run. -/
def loadModule (engine : Engine H) (name : String) : Run H Unit := do
  match ← modifyGet (·.onHost (engine.callbacks.load name)) with
  | none => fault (.moduleNotLoaded name)
  | some source =>
    match parseModule source with
    | .error errors =>
      engine.reportAll (errors.map (·.report name))
      fault (.moduleNotCompiled name)
    | .ok body =>
      modify fun m => m.onVm (·.openModule name)
      runModule engine name body

/-! The interpreter. -/

def Action.run (host : Host H) (engine : Engine H) : Action → Run H Value
  | .send receiver signature args => invoke host engine receiver signature args
  | .load name => do
    loadModule engine name
    return .null

/-- Actions that contain others at most so deep. -/
def Host.perform (host : Host H) : Nat → Action → Run H Value
  | 0, _ => throwThe Halt .exhausted
  | depth + 1, action => action.run host ⟨host.callbacks, depth, host.perform depth⟩

/-- The engine that works to a depth. -/
def Host.engine (host : Host H) (depth : Nat) : Engine H :=
  ⟨host.callbacks, depth, host.perform depth⟩

/-! What the host asks of a machine. -/

/-- A method prepared for calls: its signature, and the number of arguments that it asks for. -/
structure CallHandle where
  signature : String
  arity : Nat
deriving Repr, DecidableEq

def CallHandle.ofSignature (signature : String) : CallHandle :=
  ⟨signature, signatureArity signature⟩

namespace Engine

/-- A script compiled and run in a module; all errors are reported. -/
def interpret (engine : Engine H) (moduleName source : String) :
    Live H (Except InterpretError Unit) := do
  match parseModule source with
  | .error errors =>
    engine.reportAll (errors.map (·.report moduleName))
    return .error (.compile errors)
  | .ok body =>
    modify fun m => m.onVm fun vm => { vm.openModule moduleName with depth := 0 }
    match ← (runModule engine moduleName body).run with
    | .ok () => return .ok ()
    | .error e =>
      engine.reportAll e.reports
      return .error (.runtime e)

/-- A prepared method called with the receiver in slot 0 and the arguments after it; the value goes
to slot 0, and errors are reported. -/
def callWith (engine : Engine H) (handle : CallHandle) : Live H (Except InterpretError Unit) := do
  let result ← ExceptT.run do
    match (← get).vm.slots with
    | receiver :: rest =>
      if handle.arity ≤ rest.length then
        engine.send receiver handle.signature (rest.take handle.arity)
      else fault (.tooFewSlots handle.signature (handle.arity + 1))
    | [] => fault (.tooFewSlots handle.signature (handle.arity + 1))
  match result with
  | .ok v =>
    modify fun m => m.onVm (·.setSlot 0 v)
    return .ok ()
  | .error e =>
    engine.reportAll e.reports
    return .error (.runtime e)

/-- A method prepared and called. -/
def call (engine : Engine H) (signature : String) : Live H (Except InterpretError Unit) :=
  engine.callWith (.ofSignature signature)

end Engine
end ScriptHost
