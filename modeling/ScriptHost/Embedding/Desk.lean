import ScriptHost.Embedding.Request
import ScriptHost.Machine.Invocation
/-! The desk: what an embedding program keeps beside its machine, and how it answers requests. A
host function is a list of requests too, so that the program can work from inside a call as it works
from outside. -/

namespace ScriptHost

-- Powers are those of the core library, whatever else is in scope.
attribute [local instance (high)] instPowNat

/-- What the embedding program is told, in order. -/
inductive Event where
  | write (text : String)
  | report (r : Report)
  | load (moduleName : String)
  | bindMethod (name : MemberName)
  | bindClass (moduleName className : String)
  /-- A host function starts, on a window of so many slots. -/
  | call (key : String) (slotCount : Nat)
  /-- The reply to one request of a host function. -/
  | reply (r : Reply)

structure Desk where
  handles : Table Value
  /-- The signatures prepared for calls. -/
  calls : Table String
  userData : Option UserData
  /-- The events so far, the latest first. -/
  events : List Event

namespace Desk

def empty : Desk := ⟨[], [], none, []⟩

def record (d : Desk) (e : Event) : Desk := { d with events := e :: d.events }

end Desk

/-- What a foreign method of the plan is. -/
inductive MethodPlan where
  | requests (rs : List Request)
  /-- An entry point of a registration table in which nothing is installed. -/
  | entry (index : Nat)

structure ClassPlan where
  /-- The requests of the allocator, if there is one. -/
  allocate : Option (List Request)
  finalize : Bool
  hostType : Option HostType

/-- The callbacks that an embedding program may leave out. -/
structure Hearing where
  writes : Bool
  reports : Bool
  bindsMethods : Bool
  bindsClasses : Bool
  loads : Bool

/-- What an embedding program offers to scripts. -/
structure Plan where
  modules : Table String
  methods : Table MethodPlan
  classes : Table ClassPlan
  hearing : Hearing

/-- How many entry points a registration table has. -/
def entryPoints : Nat := 128

namespace MethodPlan

/-- The host function that a method is bound to. -/
def function? (key : String) : MethodPlan → Option HostFunction
  | requests _ => some (.method key)
  | entry index => if index < entryPoints then some (.entry index) else none

def requests? : MethodPlan → Option (List Request)
  | requests rs => some rs
  | entry _ => none

end MethodPlan

namespace Plan

/-- The binding of a class by its name. -/
def binding (p : Plan) (className : String) : ForeignBinding :=
  match p.classes.get? className with
  | some c => ⟨c.allocate.map fun _ => .allocator className, c.finalize, c.hostType⟩
  | none => .none

def callbacks (p : Plan) : Callbacks Desk where
  write text := if p.hearing.writes then modify (·.record (.write text)) else return ()
  report r := if p.hearing.reports then modify (·.record (.report r)) else return ()
  bindMethod name := do
    if p.hearing.bindsMethods then
      modify (·.record (.bindMethod name))
      return (p.methods.get? name.canonical).bind (·.function? name.canonical)
    else return none
  bindClass moduleName className := do
    if p.hearing.bindsClasses then
      modify (·.record (.bindClass moduleName className))
      return .ok (p.binding className)
    else return .ok .none
  load name := do
    if p.hearing.loads then
      modify (·.record (.load name))
      return p.modules.get? name
    else return none

/-- The requests of a method, by its canonical signature. -/
def methodRequests (p : Plan) (key : String) : List Request :=
  ((p.methods.get? key).bind (·.requests?)).getD []

/-- The requests of the allocator of a class. -/
def allocatorRequests (p : Plan) (className : String) : List Request :=
  ((p.classes.get? className).bind (·.allocate)).getD []

end Plan

/-! Answering requests. -/

abbrev DeskRun := Live Desk

namespace Desk

def handle? (name : String) : DeskRun (Option Value) :=
  return (← get).host.handles.get? name

def onVm (f : Vm → Vm) : DeskRun Reply := do
  modify fun m => m.onVm f
  return .done

def onDesk (f : Desk → Desk) : DeskRun Unit :=
  modify fun m => { m with host := f m.host }

/-- What is to be seen in a slot. -/
def look (m : Machine Desk) (slot : Nat) : SlotView :=
  let object := (m.vm.slotForeign? slot).bind m.heap.foreign?
  let objectClass := (m.vm.slotForeign? slot).bind m.heap.foreignClass?
  { type := m.vm.slotType slot
    bool := m.vm.slotBool? slot
    number := m.vm.slotNumber? slot
    string := m.vm.slotString? slot
    payload := object.map (·.payload)
    className := objectClass.map (·.name)
    isTyped := objectClass.map (·.binding.hostType.isSome) }

/-- The data of the program after one more count. -/
def counted : Option UserData → Option UserData
  | some (.count n) => some (.count ((n + 1) % 2 ^ (32 : Nat)))
  | other => other

/-- A reply to the outcome of a script. -/
def outcome (onOk : DeskRun Reply) : Except InterpretError Unit → DeskRun Reply
  | .ok () => onOk
  | .error e => return .interpretError e

def serve (engine : Engine Desk) : Request → DeskRun Reply
  | .interpret moduleName source => do
    outcome (return .done) (← engine.interpret moduleName source)
  | .slotCount => return .count (← get).vm.slotCount
  | .ensureSlots count => onVm (·.ensureSlots count)
  | .slotType slot => return .slotType ((← get).vm.slotType slot)
  | .showSlots => do
    let m ← get
    return .slots (m.vm.slots.map m.heap.view)
  | .look slot => return .slot (look (← get) slot)
  | .setNull slot => onVm (·.setSlot slot .null)
  | .setBool slot b => onVm (·.setSlot slot (.bool b))
  | .setNumber slot x => onVm (·.setSlot slot (.number x))
  | .setString slot s => onVm (·.setSlot slot (.string s))
  | .newForeign slot classSlot payload => do
    match (← get).newForeign? slot classSlot (.u64 (payload.getD 0)) with
    | some (_, m) =>
      set m
      return .flag true
    | none => return .flag false
  | .takeHandle slot handle => do
    let m ← get
    match m.vm.slot? slot with
    | some v =>
      onDesk fun d => { d with handles := d.handles.set handle v }
      return .handle (m.heap.view v)
    | none => return .none
  | .putHandle slot handle => do
    match ← handle? handle with
    | some v => onVm (·.setSlot slot v)
    | none => return .none
  | .showHandle handle => do
    let heap := (← get).heap
    match ← handle? handle with
    | some v => return .handleInfo (heap.view v) (heap.display v) v.isTrue
    | none => return .none
  | .compare a b => do
    match ← handle? a, ← handle? b with
    | some v, some w => return .flag (v.same w)
    | _, _ => return .none
  | .readField handle name => do
    let heap := (← get).heap
    match ← handle? handle with
    | some (.object id) => return .field (heap.view (heap.field id name))
    | _ => return .none
  | .writeField handle name value => do
    match ← handle? handle, ← handle? value with
    | some (.object id), some v =>
      modify fun m => m.mapHeap (·.setField id name v)
      return .done
    | _, _ => return .none
  | .findMethod handle signature => do
    let heap := (← get).heap
    match ← handle? handle with
    | some (.classObject id) =>
      match heap.class? id with
      | some c =>
        return .methods ((c.methods.get? signature).map (·.view))
          ((c.statics.get? signature).map (·.view))
      | none => return .none
    | _ => return .none
  | .readVariable moduleName name slot => do
    match (← get).vm.readVariable? moduleName name slot with
    | some vm =>
      modify fun m => { m with vm }
      return .flag true
    | none => return .flag false
  | .prepareCall signature handle => do
    onDesk fun d => { d with calls := d.calls.set handle signature }
    return .prepared signature (signatureArity signature)
  | .call handle => do
    match (← get).host.calls.get? handle with
    | some signature =>
      let result ← engine.call signature
      let m ← get
      outcome (return .called (m.heap.view (m.vm.slots.headD .null))) result
    | none => return .none
  | .abort message => onVm fun vm => { vm with abort := some message }
  | .setUserData data => do
    onDesk fun d => { d with userData := some data }
    return .done
  | .userData => return .userData (← get).host.userData
  | .countUserData => do
    onDesk fun d => { d with userData := counted d.userData }
    match (← get).host.userData with
    | some (.count n) => return .count n
    | _ => return .none
  | .decode slot kind => do
    match (← get).decode slot kind with
    | .ok value => return .decoded value
    | .error f => return .boundaryFault f
  | .decodeArguments params => do
    match (← get).decodeArguments params with
    | .ok values => return .arguments values
    | .error f => return .boundaryFault f
  | .encode slot value => do
    match (← get).encode slot value with
    | .ok m =>
      set m
      return .done
    | .error f => return .boundaryFault f
  | .recode slot kind => do
    let m ← get
    match (m.decode slot kind).bind (m.encode slot) with
    | .ok m =>
      set m
      return .done
    | .error f => return .boundaryFault f
  | .dispatch params returns body => do
    match ← modifyGet ((Routine.described params returns body).dispatch fun _ d => d).run with
    | .ok () => return .done
    | .error f => return .boundaryFault f
  | .unknown => return .none

/-- The requests of a host function, each reply recorded. -/
def serveAll (engine : Engine Desk) : List Request → DeskRun Unit
  | [] => return ()
  | r :: rest => do
    let reply ← serve engine r
    onDesk (·.record (.reply reply))
    serveAll engine rest

end Desk

/-- A host function that is a list of requests, known to the program by a name. -/
def Desk.serveCall (engine : Engine Desk) (name : String) (requests : List Request) :
    DeskRun Unit := do
  let count := (← get).vm.slotCount
  onDesk (·.record (.call name count))
  serveAll engine requests

/-- A host whose functions are lists of requests. -/
def Plan.host (p : Plan) : Host Desk where
  callbacks := p.callbacks
  run f engine :=
    match f with
    | .method key => Desk.serveCall engine key (p.methodRequests key)
    | .allocator className => Desk.serveCall engine className (p.allocatorRequests className)
    | .entry index =>
      modify fun m => m.onVm fun vm =>
        { vm with abort := some ("function " ++ index.repr ++ " not registered") }

end ScriptHost
