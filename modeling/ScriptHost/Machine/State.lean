import ScriptHost.Machine.Fault
import ScriptHost.Machine.Heap
/-! The state of a machine while a script runs, and the shape of what runs on it. A fault is a value
that every activation on its way can act on; a halt stops everything where it is. -/

namespace ScriptHost

/-- What belongs to one virtual machine. Its objects are in the heap, which machines share. -/
structure Vm where
  /-- Where its own core classes start in the heap. -/
  core : ClassId
  /-- The variables of each module, by the name of the module. -/
  modules : Table Bindings
  /-- The window through which host functions see values. -/
  slots : List Value
  /-- Whether slot 0 was written since the running host function started. -/
  returnWritten : Bool
  /-- Why the running host function wants the script to stop. -/
  abort : Option String
  /-- The methods and constructors of scripts that are running. -/
  depth : Nat

namespace Vm

/-- A machine whose core classes start at `core`. -/
def fresh (core : ClassId) : Vm := ⟨core, [], [], false, none, 0⟩

def coreClass (vm : Vm) : CoreClass → ClassId
  | .bool => vm.core
  | .null => vm.core + 1
  | .num => vm.core + 2
  | .string => vm.core + 3
  | .list => vm.core + 4
  | .system => vm.core + 5

def hasModule (vm : Vm) (name : String) : Bool := vm.modules.has name

/-- The variable of a module. -/
def binding? (vm : Vm) (moduleName name : String) : Option Value :=
  (vm.modules.get? moduleName).bind (·.get? name)

/-- A variable of a module set, whether or not it was there. -/
def define (vm : Vm) (moduleName name : String) (v : Value) : Vm :=
  { vm with modules := vm.modules.update moduleName (·.set name v) }

/-- What a new module holds: the core classes, under their names. -/
def coreBindings (vm : Vm) : Bindings :=
  CoreClass.all.map fun c => (c.name, .classObject (vm.coreClass c))

/-- A module made, unless it is there. -/
def openModule (vm : Vm) (name : String) : Vm :=
  if vm.hasModule name then vm else { vm with modules := vm.modules.set name vm.coreBindings }

/-- The class that a value's methods are looked up in. A class is its own class. -/
def classOf (vm : Vm) (heap : Heap) : Value → ClassId
  | .null => vm.coreClass .null
  | .bool _ => vm.coreClass .bool
  | .number _ => vm.coreClass .num
  | .string _ => vm.coreClass .string
  | .list _ => vm.coreClass .list
  | .classObject id => id
  | .object id => ((heap.instance? id).map (·.classId)).getD 0
  | .foreign id => ((heap.foreign? id).map (·.classId)).getD 0

end Vm

/-- One activation: a module's statements or a method's body. -/
structure Frame where
  moduleName : String
  /-- The object that a method was called on; none at the top of a module. -/
  this : Option Value
  /-- The scopes inside the module, the innermost first. -/
  scopes : List Bindings
  /-- The line of the statement that runs. -/
  line : Nat
  function : String

namespace Frame

/-- The activation of a module's statements. -/
def ofModule (name : String) : Frame := ⟨name, none, [], 0, "(script)"⟩

/-- What a trace says about an activation. -/
def entry (f : Frame) : TraceEntry := ⟨f.moduleName, f.line, f.function⟩

/-- The local variable that a name means, from the innermost scope outward. -/
def local? (f : Frame) (name : String) : Option Value := f.scopes.findSome? (·.get? name)

/-- The innermost scope that has a name, assigned to. -/
def assignLocal? (name : String) (v : Value) : List Bindings → Option (List Bindings)
  | [] => none
  | scope :: outer =>
    if scope.has name then some (scope.set name v :: outer)
    else (assignLocal? name v outer).map (scope :: ·)

end Frame

/-- A virtual machine with the heap and with what the host keeps for its callbacks. -/
structure Machine (H : Type) where
  heap : Heap
  vm : Vm
  host : H

/-- Why everything stopped without a result. -/
inductive Halt where
  /-- The host gave up with a message. -/
  | panic (message : String)
  /-- The bound on the work was met. -/
  | exhausted
deriving Repr, DecidableEq

/-- What the host sees of a run: it ends, or everything halts. -/
abbrev Live (H : Type) := EStateM Halt (Machine H)

/-- A run of a script, which may end with a fault. -/
abbrev Run (H : Type) := ExceptT RuntimeError (Live H)

/-- A run inside one activation. -/
abbrev Script (H : Type) := ExceptT RuntimeError (StateT Frame (Live H))

variable {H α : Type}

namespace Machine

def onVm (f : Vm → Vm) (m : Machine H) : Machine H := { m with vm := f m.vm }

def mapHeap (f : Heap → Heap) (m : Machine H) : Machine H := { m with heap := f m.heap }

/-- A change of the heap that yields something, such as the place of a new object. -/
def onHeap (f : Heap → α × Heap) (m : Machine H) : α × Machine H :=
  let (a, heap) := f m.heap
  (a, { m with heap })

/-- A callback of the host, which sees its own state alone. -/
def onHost (act : StateM H α) (m : Machine H) : α × Machine H :=
  let (a, host) := act.run m.host
  (a, { m with host })

def classOf (m : Machine H) (v : Value) : ClassId := m.vm.classOf m.heap v

end Machine

/-- Stop with a fault that has passed through no activation yet. -/
abbrev fault {m : Type → Type} [MonadExceptOf RuntimeError m] (f : RuntimeFault) : m α :=
  throwThe RuntimeError ⟨f, []⟩

namespace Script

/-- A run inside an activation that does not touch it. -/
def ofRun (act : Run H α) : Script H α :=
  ExceptT.mk fun frame => do
    let result ← act.run
    return (result, frame)

/-- A part of an activation with a scope of its own, which ends with it even on a fault. -/
def inScope (scope : Bindings) (act : Script H α) : Script H α :=
  ExceptT.mk fun frame => do
    let (result, inner) ← act.run.run { frame with scopes := scope :: frame.scopes }
    return (result, { inner with scopes := inner.scopes.tail })

/-- A whole activation. A fault takes note of it on its way out. -/
def activate (frame : Frame) (act : Script H α) : Run H α :=
  ExceptT.mk do
    let (result, last) ← act.run.run frame
    return match result with
      | .ok a => .ok a
      | .error e => .error (e.leave last.entry)

/-- The value that a name means: of a local variable, else of one of the module. -/
def lookup (name : String) : Script H Value := do
  let f ← getThe Frame
  let m ← getThe (Machine H)
  match f.local? name with
  | some v => return v
  | none =>
    match m.vm.binding? f.moduleName name with
    | some v => return v
    | none => fault (.undefinedVariable name)

/-- The variable that a name means, assigned to. -/
def assign (name : String) (v : Value) : Script H Unit := do
  let f ← getThe Frame
  let m ← getThe (Machine H)
  match Frame.assignLocal? name v f.scopes with
  | some scopes => modifyThe Frame fun f => { f with scopes }
  | none =>
    if (m.vm.binding? f.moduleName name).isSome then
      modifyThe (Machine H) (·.onVm (·.define f.moduleName name v))
    else fault (.undefinedVariable name)

/-- A variable made in the innermost scope, or in the module at its top. -/
def declare (name : String) (v : Value) : Script H Unit := do
  let f ← getThe Frame
  match f.scopes with
  | [] => modifyThe (Machine H) (·.onVm (·.define f.moduleName name v))
  | scope :: outer => modifyThe Frame fun f => { f with scopes := scope.set name v :: outer }

end Script
end ScriptHost
