import ScriptHost.Boundary.Catalogue
import ScriptHost.Program.Client
/-! A program with any number of machines, one registration table, and values that the embedding
program holds, worked on step by step. -/

namespace ScriptHost

-- Powers are those of the core library, whatever else is in scope.
attribute [local instance (high)] instPowNat

/-- A depth of calls that no run of a program reaches. -/
def programDepth : Nat := 2 ^ (60 : Nat)

structure Program where
  heap : Heap
  registry : Registry
  machines : Table (Vm × VmRecord)
  /-- The values that the embedding program holds, by its names for them. -/
  values : Table Value
  files : Files
  kept : Option ForeignId

namespace Program

def start (files : Files) : Program := ⟨.empty, .empty, [], [], files, none⟩

/-- A machine made under a name, in place of the one that has it. -/
def addMachine (p : Program) (name : String) (modulesDir : Option String) : Program :=
  let (core, heap) := p.heap.addCore
  { p with heap, machines := p.machines.set name (.fresh core, .fresh modulesDir) }

/-- What a machine's work came to, with what it wrote. -/
structure Worked (α : Type) where
  result : Except String α
  log : List Chunk

/-- Work on one machine. A panic leaves everything as it was at that moment. -/
def work {α : Type} (p : Program) (name : String) (vm : Vm) (record : VmRecord)
    (act : Client α) : Worked α × Program :=
  let leave (m : Machine Surroundings) : Program :=
    { p with
      heap := m.heap
      machines := p.machines.set name (m.vm, m.host.record)
      kept := m.host.kept }
  match act ⟨p.heap, vm, ⟨p.registry, record, p.files, p.kept, []⟩⟩ with
  | .ok a m => (⟨.ok a, m.host.log.reverse⟩, leave m)
  | .error (.panic message) m => (⟨.error message, m.host.log.reverse⟩, leave m)
  | .error .exhausted m => (⟨.error "", m.host.log.reverse⟩, leave m)

/-- An entry registered, and the names of a machine with it. Without a free entry point nothing
changes. -/
def register (p : Program) (name : String) (e : Entry)
    (enter : HostFunction → VmRecord → VmRecord) : Except BoundaryFault Program :=
  (p.registry.register e).map fun (point, registry) =>
    { p with
      registry
      machines := p.machines.update name fun (vm, record) => (vm, enter (.entry point) record) }

def registerMethod (p : Program) (name member : String) (r : Routine) :
    Except BoundaryFault Program :=
  p.register name (.routine r) fun f record =>
    { record with methods := record.methods.set member f }

def registerClass (p : Program) (name className : String) (maker : Maker) :
    Except BoundaryFault Program :=
  p.register name (.maker maker) fun f record =>
    { record with classes := record.classes.set className ⟨some f, true, some maker.type⟩ }

/-- The routine that returns a number. -/
def numbered (i : Nat) : Routine :=
  .described [] (some (.number .i64)) (.constant (.number (Binary.ofInt i).toFloat))

/-- Methods `stem0()`, `stem1()`, … registered until one fails. -/
def registerMany (p : Program) (name stem : String) :
    List Nat → Option (Nat × BoundaryFault) × Program
  | [] => (none, p)
  | i :: rest =>
    match p.registerMethod name (stem ++ i.repr ++ "()") (numbered i) with
    | .ok p => p.registerMany name stem rest
    | .error f => (some (i, f), p)

/-! What is still in use. -/

/-- The values that a machine holds on to: its variables and its window. -/
def machineRoots (vm : Vm) : List Value := vm.modules.values.flatMap Table.values ++ vm.slots

/-- Every value that something outside the heap holds on to. -/
def roots (p : Program) : List Value :=
  p.machines.values.flatMap (fun (vm, _) => machineRoots vm) ++ p.values.values ++
    (p.kept.map .foreign).toList

/-- The number of a tracked payload. -/
def trackedId? : Payload → Option Nat
  | .tracked id => some id
  | _ => none

/-- The numbers of tracked payloads in ascending order. -/
def trackedIds (objects : List ForeignObject) : List Nat :=
  (objects.filterMap fun o => trackedId? o.payload).mergeSort

/-- The foreign objects that nothing holds on to any more. -/
def gone (p : Program) : List ForeignId := p.heap.gone p.roots

/-- The foreign objects whose payloads have been dropped, by the finalizers of their classes. -/
def finalized (p : Program) : List ForeignId := p.heap.finalized p.roots

/-- The numbers of the tracked payloads dropped so far. -/
def dropped (p : Program) : List Nat := trackedIds (p.finalized.filterMap p.heap.foreign?)

/-- A program whose machines and held values are gone. -/
def abandoned (p : Program) : Program := { p with machines := [], values := [], kept := none }

/-- The tracked payloads dropped once everything is gone. -/
def droppedAtEnd (p : Program) : List Nat := p.abandoned.dropped

/-- The text of the object that a routine kept. -/
def keptText (p : Program) : Option String :=
  match (p.kept.bind p.heap.foreign?).map ForeignObject.payload with
  | some (.string s) => some s
  | _ => none

end Program

/-! Steps. -/

/-- What is done with one machine. -/
inductive Errand where
  | setModulesDir (path : String)
  /-- From now on the writer of a channel fails. -/
  | breakWriter (channel : Channel)
  | register (member : String) (r : Routine)
  | registerMany (stem : String) (count : Nat)
  | registerClass (className : String) (maker : Maker)
  | interpret (source : String)
  | interpretBytes (bytes : List UInt8)
  | interpretFile (path : String)
  /-- A variable of the entry module held under a name. -/
  | lookup (variableName keep : String)
  | call (value signature : String) (params : List HostValue)

inductive Step where
  /-- A new machine; with `modules`, its imports come from the files. -/
  | machine (name : String) (modules : Bool)
  | on (name : String) (e : Errand)
  | dropMachine (name : String)
  | dropValue (value : String)
  | registered
  | kept
  | dropKept
  | dropped
  | unknown

inductive StepResult where
  | done
  | count (n : Nat)
  | flag (b : Bool)
  | returned (v : Option HostValue)
  | kept (text : Option String)
  | dropped (ids : List Nat)
  | fault (f : BoundaryFault)
  /-- The registration of so many methods failed at one of them. -/
  | failedAt (i : Nat) (f : BoundaryFault)
  | noMachine
  | noValue
  | panic (message : String)
  | none

structure StepReport where
  result : StepResult
  log : List Chunk

namespace Chunk

/-- Neighbouring pieces of one channel joined. -/
def join : List Chunk → List Chunk
  | [] => []
  | c :: rest =>
    match join rest with
    | d :: others => if c.channel = d.channel then ⟨c.channel, c.text ++ d.text⟩ :: others
      else c :: d :: others
    | [] => [c]

end Chunk

namespace Program

def quietly (result : StepResult) (p : Program) : StepReport × Program := (⟨result, []⟩, p)

/-- A result of a run as a result of a step. -/
def reported {α : Type} (result : α → StepResult) (w : Worked (Except BoundaryFault α)) :
    StepReport where
  result := match w.result with
    | .ok (.ok a) => result a
    | .ok (.error f) => .fault f
    | .error message => .panic message
  log := Chunk.join w.log

section

/-! What a step does, with the engine that its scripts run on. -/

variable (engine : Engine Surroundings)

/-- A script run on a machine. -/
def runSource (p : Program) (name : String) (vm : Vm) (record : VmRecord) (source : String) :
    StepReport × Program :=
  let (w, p) := p.work name vm record (Client.interpret engine source)
  (reported (fun _ => .done) w, p)

/-- A script run on a machine, if it could be read. -/
def runRead (p : Program) (name : String) (vm : Vm) (record : VmRecord) :
    Except FileFault String → StepReport × Program
  | .ok source => p.runSource engine name vm record source
  | .error f => quietly (.fault (.file f)) p

def setRecord (p : Program) (name : String) (f : VmRecord → VmRecord) : Program :=
  { p with machines := p.machines.update name fun (vm, record) => (vm, f record) }

/-- A registration as a step: on a fault nothing changes. -/
def registering (p : Program) : Except BoundaryFault Program → StepReport × Program
  | .ok q => quietly .done q
  | .error f => quietly (.fault f) p

/-- An errand on a machine that is there. -/
def runErrand (p : Program) (name : String) (vm : Vm) (record : VmRecord) :
    Errand → StepReport × Program
  | .setModulesDir path =>
    quietly .done (p.setRecord name fun r => { r with modulesDir := some path })
  | .breakWriter channel =>
    quietly .done (p.setRecord name fun r => { r with broken := channel :: r.broken })
  | .register member r => p.registering (p.registerMethod name member r)
  | .registerClass className maker => p.registering (p.registerClass name className maker)
  | .registerMany stem count =>
    match p.registerMany name stem (List.range count) with
    | (none, p) => quietly .done p
    | (some (i, f), p) => quietly (.failedAt i f) p
  | .interpret source => p.runSource engine name vm record source
  | .interpretBytes bytes =>
    p.runRead engine name vm record (Files.readText (fun _ => .ok bytes) "")
  | .interpretFile path => p.runRead engine name vm record (p.files.readText path)
  | .lookup variableName keep =>
    let (w, p) := p.work name vm record (Client.lookup variableName)
    match w.result with
    | .ok (some v) => quietly (.flag true) { p with values := p.values.set keep v }
    | _ => quietly (.flag false) p
  | .call value signature params =>
    match p.values.get? value with
    | none => quietly .noValue p
    | some v =>
      let (w, p) := p.work name vm record (Client.call engine v signature params)
      (reported .returned w, p)

def stepOn (p : Program) : Step → StepReport × Program
  | .machine name modules =>
    quietly .done (p.addMachine name (if modules then some "" else none))
  | .on name errand =>
    match p.machines.get? name with
    | some (vm, record) => p.runErrand engine name vm record errand
    | none => quietly .noMachine p
  | .dropMachine name =>
    quietly (.flag (p.machines.has name)) { p with machines := p.machines.erase name }
  | .dropValue value =>
    quietly (.flag (p.values.has value)) { p with values := p.values.erase value }
  | .registered => quietly (.count p.registry.registered) p
  | .kept => quietly (.kept p.keptText) p
  | .dropKept => quietly .done { p with kept := none }
  | .dropped => quietly (.dropped p.dropped) p
  | .unknown => quietly .none p

def stepsOn : Program → List Step → List StepReport × Program
  | p, [] => ([], p)
  | p, s :: rest =>
    let (r, p) := p.stepOn engine s
    let (rs, p) := stepsOn p rest
    (r :: rs, p)

end

def engine : Engine Surroundings := Surroundings.host.engine programDepth

def step (p : Program) (s : Step) : StepReport × Program := p.stepOn engine s

def steps (p : Program) (ss : List Step) : List StepReport × Program := p.stepsOn engine ss

end Program
end ScriptHost
