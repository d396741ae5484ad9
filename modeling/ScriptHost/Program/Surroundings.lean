import ScriptHost.Machine.Invocation
import ScriptHost.Program.FileTree
import ScriptHost.Program.Registry
/-! What surrounds a machine in a program: the names registered for it, the table that all machines
share, the files that imports come from, and what was written. Foreign members are bound in the
entry module alone. -/

namespace ScriptHost

/-- Where text goes. -/
inductive Channel where
  | out | err
deriving Repr, DecidableEq

/-- A piece of text written. -/
structure Chunk where
  channel : Channel
  text : String
deriving Repr, DecidableEq

/-- What a program knows about one machine. -/
structure VmRecord where
  /-- Registered methods by canonical signature. -/
  methods : Table HostFunction
  /-- Registered classes by name. -/
  classes : Table ForeignBinding
  /-- Where imports are looked for. -/
  modulesDir : Option String
  /-- The fault that made the running script stop. -/
  pending : Option BoundaryFault
  /-- The channels whose writer fails. -/
  broken : List Channel

namespace VmRecord

def fresh (modulesDir : Option String) : VmRecord := ⟨[], [], modulesDir, none, []⟩

end VmRecord

/-- What the callbacks of a machine work on. -/
structure Surroundings where
  registry : Registry
  record : VmRecord
  files : Files
  /-- The object that a routine kept past its call. -/
  kept : Option ForeignId
  /-- What was written, the latest first. -/
  log : List Chunk

/-- The module that an embedding program runs scripts in. -/
def entryModule : String := "main"

/-- The text of a report. -/
def Report.text (r : Report) : String :=
  match r.kind with
  | .compile =>
    "compilation error: " ++ r.moduleName ++ ":" ++ r.line.repr ++ ": " ++ r.message ++ "\n"
  | .runtime => "runtime error: " ++ r.message ++ "\n"
  | .trace => "\t" ++ r.moduleName ++ ":" ++ r.line.repr ++ ": " ++ r.message ++ "\n"

/-- Where a module may be found: a file of its name, or a file in a directory of its name. -/
def moduleCandidates (directory name : String) : List String :=
  [joinPath directory (name ++ ".wren"), joinPath (joinPath directory name) "module.wren"]

/-- Whether a name holds two dots in a row, and so might lead out of a directory. -/
def leadsOut (name : String) : Bool :=
  let cs := name.toList
  (cs.zip cs.tail).any fun (a, b) => a == '.' && b == '.'

namespace Surroundings

/-- Text written, unless there is none or its writer fails. -/
def write (s : Surroundings) (channel : Channel) (text : String) : Surroundings :=
  if text.isEmpty || s.record.broken.contains channel then s
  else { s with log := ⟨channel, text⟩ :: s.log }

def setPending (s : Surroundings) (f : Option BoundaryFault) : Surroundings :=
  { s with record := { s.record with pending := f } }

/-- The host function of a member. The fault of a member that has none is remembered. -/
def bindMethod (s : Surroundings) (name : MemberName) : Option HostFunction × Surroundings :=
  if name.moduleName = entryModule then
    match s.record.methods.get? name.canonical with
    | some f => (some f, s)
    | none => (none, s.setPending (some (.unresolved name.canonical)))
  else (none, s.setPending (some (.untrusted name.moduleName name.canonical)))

/-- The binding of a class; an unknown one is more than a script can survive. -/
def bindClass (s : Surroundings) (moduleName className : String) :
    Except String ForeignBinding :=
  if moduleName = entryModule then
    match s.record.classes.get? className with
    | some binding => .ok binding
    | none => .error ("foreign class " ++ className ++ " not found")
  else .error (BoundaryFault.untrusted moduleName className).message

/-- The source of a module: the first candidate that can be read. -/
def load (s : Surroundings) (name : String) : Option String :=
  if leadsOut name then none
  else s.record.modulesDir.bind fun directory =>
    (moduleCandidates directory name).findSome? fun path => (s.files.readText path).toOption

def callbacks : Callbacks Surroundings where
  write text := modify (·.write .out text)
  report r := modify (·.write .err r.text)
  bindMethod name := modifyGet (·.bindMethod name)
  bindClass moduleName className := return (← get).bindClass moduleName className
  load name := return (← get).load name

/-- Stop the running script, and remember why. -/
def stop (m : Machine Surroundings) (f : BoundaryFault) : Machine Surroundings :=
  { m with
    vm := { m.vm with abort := some f.message }
    host := m.host.setPending (some f) }

/-- A foreign object made in slot 0, of the class that is there. -/
def allocate (maker : Maker) (m : Machine Surroundings) :
    Except BoundaryFault (Machine Surroundings) :=
  match maker.make with
  | .error message => .error (.failed message)
  | .ok payload =>
    match m.newForeign? 0 0 payload with
    | some (_, m) => .ok m
    | none => .error (.inaccessible 0)

/-- The entry of an entry point run on the window. -/
def runEntry (e : Entry) (m : Machine Surroundings) : Machine Surroundings :=
  match e with
  | .routine r =>
    match (r.dispatch (fun id s => { s with kept := some id })).run m with
    | (.ok (), m) => m
    | (.error f, m) => stop m f
  | .maker maker =>
    match allocate maker m with
    | .ok m => m
    | .error f => stop m f

def host : Host Surroundings where
  callbacks := callbacks
  run f _ :=
    match f with
    | .entry point =>
      modify fun m =>
        match m.host.registry.find? point with
        | some e => runEntry e m
        | none => m.onVm fun vm =>
          { vm with abort := some ("function " ++ point.repr ++ " not registered") }
    | .method _ | .allocator _ => return ()

end Surroundings
end ScriptHost
