import ScriptHost.Machine.Description
import ScriptHost.Machine.State
/-! What the parts of the interpreter need from each other and from the host. Sending a message and
loading a module run further code; they are passed in, so that each part is defined on its own. -/

namespace ScriptHost

/-- A member of a class, as its declaration asks for a host function. -/
structure MemberName where
  moduleName : String
  className : String
  isStatic : Bool
  signature : String
deriving Repr, DecidableEq

/-- The key that a member is registered under. -/
def MemberName.canonical (m : MemberName) : String :=
  canonicalSignature m.className m.isStatic m.signature

/-- What the machine asks of its host, each on the host's own state. -/
structure Callbacks (H : Type) where
  write : String → StateM H Unit
  report : Report → StateM H Unit
  bindMethod : MemberName → StateM H (Option HostFunction)
  /-- The binding of a foreign class, by its module and its name; the host may give up instead. -/
  bindClass : String → String → StateM H (Except String ForeignBinding)
  /-- The source of a module. -/
  load : String → StateM H (Option String)

/-- What runs further code. -/
inductive Action where
  /-- Call the method of a signature on a receiver. -/
  | send (receiver : Value) (signature : String) (args : List Value)
  /-- Find, compile and run a module. -/
  | load (moduleName : String)

/-- The surroundings of a running script: the host's callbacks, a bound on the turns of a loop, and
the means to run further code. -/
structure Engine (H : Type) where
  callbacks : Callbacks H
  limit : Nat
  perform : Action → Run H Value

/-- A host: its callbacks, and the functions that it hands out. A function works on the window, and
may run further code. -/
structure Host (H : Type) where
  callbacks : Callbacks H
  run : HostFunction → Engine H → Live H Unit

namespace Engine

variable {H : Type}

def send (engine : Engine H) (receiver : Value) (signature : String) (args : List Value) :
    Run H Value :=
  engine.perform (.send receiver signature args)

def write (engine : Engine H) (text : String) : Live H Unit :=
  modifyGet (·.onHost (engine.callbacks.write text))

def report (engine : Engine H) (r : Report) : Live H Unit :=
  modifyGet (·.onHost (engine.callbacks.report r))

def reportAll (engine : Engine H) : List Report → Live H Unit
  | [] => return ()
  | r :: rest => do
    engine.report r
    engine.reportAll rest

/-- The text of a value: a string or number as it is, all else by its own `toString`. -/
def textOf (engine : Engine H) (v : Value) : Run H String :=
  match v with
  | .string s => return s
  | .number x => return numberText x
  | _ => do
    match ← engine.send v "toString" [] with
    | .string s => return s
    | _ => return (← get).heap.describe v

/-- The texts of some values, one after the other. -/
def textsOf (engine : Engine H) : List Value → Run H (List String)
  | [] => return []
  | v :: rest => do
    let text ← engine.textOf v
    return text :: (← engine.textsOf rest)

end Engine
end ScriptHost
