import ScriptHost.Program.Surroundings
/-! What an embedding program does with one machine: run scripts in the entry module, look up its
variables, and call methods on values. An error comes with its cause: the fault that stopped the
script, if there was one. -/

namespace ScriptHost

abbrev Client := Live Surroundings

namespace Client

def setPending (f : Option BoundaryFault) : Client Unit :=
  modify fun m => { m with host := m.host.setPending f }

/-- The cause of an error; a fault that stopped the script goes before the script's own words. -/
def cause (pending : Option BoundaryFault) : InterpretError → BoundaryFault
  | .compile _ => .compile
  | .runtime e => pending.getD (.runtime e.message)

/-- A run with its error led back to the cause. -/
def settled (run : Client (Except InterpretError Unit)) : Client (Except BoundaryFault Unit) := do
  setPending none
  let result ← run
  let pending := (← get).host.record.pending
  setPending none
  return result.mapError (cause pending)

/-- A script run in the entry module. -/
def interpret (engine : Engine Surroundings) (source : String) :
    Client (Except BoundaryFault Unit) :=
  settled (engine.interpret entryModule source)

/-- A top-level variable of the entry module, by way of slot 0. -/
def lookup (name : String) : Client (Option Value) := do
  modify fun m => m.onVm (·.ensureSlots 1)
  match (← get).vm.readVariable? entryModule name 0 with
  | some vm =>
    modify fun m => { m with vm }
    return vm.slot? 0
  | none => return none

/-- Host values put into slots from one on. -/
def encodeFrom : Nat → List HostValue → Client (Except BoundaryFault Unit)
  | _, [] => return .ok ()
  | slot, value :: rest => do
    match (← get).encode slot value with
    | .error f => return .error f
    | .ok m =>
      set m
      encodeFrom (slot + 1) rest

/-- A prepared method called on a value; a null result is none. -/
def callWith (engine : Engine Surroundings) (receiver : Value) (handle : CallHandle)
    (params : List HostValue) : Client (Except BoundaryFault (Option HostValue)) := do
  if params.length < handle.arity then
    return .error (.missingArgument (params.length + 1))
  modify fun m => m.onVm fun vm => (vm.ensureSlots (params.length + 1)).setSlot 0 receiver
  match ← encodeFrom 1 params with
  | .error f => return .error f
  | .ok () =>
    match ← settled (engine.callWith handle) with
    | .error f => return .error f
    | .ok () =>
      return match (← get).decode 0 .any with
        | .error f => .error f
        | .ok .null => .ok none
        | .ok value => .ok (some value)

/-- A method called on a value for the first time. -/
def call (engine : Engine Surroundings) (receiver : Value) (signature : String)
    (params : List HostValue) : Client (Except BoundaryFault (Option HostValue)) :=
  callWith engine receiver (.ofSignature signature) params

end Client

/-- A value that the embedding program holds, with the methods prepared on it so far. -/
structure Held where
  value : Value
  prepared : Table CallHandle

namespace Held

/-- A value that nothing was called on. -/
def fresh (value : Value) : Held := ⟨value, []⟩

/-- The method of a signature, prepared at its first use. -/
def handle (h : Held) (signature : String) : CallHandle :=
  (h.prepared.get? signature).getD (.ofSignature signature)

/-- The value once a method was called on it. -/
def after (h : Held) (signature : String) : Held :=
  if h.prepared.has signature then h
  else { h with prepared := h.prepared.set signature (.ofSignature signature) }

def call (engine : Engine Surroundings) (h : Held) (signature : String)
    (params : List HostValue) : Client (Except BoundaryFault (Option HostValue)) :=
  Client.callWith engine h.value (h.handle signature) params

end Held
end ScriptHost
