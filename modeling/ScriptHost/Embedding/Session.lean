import ScriptHost.Embedding.Desk
/-! A session: requests answered one after the other on a fresh machine, each reply with the events
since the one before, and at the end the payloads of all objects that the host is told of when they
go. -/

namespace ScriptHost

-- Powers are those of the core library, whatever else is in scope.
attribute [local instance (high)] instPowNat

/-- A depth of calls that no run reaches. -/
def unreachedDepth : Nat := 2 ^ (60 : Nat)

/-- A machine that nothing has run on. -/
def Machine.fresh {H : Type} (host : H) : Machine H :=
  let (core, heap) := Heap.empty.addCore
  { heap, vm := .fresh core, host }

/-- What one request led to. -/
structure Turn where
  reply : Reply
  events : List Event

structure Transcript where
  turns : List Turn
  /-- The payloads of the objects of classes with a finalizer, in ascending order. -/
  finalized : List Nat

namespace Plan

/-- One request answered, its events taken off the desk. -/
def turn (p : Plan) (m : Machine Desk) (r : Request) : Turn × Machine Desk :=
  let (reply, m) :=
    match Desk.serve (p.host.engine unreachedDepth) r m with
    | .ok reply m => (reply, m)
    | .error (.panic message) m => (.panic message, m)
    | .error .exhausted m => (.none, m)
  (⟨reply, m.host.events.reverse⟩, { m with host := { m.host with events := [] } })

def turns (p : Plan) : Machine Desk → List Request → List Turn × Machine Desk
  | m, [] => ([], m)
  | m, r :: rest =>
    let (t, m) := p.turn m r
    let (ts, m) := p.turns m rest
    (t :: ts, m)

/-- The number that a payload is. -/
def payloadNumber : Payload → Nat
  | .u64 n => n
  | _ => 0

/-- The payloads that finalizers have dropped once nothing holds on to any object from outside. -/
def finalizedPayloads (heap : Heap) : List Nat :=
  (((heap.finalized []).filterMap heap.foreign?).map fun o => payloadNumber o.payload).mergeSort

def run (p : Plan) (requests : List Request) : Transcript :=
  let (turns, m) := p.turns (.fresh .empty) requests
  ⟨turns, finalizedPayloads m.heap⟩

end Plan
end ScriptHost
