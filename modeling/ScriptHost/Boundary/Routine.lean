import ScriptHost.Boundary.Slot
/-! Routines: host functions with the kinds of their parameters and of their result, and how one is
run on the window. -/

namespace ScriptHost

/-- How a routine ended. -/
inductive Outcome where
  /-- A result, or none. -/
  | value (v : Option HostValue)
  | fault (f : BoundaryFault)
  /-- It gave up with a message. -/
  | panic (message : String)

/-- What a routine did: how it ended, the payloads that it wrote, and the object that it keeps. -/
structure Effect where
  outcome : Outcome
  writes : List (ForeignId × Payload)
  keeps : Option ForeignId

namespace Effect

/-- An end that leaves no trace. -/
def only (outcome : Outcome) : Effect := ⟨outcome, [], none⟩

def result (v : HostValue) : Effect := only (.value (some v))

def nothing : Effect := only (.value none)

end Effect

/-- A host function. It sees its arguments, and the payloads of foreign objects. -/
structure Routine where
  params : List Kind
  returns : Option Kind
  call : List HostValue → Heap → Effect

/-- The payloads that a routine wrote. One of another host type is not written. -/
def Heap.setPayloads (h : Heap) (writes : List (ForeignId × Payload)) : Heap :=
  writes.foldl (fun h (id, payload) => h.setPayload id payload) h

/-- The result of a routine put into slot 0, if it is of the declared kind. -/
def Machine.encodeResult {H : Type} (m : Machine H) (returns : Option Kind) (v : HostValue) :
    Except BoundaryFault (Machine H) :=
  match returns with
  | some kind =>
    if kind.accepts v then m.encode 0 v else .error (.typeMismatch 0 kind.text v.typeName)
  | none => .error (.typeMismatch 0 "no value" v.typeName)

/-- A routine run on the window: the arguments are read, and a result goes to slot 0. `keep` takes
an object that the routine keeps. -/
def Routine.dispatch {H : Type} (keep : ForeignId → H → H) (r : Routine) :
    StateM (Machine H) (Except BoundaryFault Unit) := do
  match (← get).decodeArguments r.params with
  | .error f => return .error f
  | .ok args =>
    let effect := r.call args (← get).heap
    modify fun m => m.mapHeap (·.setPayloads effect.writes)
    if let some id := effect.keeps then
      modify fun m => { m with host := keep id m.host }
    match effect.outcome with
    | .fault f => return .error f
    | .panic message => return .error (.failed message)
    | .value none => return .ok ()
    | .value (some v) =>
      match (← get).encodeResult r.returns v with
      | .error f => return .error f
      | .ok m =>
        set m
        return .ok ()

/-! Routines described by what they do. -/

/-- The body of a described routine. -/
inductive Body where
  | constant (v : HostValue)
  /-- An argument, or nothing if there is no such argument. -/
  | argument (index : Nat)
  /-- The names of the arguments' types. -/
  | types
  | nothing
  | panic (text : String)
  | fault (f : BoundaryFault)

def Body.outcome (args : List HostValue) : Body → Outcome
  | constant v => .value (some v)
  | argument i => .value args[i]?
  | types => .value (some (.text (String.intercalate "," (args.map (·.typeName)))))
  | nothing => .value none
  | panic text => .panic text
  | fault f => .fault f

def Routine.described (params : List Kind) (returns : Option Kind) (body : Body) : Routine :=
  ⟨params, returns, fun args _ => .only (body.outcome args)⟩

end ScriptHost
