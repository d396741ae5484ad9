import ScriptHost.Boundary.Fault
import ScriptHost.Boundary.HostValue
import ScriptHost.Machine.Window
/-! Values crossing the boundary through slots. A slot is read as the kind that the host expects,
and no sort of value turns into another on the way. -/

namespace ScriptHost

/-- The name of what a slot holds in messages. -/
def SlotType.name : SlotType → String
  | bool => "bool"
  | num => "num"
  | foreign => "foreign"
  | list => "list"
  | null => "null"
  | string => "string"
  | unknown => "unknown"

/-- A foreign object as the host sees it. -/
def Heap.foreignRef (h : Heap) (id : ForeignId) : ForeignRef :=
  match h.foreignClass? id with
  | some c => ⟨id, c.name, c.binding.hostType⟩
  | none => ⟨id, "", none⟩

/-- A value read as a kind. A foreign object is judged by the host type that its class was bound
with. -/
def Heap.crossing (h : Heap) (slot : Nat) : Value → Kind → Except BoundaryFault HostValue
  | .list _, _ => .error (.unsupported slot "list")
  | .classObject _, _ | .object _, _ => .error (.inaccessible slot)
  | .null, .optional _ | .null, .any => .ok .null
  | v, .optional inner => h.crossing slot v inner
  | .bool b, .bool | .bool b, .any => .ok (.bool b)
  | .number x, .number _ | .number x, .any => .ok (.number x)
  | .string s, .string | .string s, .any => .ok (.text s)
  | .foreign id, .foreign type =>
    let ref := h.foreignRef id
    if ref.hostType = some type then .ok (.foreign ref)
    else .error (.typeMismatch slot (Kind.foreign type).text ("foreign " ++ ref.className))
  | .foreign _, .any => .error (.unsupported slot "untyped foreign")
  | .null, kind => .error (.typeMismatch slot kind.text "null")
  | .bool _, kind => .error (.typeMismatch slot kind.text "bool")
  | .number _, kind => .error (.typeMismatch slot kind.text "num")
  | .string _, kind => .error (.typeMismatch slot kind.text "string")
  | .foreign _, kind => .error (.typeMismatch slot kind.text "foreign")

/-- The value that a host value becomes in a slot. A foreign object never goes back. -/
def HostValue.toValue (slot : Nat) : HostValue → Except BoundaryFault Value
  | null => .ok .null
  | bool b => .ok (.bool b)
  | number x => .ok (.number x)
  | text s => .ok (.string s)
  | foreign _ => .error (.unsupported slot "foreign")

namespace Machine

variable {H : Type}

/-- A slot read as a kind. -/
def decode (m : Machine H) (slot : Nat) (kind : Kind) : Except BoundaryFault HostValue :=
  match m.vm.slot? slot with
  | none => .error (.missingArgument slot)
  | some v => m.heap.crossing slot v kind

/-- A host value put into a slot. -/
def encode (m : Machine H) (slot : Nat) (value : HostValue) :
    Except BoundaryFault (Machine H) :=
  (value.toValue slot).map fun v => m.onVm (·.setSlot slot v)

/-- Slots from one on, read as kinds. -/
def decodeFrom (m : Machine H) : Nat → List Kind → Except BoundaryFault (List HostValue)
  | _, [] => .ok []
  | slot, kind :: rest => do
    let value ← m.decode slot kind
    return value :: (← m.decodeFrom (slot + 1) rest)

/-- The slot of the first argument: a receiver that the host cannot see is none. -/
def firstArgument (m : Machine H) : Nat :=
  if m.vm.slotCount != 0 && m.vm.slotType 0 == .unknown then 1 else 0

def decodeArguments (m : Machine H) (params : List Kind) :
    Except BoundaryFault (List HostValue) :=
  m.decodeFrom m.firstArgument params

end Machine
end ScriptHost
