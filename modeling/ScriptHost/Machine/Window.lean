import ScriptHost.Machine.State
/-! The window of slots: how a host function finds its receiver and arguments, and leaves its
result. Reading past the window gives nothing; writing past it widens it with nulls. -/

namespace ScriptHost

/-- What a slot holds, as far as the host can see. -/
inductive SlotType where
  | bool | num | foreign | list | null | string
  /-- An object or class of the script, or no slot at all. -/
  | unknown
deriving Repr, DecidableEq

namespace Vm

def slotCount (vm : Vm) : Nat := vm.slots.length

def slot? (vm : Vm) (slot : Nat) : Option Value := vm.slots[slot]?

/-- At least so many slots, the new ones null. -/
def ensureSlots (vm : Vm) (count : Nat) : Vm :=
  { vm with slots := vm.slots ++ List.replicate (count - vm.slots.length) .null }

/-- A slot written. Slot 0 is where a host function leaves its result. -/
def setSlot (vm : Vm) (slot : Nat) (v : Value) : Vm :=
  let wide := vm.ensureSlots (slot + 1)
  { wide with
    slots := wide.slots.set slot v
    returnWritten := wide.returnWritten || slot == 0 }

def slotType (vm : Vm) (slot : Nat) : SlotType :=
  match vm.slot? slot with
  | some (.bool _) => .bool
  | some (.number _) => .num
  | some (.foreign _) => .foreign
  | some (.list _) => .list
  | some .null => .null
  | some (.string _) => .string
  | some (.classObject _) | some (.object _) | none => .unknown

def slotBool? (vm : Vm) (slot : Nat) : Option Bool :=
  match vm.slot? slot with
  | some (.bool b) => some b
  | _ => none

def slotNumber? (vm : Vm) (slot : Nat) : Option Float :=
  match vm.slot? slot with
  | some (.number x) => some x
  | _ => none

def slotString? (vm : Vm) (slot : Nat) : Option String :=
  match vm.slot? slot with
  | some (.string s) => some s
  | _ => none

def slotForeign? (vm : Vm) (slot : Nat) : Option ForeignId :=
  match vm.slot? slot with
  | some (.foreign id) => some id
  | _ => none

/-- A top-level variable of a module read into a slot; `none` if there is no such variable. -/
def readVariable? (vm : Vm) (moduleName name : String) (slot : Nat) : Option Vm :=
  (vm.binding? moduleName name).map (vm.setSlot slot)

end Vm

namespace Machine

variable {H : Type}

/-- The foreign class in a slot. -/
def slotForeignClass? (m : Machine H) (slot : Nat) : Option ClassId :=
  match m.vm.slot? slot with
  | some (.classObject id) =>
    match m.heap.class? id with
    | some c => if c.isForeign then some id else none
    | none => none
  | _ => none

/-- A new object of the foreign class in one slot, put into another; `none` if there is no foreign
class. -/
def newForeign? (m : Machine H) (slot classSlot : Nat) (payload : Payload) :
    Option (ForeignId × Machine H) :=
  (m.slotForeignClass? classSlot).map fun classId =>
    let (id, heap) := m.heap.addForeign classId payload
    (id, { m with heap, vm := m.vm.setSlot slot (.foreign id) })

end Machine
end ScriptHost
