import ScriptHost.Machine.Heap
import ScriptHost.Number.Written
import ScriptHost.Text.Quoted
/-! The texts of values that no script chose: what a value is called when its class does not say,
and what the host is shown of it. -/

namespace ScriptHost

namespace Heap

/-- The name of the class of an instance. -/
def instanceClassName (h : Heap) (id : InstanceId) : String :=
  ((h.instance? id).map fun i => h.className i.classId).getD ""

/-- The name of the class of a foreign object. -/
def foreignClassName (h : Heap) (id : ForeignId) : String :=
  ((h.foreignClass? id).map (·.name)).getD ""

/-- What a value looks like to the host, lists to a depth. -/
def displayUpTo (h : Heap) : Nat → Value → String
  | _, .null => "null"
  | _, .bool b => if b then "true" else "false"
  | _, .number x => numberText x
  | _, .string s => Text.quoted s
  | _, .classObject id => h.className id
  | _, .object id => "instance of " ++ h.instanceClassName id
  | _, .foreign id => "foreign instance of " ++ h.foreignClassName id
  | 0, .list _ => "[]"
  | depth + 1, .list id =>
    "[" ++ String.intercalate ", " ((h.list id).toList.map (h.displayUpTo depth)) ++ "]"

/-- What a value looks like to the host. No more lists than there are can be inside each other. -/
def display (h : Heap) (v : Value) : String := h.displayUpTo h.lists.size v

/-- What a value is called when its class does not say. -/
def describe (h : Heap) : Value → String
  | .foreign id => "instance of " ++ h.foreignClassName id
  | v => h.display v

end Heap
end ScriptHost
