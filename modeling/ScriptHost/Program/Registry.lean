import ScriptHost.Boundary.Routine
/-! The registration table of a program. Each registration takes the next entry point, and none is
ever given back. -/

namespace ScriptHost

/-- What makes the payloads of a foreign class: the host type, and a payload or the message that it
gives up with. -/
structure Maker where
  type : HostType
  make : Except String Payload

/-- What an entry point leads to. -/
inductive Entry where
  | routine (r : Routine)
  | maker (m : Maker)

structure Registry where
  /-- The entries by entry point. -/
  entries : List Entry

namespace Registry

def empty : Registry := ⟨[]⟩

/-- How many entry points there are. -/
def capacity : Nat := 128

/-- How many entry points are taken. -/
def registered (r : Registry) : Nat := r.entries.length

def find? (r : Registry) (point : Nat) : Option Entry := r.entries[point]?

/-- The next entry point led to an entry. -/
def register (r : Registry) (e : Entry) : Except BoundaryFault (Nat × Registry) :=
  if r.registered < capacity then .ok (r.registered, ⟨r.entries ++ [e]⟩)
  else .error (.capacity capacity)

end Registry
end ScriptHost
