/-! Tables of values by name, in the order in which the names were first entered. -/

namespace ScriptHost

/-- Values by name; a name stands once. -/
abbrev Table (α : Type) := List (String × α)

namespace Table

variable {α : Type}

def get? (t : Table α) (name : String) : Option α := t.lookup name

def has (t : Table α) (name : String) : Bool := (t.get? name).isSome

/-- A name entered anew, in its old place if it has one. -/
def set : Table α → String → α → Table α
  | [], name, v => [(name, v)]
  | (n, w) :: rest, name, v => if n == name then (n, v) :: rest else (n, w) :: set rest name v

/-- The value of a name changed, if it has one. -/
def update : Table α → String → (α → α) → Table α
  | [], _, _ => []
  | (n, w) :: rest, name, f => if n == name then (n, f w) :: rest else (n, w) :: update rest name f

def erase (t : Table α) (name : String) : Table α := t.filter fun entry => entry.1 != name

def values (t : Table α) : List α := t.map (·.2)

end Table
end ScriptHost
