import ScriptHost.Number.Narrow
/-! What a host function expects in one slot. -/

namespace ScriptHost

/-- The host types whose values a foreign object can carry. -/
inductive HostType where
  | i64 | u64 | f64 | bool | string | unit | u8 | tracked
  /-- A type of the embedding program's own, known by its identity; its name is for messages. -/
  | other (id : Nat) (name : String)
deriving Repr, DecidableEq

namespace HostType

def name : HostType → String
  | i64 => "i64"
  | u64 => "u64"
  | f64 => "f64"
  | bool => "bool"
  | string => "alloc::string::String"
  | unit => "()"
  | u8 => "u8"
  | tracked => "tracked"
  | other _ name => name

end HostType

/-- What a host function expects in a slot, or puts into one. -/
inductive Kind where
  | bool
  | number (type : NumberType)
  | string
  /-- A foreign object whose payload has the host type. -/
  | foreign (type : HostType)
  /-- Null as well as the inner kind. -/
  | optional (inner : Kind)
  /-- Whatever plain value the slot holds. -/
  | any
deriving Repr, DecidableEq, Inhabited

/-- The name of a kind in messages. -/
def Kind.text : Kind → String
  | bool => "bool"
  | number type => "num (" ++ type.name ++ ")"
  | string => "string"
  | foreign type => "foreign " ++ type.name
  | optional inner => inner.text ++ " or null"
  | any => "any value"

end ScriptHost
