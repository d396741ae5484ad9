import ScriptHost.Boundary.Kind
/-! Values on the host's side of the boundary, and their fit to the kinds. -/

namespace ScriptHost

/-- A foreign object as the host sees it: the object, the name of its class, and the host type that
its class was bound with. -/
structure ForeignRef where
  object : Nat
  className : String
  hostType : Option HostType
deriving Repr, DecidableEq

/-- A value that crosses the boundary. -/
inductive HostValue where
  | null
  | bool (b : Bool)
  | number (x : Float)
  | text (s : String)
  | foreign (ref : ForeignRef)

/-- The name of a value's type in messages. -/
def HostValue.typeName : HostValue → String
  | null => "null"
  | bool _ => "bool"
  | number _ => "num"
  | text _ => "string"
  | foreign ref => "foreign " ++ ref.className

/-- Whether a value has the shape that a kind describes. -/
def Kind.accepts : Kind → HostValue → Bool
  | .any, _ => true
  | .optional _, .null => true
  | .optional inner, value => inner.accepts value
  | .bool, .bool _ => true
  | .number _, .number _ => true
  | .string, .text _ => true
  | .foreign type, .foreign ref => ref.hostType == some type
  | _, _ => false

/-- An argument as a typed host function receives it. -/
inductive Argument where
  | null
  | bool (b : Bool)
  | number (x : Float)
  | integer (n : Int)
  | text (s : String)
  | foreign (ref : ForeignRef)

/-- The value that an argument crosses the boundary as. -/
def Argument.toHostValue : Argument → HostValue
  | null => .null
  | bool b => .bool b
  | number x => .number x
  | integer n => .number (Binary.ofInt n).toFloat
  | text s => .text s
  | foreign ref => .foreign ref

/-- A host value taken as it is. -/
def Argument.ofHostValue : HostValue → Argument
  | .null => .null
  | .bool b => .bool b
  | .number x => .number x
  | .text s => .text s
  | .foreign ref => .foreign ref

/-- A number narrowed to a number type. -/
def NumberType.narrow (type : NumberType) (x : Float) : Argument :=
  match type.range? with
  | some range => .integer (range.narrow (Binary.ofFloat x))
  | none =>
    if type = .f32 then .number (((Binary.ofFloat x).convert .single).convert .double).toFloat
    else .number x

/-- The argument of a kind that a value stands for; `none` if its shape does not fit. -/
def Kind.argument? : Kind → HostValue → Option Argument
  | .any, value => some (.ofHostValue value)
  | .optional _, .null => some .null
  | .optional inner, value => inner.argument? value
  | .bool, .bool b => some (.bool b)
  | .number type, .number x => some (type.narrow x)
  | .string, .text s => some (.text s)
  | .foreign type, .foreign ref => if ref.hostType = some type then some (.foreign ref) else none
  | _, _ => none

end ScriptHost
