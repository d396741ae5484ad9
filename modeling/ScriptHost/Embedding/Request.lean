import ScriptHost.Boundary.Routine
import ScriptHost.Machine.Description
/-! Requests: what an embedding program can ask of a machine, one at a time, and the replies. -/

namespace ScriptHost

/-- What the embedding program attached to a machine. -/
inductive UserData where
  /-- A counter of 32 bits. -/
  | count (n : Nat)
  | text (s : String)
deriving Repr, DecidableEq

inductive Request where
  | interpret (moduleName source : String)
  | slotCount
  | ensureSlots (count : Nat)
  | slotType (slot : Nat)
  | showSlots
  | look (slot : Nat)
  | setNull (slot : Nat)
  | setBool (slot : Nat) (b : Bool)
  | setNumber (slot : Nat) (x : Float)
  | setString (slot : Nat) (s : String)
  /-- A new object of the class in `classSlot`, with a payload or zero. -/
  | newForeign (slot classSlot : Nat) (payload : Option Nat)
  /-- The value of a slot kept under a name. -/
  | takeHandle (slot : Nat) (handle : String)
  | putHandle (slot : Nat) (handle : String)
  | showHandle (handle : String)
  | compare (a b : String)
  | readField (handle name : String)
  | writeField (handle name value : String)
  | findMethod (handle signature : String)
  | readVariable (moduleName name : String) (slot : Nat)
  /-- A signature kept under a name for calls. -/
  | prepareCall (signature handle : String)
  | call (handle : String)
  | abort (message : String)
  | setUserData (data : UserData)
  | userData
  /-- The counter stepped on. -/
  | countUserData
  | decode (slot : Nat) (kind : Kind)
  | decodeArguments (params : List Kind)
  | encode (slot : Nat) (value : HostValue)
  /-- A slot decoded and encoded again. -/
  | recode (slot : Nat) (kind : Kind)
  | dispatch (params : List Kind) (returns : Option Kind) (body : Body)
  /-- A request that means nothing. -/
  | unknown

/-! Replies. -/

/-- A value as it is shown to the embedding program. -/
inductive View where
  | null
  | bool (b : Bool)
  | number (x : Float)
  | string (s : String)
  | list (elements : List View)
  /-- A list inside too many others. -/
  | deep
  | classObject (name moduleName : String) (isForeign : Bool)
  | object (className : String)
  | foreign (className : String)

/-- How deep lists are shown. -/
def View.depth : Nat := 6

/-- A value as it is shown, lists to a depth. -/
def Heap.viewUpTo (h : Heap) : Nat → Value → View
  | _, .null => .null
  | _, .bool b => .bool b
  | _, .number x => .number x
  | _, .string s => .string s
  | _, .classObject id =>
    match h.class? id with
    | some c => .classObject c.name c.moduleName c.isForeign
    | none => .null
  | _, .object id => .object (h.instanceClassName id)
  | _, .foreign id => .foreign (h.foreignClassName id)
  | 0, .list _ => .deep
  | depth + 1, .list id => .list ((h.list id).toList.map (h.viewUpTo depth))

def Heap.view (h : Heap) (v : Value) : View := h.viewUpTo View.depth v

/-- What the embedding program reads from one slot; what does not apply is missing. -/
structure SlotView where
  type : SlotType
  bool : Option Bool
  number : Option Float
  string : Option String
  payload : Option Payload
  className : Option String
  /-- Whether the class was bound with a host type. -/
  isTyped : Option Bool

/-- What a method is. -/
inductive MethodView where
  | primitive
  | foreign
  | script (signature : String)
  | constructor (signature : String)

def Method.view : Method → MethodView
  | .primitive _ => .primitive
  | .foreign _ => .foreign
  | .script decl => .script decl.signature
  | .constructor decl => .constructor decl.signature

inductive Reply where
  | done
  /-- The request does not apply. -/
  | none
  | flag (b : Bool)
  | count (n : Nat)
  | slotType (type : SlotType)
  | slots (views : List View)
  | slot (view : SlotView)
  | handle (view : View)
  | handleInfo (view : View) (text : String) (isTrue : Bool)
  | field (view : View)
  | methods (ofObjects ofClass : Option MethodView)
  | prepared (signature : String) (arity : Nat)
  | called (view : View)
  | userData (data : Option UserData)
  | decoded (value : HostValue)
  | arguments (values : List HostValue)
  | interpretError (e : InterpretError)
  | boundaryFault (f : BoundaryFault)
  /-- The host gave up. -/
  | panic (message : String)

end ScriptHost
