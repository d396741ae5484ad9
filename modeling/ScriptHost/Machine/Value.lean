import ScriptHost.Boundary.Kind
import ScriptHost.Machine.Table
import ScriptHost.Source.Tree
/-! Values of a running script, and the objects that they refer to. Numbers, strings, booleans and
null are values in themselves; lists, classes and instances are objects, known by their place in the
heap, so that all who hold one see its changes. -/

namespace ScriptHost

abbrev ListId := Nat

abbrev ClassId := Nat

abbrev InstanceId := Nat

abbrev ForeignId := Nat

inductive Value where
  | null
  | bool (b : Bool)
  | number (x : Float)
  | string (s : String)
  | list (id : ListId)
  | classObject (id : ClassId)
  | object (id : InstanceId)
  /-- An object whose contents belong to the host. -/
  | foreign (id : ForeignId)

instance : Inhabited Value := ⟨.null⟩

namespace Value

/-- Only `false` and null are not true. -/
def isTrue : Value → Bool
  | null => false
  | bool b => b
  | _ => true

/-- Equality of values: by content for plain values, by identity for objects. -/
def same : Value → Value → Bool
  | null, null => true
  | bool a, bool b => a == b
  | number a, number b => a == b
  | string a, string b => a == b
  | list a, list b => a == b
  | classObject a, classObject b => a == b
  | object a, object b => a == b
  | foreign a, foreign b => a == b
  | _, _ => false

end Value

/-- The variables of one scope or the fields of one instance. -/
abbrev Bindings := Table Value

/-- The classes that every module starts with. -/
inductive CoreClass where
  | bool | null | num | string | list | system
deriving Repr, DecidableEq

namespace CoreClass

def name : CoreClass → String
  | bool => "Bool"
  | null => "Null"
  | num => "Num"
  | string => "String"
  | list => "List"
  | system => "System"

def all : List CoreClass := [bool, null, num, string, list, system]

end CoreClass

/-- The methods that the machine itself implements. -/
inductive Primitive where
  | boolNot | boolText
  | nullNot | nullText
  | add | subtract | multiply | divide | remainder | less | greater | lessEqual | greaterEqual
  | negate | absolute | floor | ceil | squareRoot | isInteger | numberText
  | concat | stringCount | contains | stringText
  | append | listCount | subscript | listText
  | printNewline | print | write
deriving Repr, DecidableEq

/-- A function of the host that a script can call: a method that the embedding program knows by its
canonical signature, the allocator of a class that it knows by name, or the one behind an entry
point of the registration table. -/
inductive HostFunction where
  | method (key : String)
  | allocator (className : String)
  | entry (index : Nat)
deriving Repr, DecidableEq

inductive Method where
  | primitive (p : Primitive)
  | foreign (f : HostFunction)
  | script (decl : MethodDecl)
  | constructor (decl : MethodDecl)

/-- What a class declaration was bound with: who makes the objects, whether the host is told when
one goes, and the host type of what they carry. -/
structure ForeignBinding where
  allocate : Option HostFunction
  finalize : Bool
  hostType : Option HostType
deriving Repr, DecidableEq

/-- The binding of a class that the host does not know. -/
def ForeignBinding.none : ForeignBinding := ⟨.none, false, .none⟩

/-- Methods by signature. -/
abbrev MethodTable := Table Method

structure ClassObject where
  name : String
  /-- The module that the class was declared in. -/
  moduleName : String
  isForeign : Bool
  methods : MethodTable
  statics : MethodTable
  binding : ForeignBinding

structure Instance where
  classId : ClassId
  fields : Bindings

/-- What a foreign object carries. -/
inductive Payload where
  | i64 (n : Int)
  | u64 (n : Nat)
  | f64 (x : Float)
  | bool (b : Bool)
  | string (s : String)
  | unit
  | u8 (n : Nat)
  /-- A value whose release is recorded under its number. -/
  | tracked (id : Nat)
  /-- A value of a type of the embedding program's own, as its bytes. -/
  | other (type : Nat) (typeName : String) (bytes : List UInt8)

/-- The host type of a payload. -/
def Payload.type : Payload → HostType
  | i64 _ => .i64
  | u64 _ => .u64
  | f64 _ => .f64
  | bool _ => .bool
  | string _ => .string
  | unit => .unit
  | u8 _ => .u8
  | tracked _ => .tracked
  | other type typeName _ => .other type typeName

structure ForeignObject where
  classId : ClassId
  payload : Payload

end ScriptHost
