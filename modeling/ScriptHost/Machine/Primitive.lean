import ScriptHost.Machine.Engine
import ScriptHost.Number.Narrow
/-! The methods that the machine itself implements, and the classes that have them. -/

namespace ScriptHost

namespace CoreClass

/-- The methods of the objects of a core class, by signature. -/
def methods : CoreClass → List (String × Primitive)
  | bool => [("!", .boolNot), ("toString", .boolText)]
  | null => [("!", .nullNot), ("toString", .nullText)]
  | num => [
      ("+(_)", .add), ("-(_)", .subtract), ("*(_)", .multiply), ("/(_)", .divide),
      ("%(_)", .remainder), ("<(_)", .less), (">(_)", .greater), ("<=(_)", .lessEqual),
      (">=(_)", .greaterEqual), ("-", .negate), ("abs", .absolute), ("floor", .floor),
      ("ceil", .ceil), ("sqrt", .squareRoot), ("isInteger", .isInteger), ("toString", .numberText)]
  | string => [
      ("+(_)", .concat), ("count", .stringCount), ("contains(_)", .contains),
      ("toString", .stringText)]
  | list => [
      ("add(_)", .append), ("count", .listCount), ("[_]", .subscript), ("toString", .listText)]
  | system => []

/-- The methods of a core class itself, by signature. -/
def statics : CoreClass → List (String × Primitive)
  | system => [("print()", .printNewline), ("print(_)", .print), ("write(_)", .write)]
  | _ => []

private def methodTable (ps : List (String × Primitive)) : MethodTable :=
  ps.map fun (signature, p) => (signature, .primitive p)

def object (c : CoreClass) : ClassObject where
  name := c.name
  moduleName := "core"
  isForeign := false
  methods := methodTable c.methods
  statics := methodTable c.statics
  binding := .none

end CoreClass

/-- The core classes of one machine, side by side in the heap. -/
def Heap.addCore (h : Heap) : ClassId × Heap :=
  (h.classes.size, { h with classes := h.classes ++ CoreClass.all.map CoreClass.object })

/-- The number of a count. -/
def numberOfNat (n : Nat) : Value := .number (Binary.ofInt n).toFloat

/-- Whether a text occurs in another. -/
def occursIn (t : List Char) : List Char → Bool
  | [] => t.isEmpty
  | c :: rest => t.isPrefixOf (c :: rest) || occursIn t rest

/-- The element that a subscript means; a negative one counts from the end. -/
def subscript (items : Array Value) (index : Value) : Except RuntimeFault Value :=
  match index with
  | .number x =>
    let exact := Binary.ofFloat x
    if exact.isIntegral then
      let i := (IntegerRange.signed 64).narrow exact
      let place := if i < 0 then i + items.size else i
      if place < 0 then .error .subscriptOutOfBounds
      else match items[place.toNat]? with
        | some v => .ok v
        | none => .error .subscriptOutOfBounds
    else .error .subscriptNotInteger
  | _ => .error .subscriptNotNumber

namespace Primitive

variable {H : Type}

/-- The first argument. -/
def argument : List Value → Except RuntimeFault Value
  | v :: _ => .ok v
  | [] => .error .missingArgument

/-- The number that a method of numbers was called on. -/
def receiverNumber : Value → Float
  | .number x => x
  | _ => 0 / 0

/-- The second operand of an arithmetic method. -/
def numberArgument (args : List Value) : Except RuntimeFault Float := do
  match ← argument args with
  | .number x => .ok x
  | _ => .error .operandNotNumber

def binary (f : Float → Float → Value) (receiver : Value) (args : List Value) :
    Except RuntimeFault Value :=
  (numberArgument args).map fun x => f (receiverNumber receiver) x

/-- Two strings, the receiver and the argument; `complaint` if either is something else. -/
def strings (complaint : RuntimeFault) (receiver : Value) (args : List Value) :
    Except RuntimeFault (String × String) := do
  match receiver, ← argument args with
  | .string s, .string t => .ok (s, t)
  | _, _ => .error complaint

/-- A float operation through the exact value. -/
def onBinary (f : Binary → Binary) (x : Float) : Float := (f (Binary.ofFloat x)).toFloat

/-- A result that needs nothing to run. -/
def answer : Except RuntimeFault Value → Run H Value
  | .ok v => return v
  | .error f => fault f

def apply (engine : Engine H) (p : Primitive) (receiver : Value) (args : List Value) :
    Run H Value :=
  match p with
  | boolNot => return .bool (!receiver.isTrue)
  | boolText => return .string (if receiver.isTrue then "true" else "false")
  | nullNot => return .bool true
  | nullText => return .string "null"
  | add => answer (binary (fun x y => .number (x + y)) receiver args)
  | subtract => answer (binary (fun x y => .number (x - y)) receiver args)
  | multiply => answer (binary (fun x y => .number (x * y)) receiver args)
  | divide => answer (binary (fun x y => .number (x / y)) receiver args)
  | remainder =>
    answer (binary (fun x y => .number ((Binary.ofFloat x).remainder (Binary.ofFloat y)).toFloat)
      receiver args)
  | less => answer (binary (fun x y => .bool (x < y)) receiver args)
  | greater => answer (binary (fun x y => .bool (y < x)) receiver args)
  | lessEqual => answer (binary (fun x y => .bool (x ≤ y)) receiver args)
  | greaterEqual => answer (binary (fun x y => .bool (y ≤ x)) receiver args)
  | negate => return .number (-receiverNumber receiver)
  | absolute => return .number (receiverNumber receiver).abs
  | floor => return .number (onBinary Binary.floor (receiverNumber receiver))
  | ceil => return .number (onBinary Binary.ceil (receiverNumber receiver))
  | squareRoot => return .number (receiverNumber receiver).sqrt
  | isInteger => return .bool (Binary.ofFloat (receiverNumber receiver)).isIntegral
  | numberText => return .string (ScriptHost.numberText (receiverNumber receiver))
  | concat => answer ((strings .operandNotString receiver args).map fun (s, t) => .string (s ++ t))
  | stringCount =>
    match receiver with
    | .string s => return numberOfNat s.length
    | _ => return .number 0
  | contains =>
    answer ((strings .argumentNotString receiver args).map fun (s, t) =>
      .bool (occursIn t.toList s.toList))
  | stringText => return receiver
  | append => do
    let item ← answer (argument args)
    match receiver with
    | .list id => modify fun m => m.mapHeap (·.append id item)
    | _ => pure ()
    return item
  | listCount =>
    match receiver with
    | .list id => return numberOfNat ((← get).heap.list id).size
    | _ => return .number 0
  | subscript =>
    match receiver with
    | .list id => do
      let index ← answer (argument args)
      answer (ScriptHost.subscript ((← get).heap.list id) index)
    | _ => return .null
  | listText =>
    match receiver with
    | .list id => do
      let texts ← engine.textsOf ((← get).heap.list id).toList
      return .string ("[" ++ String.intercalate ", " texts ++ "]")
    | _ => return .string "[]"
  | printNewline => do
    engine.write "\n"
    return .null
  | print => do
    let v ← answer (argument args)
    engine.write ((← engine.textOf v) ++ "\n")
    return v
  | write => do
    let v ← answer (argument args)
    engine.write (← engine.textOf v)
    return v

end Primitive
end ScriptHost
