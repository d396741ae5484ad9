import ScriptHost.Proofs.Arguments

/-! Primitives at home. A primitive is at home with a receiver of the core class that has it, and
with an argument for each hole of its signature. There it needs none of the answers that it has for
other receivers, and no complaint about an argument that is missing: it can be written without them.
A guarded interpreter has the primitives in that form, lets none of them run away from home, and has
nothing to say of a constructor that is called on what is no class. -/

namespace ScriptHost

variable {H : Type}

/-! ### Where primitives belong -/

/-- The core class of a plain value. Classes, and the objects of declared classes, are of none. -/
def Value.core? : Value → Option CoreClass
  | .null => some .null
  | .bool _ => some .bool
  | .number _ => some .num
  | .string _ => some .string
  | .list _ => some .list
  | .classObject _ | .object _ | .foreign _ => none

theorem CoreClass.mem_all (c : CoreClass) : c ∈ CoreClass.all := by
  cases c <;> decide

namespace Primitive

/-- The core class that has a primitive. -/
def home : Primitive → CoreClass
  | boolNot | boolText => .bool
  | nullNot | nullText => .null
  | add | subtract | multiply | divide | remainder | less | greater | lessEqual | greaterEqual
  | negate | absolute | floor | ceil | squareRoot | isInteger | numberText => .num
  | concat | stringCount | contains | stringText => .string
  | append | listCount | subscript | listText => .list
  | printNewline | print | write => .system

/-- How many arguments a primitive reads. -/
def operands : Primitive → Nat
  | add | subtract | multiply | divide | remainder | less | greater | lessEqual | greaterEqual
  | concat | contains | append | subscript | print | write => 1
  | _ => 0

/-- A primitive is at home: the receiver is a value of a core class whose objects have it under the
signature, or a core class that has it itself, and there is an argument for each hole. -/
def AtHome (vm : Vm) (p : Primitive) (receiver : Value) (signature : String) (args : List Value) :
    Prop :=
  args.length = signatureArity signature ∧ ∃ c ∈ CoreClass.all,
    receiver.core? = some c ∧ (signature, p) ∈ c.methods ∨
      receiver.same (.classObject (vm.coreClass c)) ∧ (signature, p) ∈ c.statics

instance (vm : Vm) (p : Primitive) (receiver : Value) (signature : String) (args : List Value) :
    Decidable (p.AtHome vm receiver signature args) :=
  inferInstanceAs (Decidable (_ ∧ ∃ _ ∈ _, _))

/-- A primitive is entered in one class, under signatures that ask for what it reads. -/
theorem entered_methods {c : CoreClass} {signature : String} {p : Primitive}
    (entered : (signature, p) ∈ c.methods) :
    p.home = c ∧ c ≠ .system ∧ signatureArity signature = p.operands := by
  have all : ∀ c ∈ CoreClass.all, ∀ entry ∈ c.methods, entry.2.home = c ∧ c ≠ .system ∧
      signatureArity entry.1 = entry.2.operands := by
    decide +kernel
  exact all c c.mem_all (signature, p) entered

theorem entered_statics {c : CoreClass} {signature : String} {p : Primitive}
    (entered : (signature, p) ∈ c.statics) :
    p.home = .system ∧ c = .system ∧ signatureArity signature = p.operands := by
  have all : ∀ c ∈ CoreClass.all, ∀ entry ∈ c.statics, entry.2.home = .system ∧ c = .system ∧
      signatureArity entry.1 = entry.2.operands := by
    decide +kernel
  exact all c c.mem_all (signature, p) entered

end Primitive

/-! ### The guarded interpreter -/

namespace Guarded

/-- An arithmetic method on its operand, which may still be something else than a number. -/
def arithmetic (f : Float → Value) : Value → Run H Value
  | .number y => return f y
  | _ => fault .operandNotNumber

/-- A method of strings on its operand; `complaint` if that is something else. -/
def textual (complaint : RuntimeFault) (f : String → Value) : Value → Run H Value
  | .string t => return f t
  | _ => fault complaint

variable (alarm : Halt)

/-- The primitives, each for receivers of its own class and for the arguments that it reads. For
whatever else there is no answer but the alarm. -/
def apply (engine : Engine H) (p : Primitive) (receiver : Value) (args : List Value) :
    Run H Value :=
  match p, receiver, args with
  | .boolNot, .bool b, [] => return .bool (!b)
  | .boolText, .bool b, [] => return .string (if b then "true" else "false")
  | .nullNot, .null, [] => return .bool true
  | .nullText, .null, [] => return .string "null"
  | .add, .number x, [v] => arithmetic (fun y => .number (x + y)) v
  | .subtract, .number x, [v] => arithmetic (fun y => .number (x - y)) v
  | .multiply, .number x, [v] => arithmetic (fun y => .number (x * y)) v
  | .divide, .number x, [v] => arithmetic (fun y => .number (x / y)) v
  | .remainder, .number x, [v] =>
    arithmetic (fun y => .number ((Binary.ofFloat x).remainder (Binary.ofFloat y)).toFloat) v
  | .less, .number x, [v] => arithmetic (fun y => .bool (x < y)) v
  | .greater, .number x, [v] => arithmetic (fun y => .bool (y < x)) v
  | .lessEqual, .number x, [v] => arithmetic (fun y => .bool (x ≤ y)) v
  | .greaterEqual, .number x, [v] => arithmetic (fun y => .bool (y ≤ x)) v
  | .negate, .number x, [] => return .number (-x)
  | .absolute, .number x, [] => return .number x.abs
  | .floor, .number x, [] => return .number (Primitive.onBinary Binary.floor x)
  | .ceil, .number x, [] => return .number (Primitive.onBinary Binary.ceil x)
  | .squareRoot, .number x, [] => return .number x.sqrt
  | .isInteger, .number x, [] => return .bool (Binary.ofFloat x).isIntegral
  | .numberText, .number x, [] => return .string (numberText x)
  | .concat, .string s, [v] => textual .operandNotString (fun t => .string (s ++ t)) v
  | .stringCount, .string s, [] => return numberOfNat s.length
  | .contains, .string s, [v] =>
    textual .argumentNotString (fun t => .bool (occursIn t.toList s.toList)) v
  | .stringText, .string s, [] => return .string s
  | .append, .list id, [item] => do
    modify fun m => m.mapHeap (·.append id item)
    return item
  | .listCount, .list id, [] => return numberOfNat ((← get).heap.list id).size
  | .subscript, .list id, [index] => do
    Primitive.answer (subscript ((← get).heap.list id) index)
  | .listText, .list id, [] => do
    let texts ← engine.textsOf ((← get).heap.list id).toList
    return .string ("[" ++ String.intercalate ", " texts ++ "]")
  | .printNewline, .classObject _, [] => do
    engine.write "\n"
    return .null
  | .print, .classObject _, [v] => do
    engine.write ((← engine.textOf v) ++ "\n")
    return v
  | .write, .classObject _, [v] => do
    engine.write (← engine.textOf v)
    return v
  | _, _, _ => throwThe Halt alarm

/-- A message sent to a method that may be run on the receiver. -/
def send (host : Host H) (engine : Engine H) (receiver : Value) (signature : String)
    (args : List Value) : Run H Value := do
  let m ← get
  match m.method? receiver signature with
  | none => Primitive.answer (answerAnyway m receiver signature args)
  | some (.primitive p) =>
    if p.AtHome m.vm receiver signature args then apply alarm engine p receiver args
    else throwThe Halt alarm
  | some (.foreign f) => callForeign host engine f receiver args
  | some (.script decl) => nested (callScript engine decl receiver args)
  | some (.constructor decl) =>
    match receiver with
    | .classObject id => nested (construct host engine id decl args)
    | _ => throwThe Halt alarm

def run (host : Host H) (engine : Engine H) : Action → Run H Value
  | .send receiver signature args => send alarm host engine receiver signature args
  | .load name => do
    loadModule engine name
    return .null

/-- Actions that contain others at most so deep. Each message has an argument for each hole. -/
def perform (host : Host H) : Nat → Action → Run H Value
  | 0, _ => throwThe Halt .exhausted
  | depth + 1, action =>
    run alarm host (Engine.strict alarm ⟨host.callbacks, depth, perform host depth⟩) action

/-- The guarded interpreter that works to a depth. -/
def engine (host : Host H) (depth : Nat) : Engine H :=
  Engine.strict alarm ⟨host.callbacks, depth, perform alarm host depth⟩

end Guarded

/-! ### Primitives at home -/

/-- The values of a core class. The objects of System would be something else: it has none. -/
theorem Value.of_core? {v : Value} {c : CoreClass} (core : v.core? = some c) :
    match c with
    | .bool => ∃ b, v = .bool b
    | .null => v = .null
    | .num => ∃ x, v = .number x
    | .string => ∃ s, v = .string s
    | .list => ∃ id, v = .list id
    | .system => False := by
  cases v <;> cases core
  · rfl
  all_goals exact ⟨_, rfl⟩

namespace Primitive.AtHome

variable {vm : Vm} {p : Primitive} {v : Value} {signature : String} {args : List Value}

theorem receiver (atHome : p.AtHome vm v signature args) :
    match p.home with
    | .bool => ∃ b, v = .bool b
    | .null => v = .null
    | .num => ∃ x, v = .number x
    | .string => ∃ s, v = .string s
    | .list => ∃ id, v = .list id
    | .system => ∃ id, v = .classObject id := by
  obtain ⟨-, c, -, ⟨core, entered⟩ | ⟨same, entered⟩⟩ := atHome
  · obtain ⟨home, other, -⟩ := entered_methods entered
    have form := Value.of_core? core
    rw [home]
    cases c with
    | system => exact absurd rfl other
    | _ => exact form
  · rw [(entered_statics entered).1]
    cases v with
    | classObject id => exact ⟨id, rfl⟩
    | _ => cases same

theorem args_length (atHome : p.AtHome vm v signature args) : args.length = p.operands := by
  obtain ⟨fits, c, -, ⟨-, entered⟩ | ⟨-, entered⟩⟩ := atHome
  · rw [fits, (entered_methods entered).2.2]
  · rw [fits, (entered_statics entered).2.2]

/-- At home a primitive needs neither an answer for other receivers nor a complaint about a missing
argument. -/
theorem apply_eq (alarm : Halt) (engine : Engine H) (atHome : p.AtHome vm v signature args) :
    Guarded.apply alarm engine p v args = p.apply engine v args := by
  have receiver := atHome.receiver
  have length := atHome.args_length
  cases p with
  | boolNot | boolText =>
    obtain ⟨b, rfl⟩ := receiver
    obtain rfl := List.length_eq_zero_iff.mp length
    rfl
  | nullNot | nullText =>
    obtain rfl := receiver
    obtain rfl := List.length_eq_zero_iff.mp length
    rfl
  | add | subtract | multiply | divide | remainder | less | greater | lessEqual | greaterEqual =>
    obtain ⟨x, rfl⟩ := receiver
    obtain ⟨w, rfl⟩ := List.length_eq_one_iff.mp length
    cases w <;> rfl
  | negate | absolute | floor | ceil | squareRoot | isInteger | numberText =>
    obtain ⟨x, rfl⟩ := receiver
    obtain rfl := List.length_eq_zero_iff.mp length
    rfl
  | concat | contains =>
    obtain ⟨s, rfl⟩ := receiver
    obtain ⟨w, rfl⟩ := List.length_eq_one_iff.mp length
    cases w <;> rfl
  | stringCount | stringText =>
    obtain ⟨s, rfl⟩ := receiver
    obtain rfl := List.length_eq_zero_iff.mp length
    rfl
  | append | subscript =>
    obtain ⟨id, rfl⟩ := receiver
    obtain ⟨w, rfl⟩ := List.length_eq_one_iff.mp length
    rfl
  | listCount | listText =>
    obtain ⟨id, rfl⟩ := receiver
    obtain rfl := List.length_eq_zero_iff.mp length
    rfl
  | printNewline =>
    obtain ⟨id, rfl⟩ := receiver
    obtain rfl := List.length_eq_zero_iff.mp length
    rfl
  | print | write =>
    obtain ⟨id, rfl⟩ := receiver
    obtain ⟨w, rfl⟩ := List.length_eq_one_iff.mp length
    rfl

end Primitive.AtHome
end ScriptHost
