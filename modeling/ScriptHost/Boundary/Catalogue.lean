import ScriptHost.Boundary.Routine
import ScriptHost.Number.Written
import ScriptHost.Text.Quoted
/-! Ready-made routines by name. A typed routine gets each argument narrowed to the type of its
parameter. -/

namespace ScriptHost

-- Sums start from the core library's zero, whatever else is in scope.
attribute [local instance (high)] Zero.ofOfNat0

/-- The arguments of a typed routine, from a position on. -/
def typedArguments : Nat → List Kind → List HostValue → Except BoundaryFault (List Argument)
  | _, [], _ => .ok []
  | i, kind :: kinds, values =>
    match values.head?.bind kind.argument? with
    | some a => (typedArguments (i + 1) kinds (values.drop 1)).map (a :: ·)
    | none => .error (.failed ("argument " ++ i.repr ++ " does not fit " ++ kind.text))

/-- A routine that is told its arguments as values of their types. -/
def Routine.typed (params : List Kind) (returns : Option Kind)
    (call : List Argument → Heap → Effect) : Routine where
  params := params
  returns := returns
  call values heap :=
    match typedArguments 0 params values with
    | .ok args => call args heap
    | .error f => .only (.fault f)

namespace Catalogue

def number (x : Float) : Effect := .result (.number x)

def integer (n : Int) : Effect := number (Binary.ofInt n).toFloat

def text (s : String) : Effect := .result (.text s)

/-- A routine of plain values whose effect is its result. -/
def plain (params : List Kind) (returns : Kind) (call : List Argument → Effect) : Routine :=
  .typed params (some returns) fun args _ => call args

/-- The argument back. -/
def echo (kind : Kind) : Routine :=
  plain [kind] kind fun
    | [a] => .result a.toHostValue
    | _ => .nothing

def i64 : Kind := .number .i64

def f64 : Kind := .number .f64

def wrap64 (n : Int) : Int := (IntegerRange.signed 64).wrap n

def floatOf : Argument → Float
  | .number x => x
  | .integer n => (Binary.ofInt n).toFloat
  | _ => 0

def integerOf : Argument → Int
  | .integer n => n
  | _ => 0

def textOf : Argument → String
  | .text s => s
  | _ => ""

/-- The sum of some floats, from the left. -/
def sum : List Float → Float
  | [] => 0
  | x :: rest => rest.foldl (· + ·) x

/-- A routine on the payload of its first argument, the object itself among what it is told. -/
def onPayload (params : List Kind) (returns : Option Kind)
    (call : ForeignRef → Payload → List Argument → Effect) : Routine :=
  .typed params returns fun args heap =>
    match args with
    | .foreign ref :: rest =>
      match heap.foreign? ref.object with
      | some o => call ref o.payload rest
      | none => .nothing
    | .null :: _ => .result .null
    | _ => .nothing

/-- The number that a payload is. -/
def payloadEffect : Payload → Effect
  | .i64 n => integer n
  | .u64 n => integer n
  | .tracked id => integer id
  | _ => .nothing

/-- A routine that reads a number out of a foreign object. -/
def getter (type : HostType) (returns : NumberType) : Routine :=
  onPayload [.foreign type] (some (.number returns)) fun _ payload _ => payloadEffect payload

/-- The kinds that there is an `echo` of, with its name. -/
def echoKinds : List (String × Kind) :=
  ([.f32, .f64, .i8, .i16, .i32, .i64, .isize, .u8, .u16, .u32, .u64, .usize] :
      List NumberType).map (fun t => (t.name, .number t)) ++
    [("bool", .bool), ("string", .string), ("any", .any), ("opt_string", .optional .string),
      ("opt_f64", .optional f64), ("opt_opt_bool", .optional (.optional .bool))]

def echoes : Table Routine := echoKinds.map fun (name, kind) => ("echo_" ++ name, echo kind)

def arithmetic : Table Routine := [
  ("add_i64", plain [i64, i64] i64 fun args => integer (wrap64 ((args.map integerOf).sum))),
  ("add_f64", plain [f64, f64] f64 fun args => number (sum (args.map floatOf))),
  ("sum3", plain [.number .i32, f64, .number .u8] f64 fun args => number (sum (args.map floatOf))),
  ("sum5", plain (List.replicate 5 (.number .i32)) i64 fun args =>
    integer ((args.map integerOf).sum)),
  ("sum6", plain (List.replicate 6 (.number .u8)) (.number .u64) fun args =>
    integer ((args.map integerOf).sum)),
  ("sum7", plain (List.replicate 7 f64) f64 fun args => number (sum (args.map floatOf))),
  ("root", plain [f64] f64 fun args =>
    let x := floatOf (args.headD .null)
    if x < 0 then .only (.fault (.failed "no root of a negative")) else number x.sqrt),
  ("max_u64", plain [] (.number .u64) fun _ => integer (IntegerRange.unsigned 64).greatest),
  ("min_i64", plain [] i64 fun _ => integer (IntegerRange.signed 64).least)]

def texts : Table Routine := [
  ("join4", plain [.string, .bool, f64, .optional .string] .string fun
    | [.text a, .bool b, c, d] =>
      let last := match d with
        | .text s => s
        | _ => "none"
      text (String.intercalate "/" [a, if b then "true" else "false", numberText (floatOf c), last])
    | _ => .nothing),
  ("cat8", plain (List.replicate 8 .string) .string fun args =>
    text (String.intercalate "|" (args.map textOf))),
  ("greet", plain [.optional .string] .string fun
    | [.text name] => text ("Hello, " ++ name ++ "!")
    | _ => text "Hello, nobody!"),
  ("text", plain [] .string fun _ => text "text")]

def endings : Table Routine := [
  ("unit", .typed [] none fun _ _ => .nothing),
  ("unit_ok", .typed [] none fun _ _ => .nothing),
  ("unit_err", .typed [] none fun _ _ => .only (.fault (.failed "unit failed"))),
  ("none", plain [] (.optional f64) fun _ => .result .null),
  ("panic_str", plain [] .bool fun _ => .only (.panic "oops")),
  ("panic_string", plain [f64] .bool fun args =>
    .only (.panic ("bad " ++ numberText (floatOf (args.headD .null))))),
  ("panic_other", plain [] .bool fun _ => .only (.panic "host function panicked"))]

def objects : Table Routine := [
  ("i64_get", getter .i64 .i64),
  ("u64_get", getter .u64 .u64),
  ("tracked_id", getter .tracked .u64),
  ("i64_opt", onPayload [.optional (.foreign .i64)] (some (.optional i64)) fun _ payload _ =>
    payloadEffect payload),
  ("i64_add", onPayload [.foreign .i64, i64] (some i64) fun ref payload args =>
    match payload, args with
    | .i64 n, [.integer k] =>
      let sum := wrap64 (n + k)
      { integer sum with writes := [(ref.object, .i64 sum)] }
    | _, _ => .nothing),
  ("i64_same", onPayload [.foreign .i64, .foreign .i64] (some .bool) fun ref _ args =>
    match args with
    | [.foreign other] => .result (.bool (ref.object == other.object))
    | _ => .nothing),
  ("string_greet", onPayload [.foreign .string, .string] (some .string) fun _ payload args =>
    match payload, args with
    | .string s, [.text t] => text (s ++ ", " ++ t ++ "!")
    | _, _ => .nothing),
  ("string_class", onPayload [.foreign .string] (some .string) fun ref _ _ =>
    text (ref.className ++ " true false ForeignRef(" ++ Text.quoted ref.className ++ ")")),
  ("string_push", onPayload [.foreign .string, .string] none fun ref payload args =>
    match payload, args with
    | .string s, [.text t] => { Effect.nothing with writes := [(ref.object, .string (s ++ t))] }
    | _, _ => .nothing),
  ("string_keep", onPayload [.foreign .string] none fun ref _ _ =>
    { Effect.nothing with keeps := some ref.object })]

end Catalogue

/-- The ready-made routines by name. -/
def catalogue : Table Routine :=
  Catalogue.echoes ++ Catalogue.arithmetic ++ Catalogue.texts ++ Catalogue.endings ++
    Catalogue.objects

end ScriptHost
