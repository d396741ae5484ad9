import ScriptHost.Boundary.Catalogue
/-! Typed host functions. The host writes a function of some parameters and a result, each of a
type. From the types follow the kinds that describe the function, how each argument is made of the
value that was read, and how the result goes back. -/

namespace ScriptHost

/-! Numbers. -/

namespace IntegerRange

def Holds (range : IntegerRange) (n : Int) : Prop := range.least ≤ n ∧ n ≤ range.greatest

theorem clamp_holds {range : IntegerRange} (proper : range.least ≤ range.greatest) (n : Int) :
    range.Holds (range.clamp n) := by
  unfold Holds clamp
  omega

theorem narrow_holds {range : IntegerRange} (zero : range.Holds 0) (x : Binary) :
    range.Holds (range.narrow x) := by
  have proper : range.least ≤ range.greatest := Int.le_trans zero.1 zero.2
  cases x with
  | nan => exact zero
  | infinite negative =>
    cases negative with
    | true => exact ⟨Int.le_refl _, proper⟩
    | false => exact ⟨proper, Int.le_refl _⟩
  | finite => exact clamp_holds proper _

end IntegerRange

theorem NumberType.range?_holds_zero {type : NumberType} {range : IntegerRange}
    (bounded : type.range? = some range) : range.Holds 0 := by
  unfold IntegerRange.Holds
  cases type <;> cases bounded <;> decide

/-- A number of a number type: of an integer type one of its range. -/
inductive HostNumber (type : NumberType) where
  | integer (n : Int) {range : IntegerRange} (bounded : type.range? = some range)
    (within : range.Holds n)
  | float (x : Float) (unbounded : type.range? = none)

namespace HostNumber

/-- A double narrowed to a number type. -/
def ofFloat (type : NumberType) (x : Float) : HostNumber type :=
  match bounded : type.range? with
  | some range =>
    .integer (range.narrow (Binary.ofFloat x)) bounded
      (IntegerRange.narrow_holds (NumberType.range?_holds_zero bounded) _)
  | none =>
    .float (if type = .f32 then (((Binary.ofFloat x).convert .single).convert .double).toFloat
      else x) bounded

def toFloat {type : NumberType} : HostNumber type → Float
  | integer n _ _ => (Binary.ofInt n).toFloat
  | float x _ => x

end HostNumber

/-! Types. -/

/-- A type that a host function may take from a slot. -/
inductive ParameterType where
  | bool
  | number (type : NumberType)
  | string
  /-- Whatever plain value the slot holds, as it is. -/
  | value
  /-- A foreign object whose payload has the host type. -/
  | foreign (type : HostType)
  | optional (inner : ParameterType)
deriving Repr, DecidableEq

namespace ParameterType

/-- The values of a type. -/
def denote : ParameterType → Type
  | bool => Bool
  | number type => HostNumber type
  | string => String
  | value => HostValue
  | foreign type => { ref : ForeignRef // ref.hostType = some type }
  | optional inner => Option inner.denote

/-- The kind that describes a type. -/
def kind : ParameterType → Kind
  | bool => .bool
  | number type => .number type
  | string => .string
  | value => .any
  | foreign type => .foreign type
  | optional inner => .optional inner.kind

/-- A value that was read, as one of the type; `none` if its shape does not fit. -/
def fromHost : (t : ParameterType) → HostValue → Option t.denote
  | bool, .bool b => some b
  | number type, .number x => some (HostNumber.ofFloat type x)
  | string, .text s => some s
  | value, v => some v
  | foreign type, .foreign ref => if own : ref.hostType = some type then some ⟨ref, own⟩ else none
  | optional _, .null => some none
  | optional inner, v => (inner.fromHost v).map some
  | _, _ => none

/-- The value that one of the type goes back as. -/
def intoHost : (t : ParameterType) → t.denote → HostValue
  | bool, b => .bool b
  | number _, x => .number x.toFloat
  | string, s => .text s
  | value, v => v
  | foreign _, ref => .foreign ref.val
  | optional _, none => .null
  | optional inner, some x => inner.intoHost x

/-- Whether values of the type may go back: foreign objects never do. -/
def isPlain : ParameterType → Bool
  | foreign _ => false
  | optional inner => inner.isPlain
  | _ => true

end ParameterType

/-- What a host function may return. -/
inductive ReturnType where
  | nothing
  | one (type : ParameterType) (plain : type.isPlain)
  /-- What the inner type says, or a text that fails the call. -/
  | result (inner : ReturnType)

namespace ReturnType

def denote : ReturnType → Type
  | nothing => Unit
  | one type _ => type.denote
  | result inner => Except String inner.denote

/-- The kind of the value that is returned, if there is to be one. -/
def kind? : ReturnType → Option Kind
  | nothing => none
  | one type _ => some type.kind
  | result inner => inner.kind?

def outcome : (r : ReturnType) → r.denote → Outcome
  | nothing, _ => .value none
  | one type _, x => .value (some (type.intoHost x))
  | result inner, .ok x => inner.outcome x
  | result _, .error text => .fault (.failed text)

end ReturnType

/-! Calls. -/

/-- Arguments of some types. -/
inductive Arguments : List ParameterType → Type
  | nil : Arguments []
  | cons {t : ParameterType} {ts : List ParameterType} (first : t.denote) (rest : Arguments ts) :
    Arguments (t :: ts)

namespace Arguments

def get : {ts : List ParameterType} → Arguments ts → (i : Fin ts.length) → (ts.get i).denote
  | _, cons first _, ⟨0, _⟩ => first
  | _, cons _ rest, ⟨i + 1, below⟩ => rest.get ⟨i, Nat.lt_of_succ_lt_succ below⟩

/-- Values that were read, taken one after the other as the types ask, from a position on. -/
def take : Nat → (ts : List ParameterType) → List HostValue → Except BoundaryFault (Arguments ts)
  | _, [], _ => .ok .nil
  | i, t :: ts, values =>
    match values.head?.bind t.fromHost with
    | some first => (take (i + 1) ts (values.drop 1)).map (.cons first)
    | none => .error (.failed ("argument " ++ i.repr ++ " does not fit " ++ t.kind.text))

end Arguments

/-- What a typed function did: what it returned, or the message that it gave up with; the payloads
that it wrote, and the object that it keeps. -/
structure Ending (returns : ReturnType) where
  returned : Except String returns.denote
  writes : List (ForeignId × Payload)
  keeps : Option ForeignId

namespace Ending

variable {returns : ReturnType}

def outcome (e : Ending returns) : Outcome :=
  match e.returned with
  | .ok x => returns.outcome x
  | .error message => .panic message

def effect (e : Ending returns) : Effect := ⟨e.outcome, e.writes, e.keeps⟩

end Ending

/-- A typed host function. It sees its arguments, and the payloads of foreign objects. -/
structure Closure where
  params : List ParameterType
  returns : ReturnType
  call : Arguments params → Heap → Ending returns

/-- The routine that a typed function is registered as. -/
def Closure.routine (c : Closure) : Routine where
  params := c.params.map (·.kind)
  returns := c.returns.kind?
  call values heap :=
    match Arguments.take 0 c.params values with
    | .ok args => (c.call args heap).effect
    | .error f => .only (.fault f)

end ScriptHost
