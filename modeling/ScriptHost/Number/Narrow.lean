import ScriptHost.Number.Binary
/-! Narrowing a double to an integer type: the fraction is cut off and the rest is clamped to the
range of the type, so nothing wraps. -/

namespace ScriptHost

-- Powers are those of the core library, whatever else is in scope.
attribute [local instance (high)] instPowNat

/-- The number types of the host. -/
inductive NumberType where
  | f32 | f64 | i8 | i16 | i32 | i64 | isize | u8 | u16 | u32 | u64 | usize
deriving Repr, DecidableEq

namespace NumberType

def name : NumberType → String
  | f32 => "f32"
  | f64 => "f64"
  | i8 => "i8"
  | i16 => "i16"
  | i32 => "i32"
  | i64 => "i64"
  | isize => "isize"
  | u8 => "u8"
  | u16 => "u16"
  | u32 => "u32"
  | u64 => "u64"
  | usize => "usize"

end NumberType

/-- The least and the greatest value of an integer type. -/
structure IntegerRange where
  least : Int
  greatest : Int
deriving Repr, DecidableEq

namespace IntegerRange

def signed (bits : Nat) : IntegerRange := ⟨-2 ^ (bits - 1), 2 ^ (bits - 1) - 1⟩

def unsigned (bits : Nat) : IntegerRange := ⟨0, 2 ^ bits - 1⟩

def clamp (range : IntegerRange) (n : Int) : Int := max range.least (min n range.greatest)

/-- A double cut to an integer of the range; not a number counts as zero. -/
def narrow (range : IntegerRange) (x : Binary) : Int :=
  match x with
  | .nan => 0
  | .infinite negative => if negative then range.least else range.greatest
  | .finite negative significand exponent =>
    range.clamp (((Binary.finite negative significand exponent).truncate?).getD 0)

/-- The integer of the range that is `n` modulo its size. -/
def wrap (range : IntegerRange) (n : Int) : Int :=
  range.least + (n - range.least) % (range.greatest - range.least + 1)

end IntegerRange

/-- The range of an integer type; a pointer is as wide as 64 bits. -/
def NumberType.range? : NumberType → Option IntegerRange
  | f32 | f64 => none
  | i8 => some (.signed 8)
  | i16 => some (.signed 16)
  | i32 => some (.signed 32)
  | i64 | isize => some (.signed 64)
  | u8 => some (.unsigned 8)
  | u16 => some (.unsigned 16)
  | u32 => some (.unsigned 32)
  | u64 | usize => some (.unsigned 64)

end ScriptHost
