import ScriptHost.Number.Binary
/-! The shortest decimal that reads back as a given double: the fewest digits, and of those the
nearest to the value. -/

namespace ScriptHost

-- Powers are those of the core library, whatever else is in scope.
attribute [local instance (high)] instPowNat

/-- The decimal `digits * 10 ^ exponent`. -/
structure Decimal where
  digits : Nat
  exponent : Int
deriving Repr, DecidableEq

namespace Decimal

/-- The fraction `num / den / 10 ^ power` as a numerator and a denominator. -/
def scaled (num den : Nat) (power : Int) : Nat × Nat :=
  if 0 ≤ power then (num, den * 10 ^ power.toNat) else (num * 10 ^ (-power).toNat, den)

/-- How many digits stand before the point of `num / den`; negative if zeros follow the point. The
guess is one less than the answer or two less. -/
def magnitude (num den : Nat) : Int :=
  let guess := (Binary.floorLog2 num den * 30103).fdiv 100000
  let (n, d) := scaled num den (guess + 1)
  if d ≤ n then guess + 2 else guess + 1

/-- The fractions that round to a double: from `low` to `high`, all over `den`, with the ends if
`closed`. -/
structure Interval where
  value : Nat
  low : Nat
  high : Nat
  den : Nat
  closed : Bool

/-- The fractions that round to `significand * 2 ^ exponent`. Below a power of two the next double
is half as far away. -/
def interval (significand : Nat) (exponent : Int) : Interval :=
  let unit := exponent - 2
  let gap := if significand = 2 ^ (52 : Nat) ∧ BinaryFormat.double.least < exponent then 1 else 2
  let times := 2 ^ unit.toNat
  { value := 4 * significand * times
    low := (4 * significand - gap) * times
    high := (4 * significand + 2) * times
    den := 2 ^ (-unit).toNat
    closed := significand % 2 == 0 }

/-- Whether `num / den` rounds to the double of the interval. -/
def Interval.contains (i : Interval) (num den : Nat) : Bool :=
  let left := i.low * den
  let here := num * i.den
  let right := i.high * den
  if i.closed then left ≤ here && here ≤ right else left < here && here < right

/-- The multiple of `10 ^ power` next to the value that rounds to its double; the nearer one if both
neighbours do, and the greater one of two that are as near. -/
def Interval.onGrid (i : Interval) (power : Int) : Option Decimal :=
  let (n, d) := scaled i.value i.den power
  let below := n / d
  let fits (digits : Nat) : Bool :=
    if 0 ≤ power then i.contains (digits * 10 ^ power.toNat) 1
    else i.contains digits (10 ^ (-power).toNat)
  let upward := decide (d ≤ 2 * (n % d))
  match fits below, fits (below + 1) with
  | true, true => some ⟨if upward then below + 1 else below, power⟩
  | true, false => some ⟨below, power⟩
  | false, true => some ⟨below + 1, power⟩
  | false, false => none

/-- The shortest decimal of `significand * 2 ^ exponent`, not zero. Seventeen digits always do. -/
def shortest (significand : Nat) (exponent : Int) : Decimal :=
  let i := interval significand exponent
  let point := magnitude i.value i.den
  ((List.range 17).findSome? fun (k : Nat) => i.onGrid (point - (k + 1))).getD
    ⟨(scaled i.value i.den (point - 17)).1 / (scaled i.value i.den (point - 17)).2, point - 17⟩

end Decimal
end ScriptHost
