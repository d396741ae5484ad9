/-! Binary floating point in exact arithmetic: a float is decoded to a sign, a significand and a
power of two, a fraction is rounded to the nearest value of a format, and the result is encoded
again. Remainders and rounding to integers are exact on the decoded form. -/

namespace ScriptHost

-- Powers are those of the core library, whatever else is in scope.
attribute [local instance (high)] instPowNat

/-- A binary format: the bits of a significand, and the least and the greatest power of two that a
significand is multiplied by. -/
structure BinaryFormat where
  precision : Nat
  least : Int
  greatest : Int
deriving Repr, DecidableEq

/-- The format of `Float`. -/
def BinaryFormat.double : BinaryFormat := ⟨53, -1074, 971⟩

/-- The format of `Float32`. -/
def BinaryFormat.single : BinaryFormat := ⟨24, -149, 104⟩

/-- A decoded float. A finite one is `± significand * 2 ^ exponent`. -/
inductive Binary where
  | nan
  | infinite (negative : Bool)
  | finite (negative : Bool) (significand : Nat) (exponent : Int)
deriving Repr, DecidableEq

namespace Binary

/-- The value of the 64 bits of a double: sign, eleven bits of exponent, 52 bits of fraction. -/
def ofBits (bits : UInt64) : Binary :=
  let negative := decide (2 ^ (63 : Nat) ≤ bits.toNat)
  let biased : Nat := bits.toNat / 2 ^ (52 : Nat) % 2 ^ (11 : Nat)
  let fraction : Nat := bits.toNat % 2 ^ (52 : Nat)
  if biased = 2047 then
    if fraction = 0 then .infinite negative else .nan
  else if biased = 0 then .finite negative fraction (-1074)
  else .finite negative (2 ^ (52 : Nat) + fraction) ((biased : Int) - 1075)

def ofFloat (x : Float) : Binary := ofBits x.toBits

/-- The bits of a double. A finite value is one that the format holds: its significand has at most
53 bits, and 53 bits unless its exponent is the least one. -/
def toBits : Binary → UInt64
  | .nan => 0x7ff8000000000000
  | .infinite negative => if negative then 0xfff0000000000000 else 0x7ff0000000000000
  | .finite negative significand exponent =>
    let magnitude := (exponent + 1074).toNat * 2 ^ (52 : Nat) + significand
    UInt64.ofNat (if negative then 2 ^ (63 : Nat) + magnitude else magnitude)

def toFloat (x : Binary) : Float := Float.ofBits x.toBits

/-- The integer nearest to `num / den`, a tie going to the even one. -/
def nearestEven (num den : Nat) : Nat :=
  let quotient := num / den
  let twice := 2 * (num % den)
  if twice < den then quotient
  else if den < twice then quotient + 1
  else if quotient % 2 = 0 then quotient else quotient + 1

/-- The fraction `num / den / 2 ^ power` as a numerator and a denominator. -/
def scaled (num den : Nat) (power : Int) : Nat × Nat :=
  if 0 ≤ power then (num, den * 2 ^ power.toNat) else (num * 2 ^ (-power).toNat, den)

/-- The greatest power of two that is at most `num / den`, both positive. -/
def floorLog2 (num den : Nat) : Int :=
  let guess : Int := num.log2 - den.log2
  let (n, d) := scaled num den guess
  if d ≤ n then guess else guess - 1

/-- The value of the format nearest to `± num / den`, a tie going to the even significand; a
magnitude that rounds past the greatest one is infinite. -/
def round (format : BinaryFormat) (negative : Bool) (num den : Nat) : Binary :=
  if num = 0 then .finite negative 0 format.least
  else
    let exponent := max format.least (floorLog2 num den - (format.precision - 1))
    let (n, d) := scaled num den exponent
    let significand := nearestEven n d
    if significand = 2 ^ format.precision then
      if exponent + 1 ≤ format.greatest then .finite negative (significand / 2) (exponent + 1)
      else .infinite negative
    else if exponent ≤ format.greatest then .finite negative significand exponent
    else .infinite negative

/-- The double nearest to an integer. -/
def ofInt (n : Int) : Binary := round .double (decide (n < 0)) n.natAbs 1

/-- A value in the format that is the nearest to it. -/
def convert (format : BinaryFormat) : Binary → Binary
  | .finite negative significand exponent =>
    if 0 ≤ exponent then round format negative (significand * 2 ^ exponent.toNat) 1
    else round format negative significand (2 ^ (-exponent).toNat)
  | other => other

/-- The value without its fraction, toward zero; `none` if it is not finite. -/
def truncate? : Binary → Option Int
  | .finite negative significand exponent =>
    let magnitude :=
      if 0 ≤ exponent then significand * 2 ^ exponent.toNat
      else significand / 2 ^ (-exponent).toNat
    some (if negative then -magnitude else magnitude)
  | _ => none

/-- Whether the value is finite and has no fraction. -/
def isIntegral : Binary → Bool
  | .finite _ significand exponent =>
    decide (0 ≤ exponent) || significand % 2 ^ (-exponent).toNat == 0
  | _ => false

/-- The sign of a value, also of a zero. -/
def negative : Binary → Bool
  | .nan => false
  | .infinite negative => negative
  | .finite negative _ _ => negative

/-- The magnitude rounded to an integer, away from zero if `outward`, with the sign kept. -/
def toIntegral (outward : Bool) (x : Binary) : Binary :=
  match x with
  | .finite negative significand exponent =>
    if 0 ≤ exponent then x
    else
      let unit := 2 ^ (-exponent).toNat
      let whole := significand / unit
      let magnitude := if outward && significand % unit != 0 then whole + 1 else whole
      round .double negative magnitude 1
  | other => other

/-- The greatest integer that is at most the value. -/
def floor (x : Binary) : Binary := x.toIntegral x.negative

/-- The least integer that is at least the value. -/
def ceil (x : Binary) : Binary := x.toIntegral (!x.negative)

/-- The remainder of a division whose quotient is truncated: it has the sign of the dividend, and
no rounding takes place. -/
def remainder : Binary → Binary → Binary
  | .finite negative a p, .finite _ b q =>
    if b = 0 then .nan
    else
      let low := min p q
      let rest := a * 2 ^ (p - low).toNat % (b * 2 ^ (q - low).toNat)
      if 0 ≤ low then round .double negative (rest * 2 ^ low.toNat) 1
      else round .double negative rest (2 ^ (-low).toNat)
  | .finite negative a p, .infinite _ => .finite negative a p
  | _, _ => .nan

end Binary
end ScriptHost
