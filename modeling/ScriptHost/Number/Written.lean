import ScriptHost.Number.Shortest
/-! The text of a number: the shortest decimal that reads back, always positional. -/

namespace ScriptHost

/-- The digits of a natural number in base ten. -/
def decimalDigits (n : Nat) : List Char := Nat.toDigits 10 n

namespace Decimal

/-- The positional text: zeros fill the places between the digits and the point, and a whole number
has no point. -/
def positional (x : Decimal) : List Char :=
  let digits := decimalDigits x.digits
  if 0 ≤ x.exponent then digits ++ List.replicate x.exponent.toNat '0'
  else
    let places := (-x.exponent).toNat
    if places < digits.length then
      digits.take (digits.length - places) ++ '.' :: digits.drop (digits.length - places)
    else '0' :: '.' :: List.replicate (places - digits.length) '0' ++ digits

/-- The same decimal without a zero at the end: ten of the last place are one of the next. -/
def carried (x : Decimal) : Decimal :=
  if x.digits % 10 = 0 then ⟨x.digits / 10, x.exponent + 1⟩ else x

end Decimal

/-- The text of a number. A zero keeps its sign. -/
def numberText (x : Float) : String :=
  match Binary.ofFloat x with
  | .nan => "nan"
  | .infinite negative => if negative then "-infinity" else "infinity"
  | .finite negative significand exponent =>
    let magnitude :=
      if significand = 0 then ['0'] else (Decimal.shortest significand exponent).carried.positional
    String.ofList (if negative then '-' :: magnitude else magnitude)

end ScriptHost
