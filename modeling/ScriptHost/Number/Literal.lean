import ScriptHost.Number.Binary
/-! Reading the digits of a number. -/

namespace ScriptHost

-- Powers are those of the core library, whatever else is in scope.
attribute [local instance (high)] instPowNat

/-- The value of a byte as a digit, in any base up to sixteen. -/
def digitValue (b : UInt8) : Nat :=
  if 48 ≤ b ∧ b ≤ 57 then b.toNat - 48
  else if 97 ≤ b ∧ b ≤ 102 then b.toNat - 87
  else if 65 ≤ b ∧ b ≤ 70 then b.toNat - 55
  else 0

/-- The value of some digits in a base. -/
def digitsValue (base : Nat) (digits : List UInt8) : Nat :=
  digits.foldl (fun n b => n * base + digitValue b) 0

/-- A decimal literal: the digits before and after the point, and the power of ten. -/
structure DecimalLiteral where
  whole : List UInt8
  fraction : List UInt8
  exponentNegative : Bool
  exponent : List UInt8

namespace DecimalLiteral

/-- The power of ten that the digits, read as one integer, are multiplied by. -/
def power (x : DecimalLiteral) : Int :=
  let e : Int := digitsValue 10 x.exponent
  (if x.exponentNegative then -e else e) - x.fraction.length

/-- The double nearest to the literal. A power that puts every digit beyond the greatest double, or
below half the least one, is settled by the count of digits alone. -/
def value (x : DecimalLiteral) : Binary :=
  let digits := x.whole ++ x.fraction
  let n := digitsValue 10 digits
  if n = 0 then .finite false 0 BinaryFormat.double.least
  else if x.power > 400 then .infinite false
  else if x.power < -(400 + digits.length : Nat) then .finite false 0 BinaryFormat.double.least
  else if 0 ≤ x.power then .round .double false (n * 10 ^ x.power.toNat) 1
  else .round .double false n (10 ^ (-x.power).toNat)

end DecimalLiteral
end ScriptHost
