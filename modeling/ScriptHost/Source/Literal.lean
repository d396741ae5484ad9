import ScriptHost.Number.Literal
import ScriptHost.Source.Token
import ScriptHost.Text.Utf8
/-! The literals of a script, read off the front of a list of bytes: which token they are, and how
many bytes it covers. -/

namespace ScriptHost

-- Powers are those of the core library, whatever else is in scope.
attribute [local instance (high)] instPowNat

/-! Bytes by class; all of them are ASCII. -/

def isDigit (b : UInt8) : Bool := 48 ≤ b && b ≤ 57

def isHexDigit (b : UInt8) : Bool := isDigit b || (97 ≤ b && b ≤ 102) || (65 ≤ b && b ≤ 70)

def isLetter (b : UInt8) : Bool := (97 ≤ b && b ≤ 122) || (65 ≤ b && b ≤ 90)

def underscore : UInt8 := 95

def isNameStart (b : UInt8) : Bool := isLetter b || b == underscore

def isNameByte (b : UInt8) : Bool := isLetter b || isDigit b || b == underscore

/-! Numbers. -/

/-- Whether a list starts with a byte of a class. -/
def startsWith (p : UInt8 → Bool) : List UInt8 → Bool
  | [] => false
  | b :: _ => p b

/-- The digits after a point; a point that no digit follows belongs to the next token. -/
def fractionDigits : List UInt8 → List UInt8
  | [] => []
  | b :: rest => if b = 46 then rest.takeWhile isDigit else []

/-- The power of ten of a literal: the letter, a sign if there is one, and digits. -/
structure Exponent where
  negative : Bool
  digits : List UInt8
  length : Nat

/-- No exponent: a letter that no digits follow belongs to the next token. -/
def Exponent.none : Exponent := ⟨false, [], 0⟩

def Exponent.ofSigned (negative : Bool) (marks : Nat) (rest : List UInt8) : Exponent :=
  let digits := rest.takeWhile isDigit
  if digits.isEmpty then .none else ⟨negative, digits, marks + digits.length⟩

def Exponent.read : List UInt8 → Exponent
  | [] => .none
  | [_] => .none
  | e :: sign :: rest =>
    if e = 101 ∨ e = 69 then
      if sign = 43 then .ofSigned false 2 rest
      else if sign = 45 then .ofSigned true 2 rest
      else .ofSigned false 1 (sign :: rest)
    else .none

/-- A decimal number at the front of the bytes, and its length. -/
def decimalNumber (bytes : List UInt8) : TokenKind × Nat :=
  let whole := bytes.takeWhile isDigit
  let fraction := fractionDigits (bytes.drop whole.length)
  let point := if fraction.isEmpty then 0 else 1
  let mantissa := whole.length + point + fraction.length
  let exponent := Exponent.read (bytes.drop mantissa)
  (.number (DecimalLiteral.mk whole fraction exponent.negative exponent.digits).value.toFloat,
    mantissa + exponent.length)

/-- A hexadecimal number whose digits are at the front of the bytes, and its length with the two
bytes before them. It has a digit and fits in 64 bits. -/
def hexNumber (bytes : List UInt8) : TokenKind × Nat :=
  let digits := bytes.takeWhile isHexDigit
  let n := digitsValue 16 digits
  let kind :=
    if digits.isEmpty ∨ 2 ^ (64 : Nat) ≤ n then .invalid .hexLiteral
    else .number (Binary.round .double false n 1).toFloat
  (kind, digits.length + 2)

/-- A number at the front of the bytes, and its length. -/
def number : List UInt8 → TokenKind × Nat
  | zero :: x :: rest =>
    if zero = 48 ∧ (x = 120 ∨ x = 88) then hexNumber rest else decimalNumber (zero :: x :: rest)
  | bytes => decimalNumber bytes

/-! Strings. -/

/-- A part of a string as it is read: the bytes of a literal with its escapes resolved, or the bytes
of an interpolated expression and how many bytes of the token stand before them. -/
inductive RawPart where
  | literal (bytes : List UInt8)
  | code (bytes : List UInt8) (before : Nat)

/-- The part of a string that is under way, its latest byte first: a literal, or the source of an
expression with `depth` parentheses of its own still open. -/
inductive StringMode where
  | literal (bytes : List UInt8)
  | code (before depth : Nat) (bytes : List UInt8)

/-- The byte that an escape stands for. -/
def escaped? (b : UInt8) : Option UInt8 :=
  if b = 34 ∨ b = 92 ∨ b = 37 then some b
  else if b = 48 then some 0
  else if b = 110 then some 10
  else if b = 114 then some 13
  else if b = 116 then some 9
  else none

/-- The finished parts with a literal added; an empty literal counts only in an empty string. -/
def closeLiteral (bytes : List UInt8) (parts : List RawPart) (last : Bool) : List RawPart :=
  if bytes.isEmpty && !(last && parts.isEmpty) then parts else .literal bytes.reverse :: parts

/-- The parts of a string, or the fault that ends it, and the bytes of the token. `count` bytes of
it are already read, and `parts` are finished, the latest first. -/
def stringParts (mode : StringMode) (count : Nat) (parts : List RawPart) :
    List UInt8 → Except LexicalFault (List RawPart) × Nat
  | [] =>
    match mode with
    | .literal _ => (.error .openString, count)
    | .code .. => (.error .openInterpolation, count)
  | [b] =>
    match mode with
    | .literal bytes =>
      if b = 34 then (.ok (closeLiteral bytes parts true).reverse, count + 1)
      else if b = 92 then (.error .escape, count + 1)
      else (.error .openString, count + 1)
    | .code before depth bytes =>
      if b = 41 ∧ depth = 0 then
        stringParts (.literal []) (count + 1) (.code bytes.reverse before :: parts) []
      else (.error .openInterpolation, count + 1)
  | b :: c :: rest =>
    match mode with
    | .literal bytes =>
      if b = 34 then (.ok (closeLiteral bytes parts true).reverse, count + 1)
      else if b = 92 then
        match escaped? c with
        | some byte => stringParts (.literal (byte :: bytes)) (count + 2) parts rest
        | none => (.error .escape, count + 2)
      else if b = 37 ∧ c = 40 then
        stringParts (.code (count + 2) 0 []) (count + 2) (closeLiteral bytes parts false) rest
      else stringParts (.literal (b :: bytes)) (count + 1) parts (c :: rest)
    | .code before depth bytes =>
      if b = 40 then
        stringParts (.code before (depth + 1) (b :: bytes)) (count + 1) parts (c :: rest)
      else if b = 41 then
        match depth with
        | 0 =>
          stringParts (.literal []) (count + 1) (.code bytes.reverse before :: parts) (c :: rest)
        | depth + 1 => stringParts (.code before depth (b :: bytes)) (count + 1) parts (c :: rest)
      else stringParts (.code before depth (b :: bytes)) (count + 1) parts (c :: rest)

/-- A part with its text, in a token that is at `start` and covers `lexeme`. -/
def RawPart.toPart (start : Position) (lexeme : List UInt8) : RawPart → StringPart
  | literal bytes => .literal (Utf8.lossy bytes)
  | code bytes before => .code (Utf8.textOf bytes) (start.after (lexeme.take before))

/-- A string whose opening quote is the first of the bytes, at `start`, and its length. -/
def string (start : Position) (bytes : List UInt8) : TokenKind × Nat :=
  match stringParts (.literal []) 1 [] bytes.tail with
  | (.ok parts, length) => (.string (parts.map (RawPart.toPart start bytes)), length)
  | (.error fault, length) => (.invalid fault, length)

end ScriptHost
