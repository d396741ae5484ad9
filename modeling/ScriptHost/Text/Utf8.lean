/-! Text as bytes: UTF-8 read from a list of bytes, and the reading that puts a replacement
character in place of each malformed sequence. -/

namespace ScriptHost.Utf8

/-- The bytes of a text. -/
def encode (s : String) : List UInt8 := s.toUTF8.data.toList

/-- The text of some bytes, if they are well formed. -/
def decode? (bytes : List UInt8) : Option String := String.fromUTF8? bytes.toByteArray

/-- The text of the bytes of one token; the bytes of a token are always well formed. -/
def textOf (bytes : List UInt8) : String := (decode? bytes).getD ""

/-- How many bytes may follow a lead byte, the range of the first of them, and the lead's own bits.
-/
def leadByte? (b : Nat) : Option (Nat × Nat × Nat × Nat) :=
  if 0xc2 ≤ b ∧ b ≤ 0xdf then some (1, 0x80, 0xbf, b - 0xc0)
  else if b = 0xe0 then some (2, 0xa0, 0xbf, 0)
  else if b = 0xed then some (2, 0x80, 0x9f, 0xd)
  else if 0xe1 ≤ b ∧ b ≤ 0xef then some (2, 0x80, 0xbf, b - 0xe0)
  else if b = 0xf0 then some (3, 0x90, 0xbf, 0)
  else if 0xf1 ≤ b ∧ b ≤ 0xf3 then some (3, 0x80, 0xbf, b - 0xf0)
  else if b = 0xf4 then some (3, 0x80, 0x8f, 4)
  else none

/-- A character under way: continuation bytes still due, the range of the next one, and the bits so
far. -/
structure Pending where
  due : Nat
  low : Nat
  high : Nat
  bits : Nat

def replacement : Char := Char.ofNat 0xfffd

mutual

/-- The characters of some bytes, a malformed sequence read as one replacement character. -/
def characters : List UInt8 → List Char
  | [] => []
  | b :: rest =>
    if b.toNat < 0x80 then Char.ofNat b.toNat :: characters rest
    else match leadByte? b.toNat with
      | some (due, low, high, bits) => continuation ⟨due, low, high, bits⟩ rest
      | none => replacement :: characters rest

/-- The characters of the bytes that follow a part of one character. -/
def continuation (p : Pending) : List UInt8 → List Char
  | [] => [replacement]
  | b :: rest =>
    if p.low ≤ b.toNat ∧ b.toNat ≤ p.high then
      let bits := p.bits * 64 + (b.toNat - 0x80)
      if p.due ≤ 1 then Char.ofNat bits :: characters rest
      else continuation ⟨p.due - 1, 0x80, 0xbf, bits⟩ rest
    else if b.toNat < 0x80 then replacement :: Char.ofNat b.toNat :: characters rest
    else match leadByte? b.toNat with
      | some (due, low, high, bits) => replacement :: continuation ⟨due, low, high, bits⟩ rest
      | none => replacement :: replacement :: characters rest

end

/-- The text of some bytes, whether they are well formed or not. -/
def lossy (bytes : List UInt8) : String :=
  (decode? bytes).getD (String.ofList (characters bytes))

end ScriptHost.Utf8
