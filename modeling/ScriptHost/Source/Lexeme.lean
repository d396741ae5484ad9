import ScriptHost.Source.Literal
/-! A script cut into tokens. Between tokens stand gaps of blanks and comments; every other byte is
part of a token, and a byte that starts none is a token of its own. -/

namespace ScriptHost

/-- Where the skipping of a gap is. -/
inductive GapMode where
  | blanks
  | lineComment
  /-- In a block comment that starts after `before` bytes, with `depth` more comments to close. -/
  | blockComment (before depth : Nat)

/-- A gap in front of a token: its length, or where the block comment starts that nothing closes. -/
inductive Gap where
  | length (n : Nat)
  | openComment (before : Nat)
deriving Repr, DecidableEq

/-- The gap at the front of the bytes, of which `count` bytes are already read. -/
def gap (mode : GapMode) (count : Nat) : List UInt8 → Gap
  | [] =>
    match mode with
    | .blockComment before _ => .openComment before
    | _ => .length count
  | [b] =>
    match mode with
    | .blanks => .length (if b = 32 ∨ b = 9 ∨ b = 13 then count + 1 else count)
    | .lineComment => .length (if b = Position.newline then count else count + 1)
    | .blockComment before _ => .openComment before
  | b :: c :: rest =>
    match mode with
    | .blanks =>
      if b = 32 ∨ b = 9 ∨ b = 13 then gap .blanks (count + 1) (c :: rest)
      else if b = 47 ∧ c = 47 then gap .lineComment (count + 2) rest
      else if b = 47 ∧ c = 42 then gap (.blockComment count 0) (count + 2) rest
      else .length count
    | .lineComment =>
      if b = Position.newline then .length count else gap .lineComment (count + 1) (c :: rest)
    | .blockComment before depth =>
      if b = 47 ∧ c = 42 then gap (.blockComment before (depth + 1)) (count + 2) rest
      else if b = 42 ∧ c = 47 then
        match depth with
        | 0 => gap .blanks (count + 2) rest
        | depth + 1 => gap (.blockComment before depth) (count + 2) rest
      else gap (.blockComment before depth) (count + 1) (c :: rest)

/-- The symbol of one byte. -/
def symbol? (b : UInt8) : Option Symbol :=
  match b.toNat with
  | 40 => some .leftParen
  | 41 => some .rightParen
  | 91 => some .leftBracket
  | 93 => some .rightBracket
  | 123 => some .leftBrace
  | 125 => some .rightBrace
  | 44 => some .comma
  | 46 => some .dot
  | 43 => some (.binary .add)
  | 45 => some (.binary .subtract)
  | 42 => some (.binary .multiply)
  | 47 => some (.binary .divide)
  | 37 => some (.binary .remainder)
  | 33 => some .bang
  | 61 => some .assign
  | 60 => some (.binary .less)
  | 62 => some (.binary .greater)
  | _ => none

/-- The symbol of two bytes. -/
def symbolPair? (b c : UInt8) : Option Symbol :=
  match b.toNat, c.toNat with
  | 33, 61 => some (.binary .notEqual)
  | 61, 61 => some (.binary .equal)
  | 60, 61 => some (.binary .lessEqual)
  | 62, 61 => some (.binary .greaterEqual)
  | 38, 38 => some .and
  | 124, 124 => some .or
  | _, _ => none

/-- A symbol at the front of the bytes, two bytes before one, and its length. -/
def symbol : List UInt8 → TokenKind × Nat
  | [] => (.endOfInput, 0)
  | b :: rest =>
    match rest.head?.bind (symbolPair? b) with
    | some s => (.symbol s, 2)
    | none =>
      match symbol? b with
      | some s => (.symbol s, 1)
      | none => (.invalid (.byte b), 1)

/-- A word at the front of the bytes, and its length. -/
def word (bytes : List UInt8) : TokenKind × Nat :=
  let letters := bytes.takeWhile isNameByte
  let text := Utf8.textOf letters
  let kind :=
    if startsWith (· == underscore) bytes then .field text
    else match Keyword.ofText? text with
      | some k => .keyword k
      | none => .name text
  (kind, letters.length)

/-- The token at the front of the bytes, which start with `b` at `start`, and its length. -/
def lexeme (start : Position) (b : UInt8) (rest : List UInt8) : TokenKind × Nat :=
  if b = Position.newline then (.newline, 1)
  else if b = 34 then string start (b :: rest)
  else if isDigit b then number (b :: rest)
  else if isNameStart b then word (b :: rest)
  else symbol (b :: rest)

/-- The tokens of the bytes from `start` on. The last one is the end of input. -/
def tokensFrom (start : Position) (bytes : List UInt8) : List Token :=
  match gap .blanks 0 bytes with
  | .openComment before =>
    let comment := start.after (bytes.take before)
    let stop := start.after bytes
    [⟨.invalid .openComment, ⟨comment, stop⟩⟩, ⟨.endOfInput, .point stop⟩]
  | .length n =>
    let here := start.after (bytes.take n)
    match _h : bytes.drop n with
    | [] => [⟨.endOfInput, .point here⟩]
    | b :: rest =>
      let (kind, length) := lexeme here b rest
      let stop := here.after (b :: rest.take (length - 1))
      ⟨kind, ⟨here, stop⟩⟩ :: tokensFrom stop (rest.drop (length - 1))
termination_by bytes.length
decreasing_by
  have := congrArg List.length _h
  simp only [List.length_drop, List.length_cons] at this ⊢
  omega

/-- The tokens of a script. -/
def tokens (source : String) : List Token := tokensFrom .origin (Utf8.encode source)

end ScriptHost
