/-! Places in source text, counted in bytes. A place inside a fragment is moved onto the enclosing
text by `Position.rebase`, which is the composition of the displacements of two texts. -/

namespace ScriptHost

/-- A place in a text: its offset in bytes, its line from one, and its column in bytes from one. -/
structure Position where
  offset : Nat
  line : Nat
  column : Nat
deriving Repr, DecidableEq, Inhabited

namespace Position

/-- The start of a text. -/
def origin : Position := ⟨0, 1, 1⟩

/-- The byte that ends a line. -/
def newline : UInt8 := 10

/-- The place after one byte. -/
def step (p : Position) (byte : UInt8) : Position :=
  if byte = newline then ⟨p.offset + 1, p.line + 1, 1⟩ else ⟨p.offset + 1, p.line, p.column + 1⟩

/-- The place after some bytes. -/
def after (p : Position) (bytes : List UInt8) : Position := bytes.foldl step p

/-- The place in the enclosing text of the place `inner` of a fragment that starts at `base`: on the
first line of the fragment the columns add up, on a later one only the lines do. -/
def rebase (base inner : Position) : Position :=
  if inner.line = 1 then
    ⟨base.offset + inner.offset, base.line, base.column + inner.column - 1⟩
  else ⟨base.offset + inner.offset, base.line + inner.line - 1, inner.column⟩

/-- Line and column, as messages show them. -/
def text (p : Position) : String := p.line.repr ++ ":" ++ p.column.repr

@[simp] theorem after_nil (p : Position) : p.after [] = p := rfl

@[simp] theorem after_cons (p : Position) (b : UInt8) (bytes : List UInt8) :
    p.after (b :: bytes) = (p.step b).after bytes := rfl

@[simp] theorem after_append (p : Position) (xs ys : List UInt8) :
    p.after (xs ++ ys) = (p.after xs).after ys := List.foldl_append

end Position

/-- The part of a text from `start` up to `stop`. -/
structure Span where
  start : Position
  stop : Position
deriving Repr, DecidableEq, Inhabited

namespace Span

/-- The empty span at a place. -/
def point (p : Position) : Span := ⟨p, p⟩

/-- The line that a report about the span names. -/
def line (s : Span) : Nat := s.start.line

/-- The smallest span that covers both. -/
def merge (a b : Span) : Span where
  start := if a.start.offset ≤ b.start.offset then a.start else b.start
  stop := if b.stop.offset ≤ a.stop.offset then a.stop else b.stop

def rebase (base : Position) (s : Span) : Span := ⟨base.rebase s.start, base.rebase s.stop⟩

def text (s : Span) : String := s.start.text ++ "-" ++ s.stop.text

end Span
end ScriptHost
