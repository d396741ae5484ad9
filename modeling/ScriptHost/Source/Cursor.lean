import ScriptHost.Source.Fault
/-! Reading tokens from left to right. A cursor is the rest of the tokens with the span of the last
one read; an action of `Parse` moves it, and keeps it where a fault is found. -/

namespace ScriptHost

/-- The tokens still to be read. They may lack the end of input; then it is at the last token. -/
structure Cursor where
  tokens : List Token
  last : Span

namespace Cursor

def start (tokens : List Token) : Cursor := ⟨tokens, .point .origin⟩

/-- The kind of the next token. -/
def kind (c : Cursor) : TokenKind :=
  match c.tokens with
  | [] => .endOfInput
  | t :: _ => t.kind

/-- The span of the next token. -/
def span (c : Cursor) : Span :=
  match c.tokens with
  | [] => c.last
  | t :: _ => t.span

/-- The cursor after the next token. -/
def next (c : Cursor) : Cursor :=
  match c.tokens with
  | [] => c
  | t :: rest => ⟨rest, t.span⟩

/-- The cursor after the newlines in front. -/
def skipNewlines (tokens : List Token) (last : Span) : Cursor :=
  match tokens with
  | [] => ⟨[], last⟩
  | t :: rest => if t.kind.isNewline then skipNewlines rest t.span else ⟨t :: rest, last⟩

/-- The cursor at the next newline outside the braces opened on the way, or at the end of input. -/
def recover (depth : Nat) (tokens : List Token) (last : Span) : Cursor :=
  match tokens with
  | [] => ⟨[], last⟩
  | t :: rest =>
    if t.kind.isEnd || (t.kind.isNewline && depth == 0) then ⟨t :: rest, last⟩
    else if t.kind.isSymbol .leftBrace then recover (depth + 1) rest t.span
    else if t.kind.isSymbol .rightBrace then recover (depth - 1) rest t.span
    else recover depth rest t.span

end Cursor

/-- An action that reads tokens. -/
abbrev Parse := EStateM SyntaxError Cursor

namespace Parse

variable {α : Type}

/-- The kind of the next token, which is not read. -/
def peek : Parse TokenKind := fun c => .ok c.kind c

/-- The span of the next token, which is not read. -/
def peekSpan : Parse Span := fun c => .ok c.span c

/-- The span of the last token read. -/
def lastSpan : Parse Span := fun c => .ok c.last c

/-- Read the next token, and give its span. -/
def advance : Parse Span := fun c => .ok c.span c.next

/-- A fault at the next token. A token that is itself a fault is the cause instead. -/
def fail (fault : SyntaxFault) : Parse α := fun c =>
  .error ⟨match c.kind with | .invalid f => .lexical f | _ => fault, c.span⟩ c

/-- Read the next token if it passes a test, and tell whether it did. -/
def accept (test : TokenKind → Bool) : Parse Bool := fun c =>
  if test c.kind then .ok true c.next else .ok false c

def acceptSymbol (s : Symbol) : Parse Bool := accept (·.isSymbol s)

def acceptKeyword (k : Keyword) : Parse Bool := accept (·.isKeyword k)

/-- Whether the next token is a symbol; it is not read. -/
def atSymbol (s : Symbol) : Parse Bool := return (← peek).isSymbol s

/-- Read the one token that fits a place. -/
def require (place : Place) : Parse Span := do
  if place.fits (← peek) then advance else fail (.missing place)

/-- Read a name, and give its span with it. -/
def name (role : NameRole) : Parse (String × Span) := do
  match ← peek with
  | .name word => return (word, ← advance)
  | _ => fail (.missingName role)

/-- Read the newlines in front. -/
def skipNewlines : Parse Unit := fun c => .ok () (Cursor.skipNewlines c.tokens c.last)

/-- Repeat a step until it stops, going on at most once per token of a list. -/
def iterate (step : α → Parse (Option α)) : List Token → α → Parse α
  | [], a => do
    match ← step a with
    | some _ => fail .nesting
    | none => return a
  | _ :: fuel, a => do
    match ← step a with
    | some b => iterate step fuel b
    | none => return a

/-- Repeat a step until it stops. A step that goes on reads a token, so the tokens bound them. -/
def loop (step : α → Parse (Option α)) (a : α) : Parse α := do
  iterate step (← get).tokens a

/-- One item, and another after each comma unless the items stop there. -/
def separated (item : Parse α) (stop : Parse Bool) : Parse (List α) := do
  let first ← item
  let reversed ← loop (fun items => do
    if ← acceptSymbol .comma then
      skipNewlines
      if ← stop then return none
      return some ((← item) :: items)
    else return none) [first]
  return reversed.reverse

/-- An action and the newlines after it. -/
def thenNewlines (action : Parse α) : Parse α := do
  let a ← action
  skipNewlines
  return a

end Parse
end ScriptHost
