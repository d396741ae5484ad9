import ScriptHost.Source.Cursor
import ScriptHost.Source.Lexeme
import ScriptHost.Source.Tree
/-! Expressions read from tokens. Operators between operands stand on six levels, all of them
grouped to the left; assignment binds loosest and groups to the right. An expression inside
brackets, after an assignment or in an interpolated string is read by the action that is passed
down, so that the levels themselves do not call each other in a circle. -/

namespace ScriptHost

-- Sums start from the core library's zero, whatever else is in scope.
attribute [local instance (high)] Zero.ofOfNat0

/-! Tokens of interpolated source, moved onto the enclosing text. -/

def StringPart.rebase (base : Position) : StringPart → StringPart
  | literal text => .literal text
  | code source start => .code source (base.rebase start)

def TokenKind.rebase (base : Position) : TokenKind → TokenKind
  | string parts => .string (parts.map (StringPart.rebase base))
  | kind => kind

def Token.rebase (base : Position) (t : Token) : Token := ⟨t.kind.rebase base, t.span.rebase base⟩

/-! A bound of the nesting: each level of it uses up a token, and interpolated source has at most
one token per byte and the end of input. -/

def StringPart.nesting : StringPart → Nat
  | literal _ => 0
  | code source _ => source.utf8ByteSize + 1

def TokenKind.nesting : TokenKind → Nat
  | string parts => 1 + (parts.map StringPart.nesting).sum
  | _ => 1

/-- More levels than the tokens can nest. -/
def nestingBound (tokens : List Token) : Nat := (tokens.map fun t => t.kind.nesting).sum + 1

/-- An operator between two operands. -/
inductive InfixOp where
  | logical (op : LogicalOp)
  | binary (op : BinaryOp)
deriving Repr, DecidableEq

namespace InfixOp

def ofKind? : TokenKind → Option InfixOp
  | .symbol .and => some (.logical .and)
  | .symbol .or => some (.logical .or)
  | .symbol (.binary op) => some (.binary op)
  | _ => none

/-- The level of an operator; one of a lower level binds tighter. -/
def level : InfixOp → Nat
  | binary .multiply | binary .divide | binary .remainder => 1
  | binary .add | binary .subtract => 2
  | binary .less | binary .greater | binary .lessEqual | binary .greaterEqual => 3
  | binary .equal | binary .notEqual => 4
  | logical .and => 5
  | logical .or => 6

/-- The operator of a level that a token is. -/
def atLevel? (n : Nat) (kind : TokenKind) : Option InfixOp := (ofKind? kind).filter (·.level == n)

/-- The expression of an operator and its operands. -/
def apply (op : InfixOp) (lhs rhs : Expr) : Expr :=
  let span := lhs.span.merge rhs.span
  match op with
  | logical op => .logical span op lhs rhs
  | binary op => .binary span op lhs rhs

end InfixOp

/-- The operator that a token is in front of an operand. -/
def UnaryOp.ofKind? : TokenKind → Option UnaryOp
  | .symbol (.binary .subtract) => some .negate
  | .symbol .bang => some .not
  | _ => none

namespace Parse

/-- Arguments in parentheses, if a parenthesis is next. -/
def arguments (nested : Parse Expr) : Parse (Option (List Expr)) := do
  if ← acceptSymbol .leftParen then
    skipNewlines
    let args ←
      if ← atSymbol .rightParen then pure []
      else separated (thenNewlines nested) (pure false)
    let _ ← require .afterArguments
    return some args
  else return none

/-- A call or a getter, by whether there are arguments. -/
def member (span : Span) (receiver : Expr) (name : String) : Option (List Expr) → Expr
  | some args => .call span receiver name args
  | none => .getter span receiver name

/-- An expression that is the whole of the tokens but for newlines around it. -/
def whole (nested : Parse Expr) : Parse Expr := do
  skipNewlines
  let e ← thenNewlines nested
  if (← peek).isEnd then return e else fail .fragmentRest

/-- The expression of interpolated source that starts at `start`. -/
def fragment (nested : Parse Expr) (source : String) (start : Position) : Parse Expr := fun c =>
  match whole nested (.start ((tokens source).map (Token.rebase start))) with
  | .ok e _ => .ok e c
  | .error f _ => .error f c

/-- The parts of an interpolated string. -/
def fragments (nested : Parse Expr) : List StringPart → Parse (List Fragment)
  | [] => return []
  | .literal text :: rest => return .literal text :: (← fragments nested rest)
  | .code source start :: rest => do
    let e ← fragment nested source start
    return .code e :: (← fragments nested rest)

/-- The expression of a string token. -/
def string (nested : Parse Expr) (span : Span) (parts : List StringPart) : Parse Expr := do
  match parts with
  | [.literal text] => return .string span text
  | _ => return .interpolation span (← fragments nested parts)

/-- An expression without operators. A name with arguments is a call on `this`. -/
def primary (nested : Parse Expr) : Parse Expr := do
  let span ← peekSpan
  match ← peek with
  | .number x => let _ ← advance; return .number span x
  | .keyword .true => let _ ← advance; return .bool span true
  | .keyword .false => let _ ← advance; return .bool span false
  | .keyword .null => let _ ← advance; return .null span
  | .keyword .this => let _ ← advance; return .this span
  | .field name => let _ ← advance; return .field span name
  | .string parts => let _ ← advance; string nested span parts
  | .name name =>
    let _ ← advance
    match ← arguments nested with
    | none => return .variable span name
    | some args =>
      let whole := span.merge (← lastSpan)
      return .call whole (.this whole) name args
  | .symbol .leftParen =>
    let _ ← advance
    skipNewlines
    let e ← thenNewlines nested
    let _ ← require .afterExpression
    return e
  | .symbol .leftBracket =>
    let _ ← advance
    skipNewlines
    let elements ←
      if ← atSymbol .rightBracket then pure []
      else separated (thenNewlines nested) (atSymbol .rightBracket)
    let stop ← require .afterListElements
    return .list (span.merge stop) elements
  | _ => fail .missingExpression

/-- An expression with one more member or subscript, if one follows. -/
def selector (nested : Parse Expr) (e : Expr) : Parse (Option Expr) := do
  if ← acceptSymbol .dot then
    let (name, nameSpan) ← name .member
    let args ← arguments nested
    return some (member ((e.span.merge nameSpan).merge (← lastSpan)) e name args)
  else if ← acceptSymbol .leftBracket then
    skipNewlines
    let index ← thenNewlines nested
    let stop ← require .afterSubscript
    return some (.subscript (e.span.merge stop) e index)
  else return none

def postfixed (nested : Parse Expr) : Parse Expr := do
  loop (selector nested) (← primary nested)

/-- The operators in front of an operand, the innermost first, each with its span. -/
def unaryOps : Parse (List (UnaryOp × Span)) :=
  loop (fun ops => do
    match UnaryOp.ofKind? (← peek) with
    | some op => return some ((op, ← advance) :: ops)
    | none => return none) []

/-- The expression of an operator at `span` and its operand. -/
def applyUnary (operand : Expr) (op : UnaryOp × Span) : Expr :=
  .unary (op.2.merge operand.span) op.1 operand

def unary (nested : Parse Expr) : Parse Expr := do
  let ops ← unaryOps
  let operand ← postfixed nested
  return ops.foldl applyUnary operand

/-- An operand with one more operator of a level and its second operand, if one follows. -/
def infixed (operand : Parse Expr) (level : Nat) (lhs : Expr) : Parse (Option Expr) := do
  match InfixOp.atLevel? level (← peek) with
  | none => return none
  | some op =>
    let _ ← advance
    skipNewlines
    return some (op.apply lhs (← operand))

/-- An expression of operators up to a level. -/
def operands (nested : Parse Expr) : Nat → Parse Expr
  | 0 => unary nested
  | level + 1 => do
    loop (infixed (operands nested level) (level + 1)) (← operands nested level)

/-- What an expression is as the target of an assignment. -/
def target? : Expr → Option Target
  | .variable _ name => some (.variable name)
  | .field _ name => some (.field name)
  | _ => none

/-- An expression, the ones inside it read by `nested`. -/
def expressionOver (nested : Parse Expr) : Parse Expr := do
  let left ← operands nested 6
  if ← atSymbol .assign then
    let mark ← advance
    skipNewlines
    let value ← nested
    match target? left with
    | some target => return .assign (left.span.merge value.span) target value
    | none => throw ⟨.assignmentTarget, mark⟩
  else return left

/-- An expression of at most so many levels. -/
def expressionUpTo : Nat → Parse Expr
  | 0 => fail .nesting
  | levels + 1 => expressionOver (expressionUpTo levels)

/-- An expression of any nesting. -/
def expression : Parse Expr := do expressionUpTo (nestingBound (← get).tokens)

end Parse
end ScriptHost
