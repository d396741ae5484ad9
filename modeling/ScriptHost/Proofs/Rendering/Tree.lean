import ScriptHost.Number.Binary
import ScriptHost.Source.Lexeme
import ScriptHost.Source.Tree.Expressions

/-! Expressions without places, and the text that is written for them. Parentheses stand only around
what binds looser than its position allows. How tight each operator binds is said here once more,
apart from the reader, whose levels are a matter of its rules. -/

namespace ScriptHost

-- Powers are those of the core library, whatever else is in scope.
attribute [local instance (high)] instPowNat

/-! ### Trees -/

/-- A name that is no keyword. -/
structure Identifier where
  text : String
  starts : startsWith isLetter (Utf8.encode text)
  letters : (Utf8.encode text).all isNameByte
  plain : Keyword.ofText? text = none

/-- A name that starts with an underscore. -/
structure FieldName where
  text : String
  starts : startsWith (· == underscore) (Utf8.encode text)
  letters : (Utf8.encode text).all isNameByte

/-- What can be assigned to. -/
inductive Assignable where
  | variable (name : Identifier)
  | field (name : FieldName)

/-- An expression without interpolated strings and without places. -/
inductive Tree where
  | number (n : Nat) (small : n < 2 ^ (53 : Nat))
  | string (text : String)
  | bool (b : Bool)
  | null
  | this
  | variable (name : Identifier)
  | field (name : FieldName)
  | list (elements : List Tree)
  | unary (op : UnaryOp) (operand : Tree)
  | operator (op : InfixOp) (lhs rhs : Tree)
  | assign (target : Assignable) (value : Tree)
  | getter (receiver : Tree) (name : Identifier)
  | call (receiver : Tree) (name : Identifier) (args : List Tree)
  /-- A call whose receiver is not written. -/
  | ownCall (name : Identifier) (args : List Tree)
  | subscript (receiver index : Tree)

/-- The double that is a number below `2 ^ 53`, with all the bits of its significand. -/
def Binary.exactly (n : Nat) : Binary :=
  if n = 0 then .finite false 0 (-1074)
  else .finite false (n * 2 ^ (52 - n.log2)) (n.log2 - 52)

def Assignable.target : Assignable → Target
  | .variable x => .variable x.text
  | .field x => .field x.text

/-- The expression of an operator and its operands, its span left open. -/
def InfixOp.expr (lhs rhs : Expr) : InfixOp → Expr
  | .binary op => .binary default op lhs rhs
  | .logical op => .logical default op lhs rhs

mutual

/-- The expression that a tree is, all spans left open. -/
def Tree.expr : Tree → Expr
  | .number n _ => .number default (Binary.exactly n).toFloat
  | .string text => .string default text
  | .bool b => .bool default b
  | .null => .null default
  | .this => .this default
  | .variable x => .variable default x.text
  | .field x => .field default x.text
  | .list elements => .list default (Tree.exprs elements)
  | .unary op operand => .unary default op operand.expr
  | .operator op lhs rhs => op.expr lhs.expr rhs.expr
  | .assign target value => .assign default target.target value.expr
  | .getter receiver x => .getter default receiver.expr x.text
  | .call receiver x args => .call default receiver.expr x.text (Tree.exprs args)
  | .ownCall x args => .call default (.this default) x.text (Tree.exprs args)
  | .subscript receiver index => .subscript default receiver.expr index.expr

def Tree.exprs : List Tree → List Expr
  | [] => []
  | t :: ts => t.expr :: Tree.exprs ts

end

mutual

/-- An expression with all its spans left open. -/
def Expr.unplaced : Expr → Expr
  | .number _ x => .number default x
  | .string _ text => .string default text
  | .interpolation _ parts => .interpolation default (Fragment.unplacedAll parts)
  | .bool _ b => .bool default b
  | .null _ => .null default
  | .this _ => .this default
  | .variable _ name => .variable default name
  | .field _ name => .field default name
  | .list _ elements => .list default (Expr.unplacedAll elements)
  | .unary _ op operand => .unary default op operand.unplaced
  | .binary _ op lhs rhs => .binary default op lhs.unplaced rhs.unplaced
  | .logical _ op lhs rhs => .logical default op lhs.unplaced rhs.unplaced
  | .assign _ target value => .assign default target value.unplaced
  | .getter _ receiver name => .getter default receiver.unplaced name
  | .call _ receiver name args => .call default receiver.unplaced name (Expr.unplacedAll args)
  | .subscript _ receiver index => .subscript default receiver.unplaced index.unplaced

def Expr.unplacedAll : List Expr → List Expr
  | [] => []
  | e :: es => e.unplaced :: Expr.unplacedAll es

def Fragment.unplaced : Fragment → Fragment
  | .literal text => .literal text
  | .code e => .code e.unplaced

def Fragment.unplacedAll : List Fragment → List Fragment
  | [] => []
  | f :: fs => f.unplaced :: Fragment.unplacedAll fs

end

/-! ### Text -/

/-- How loose an operator between operands binds. -/
def InfixOp.rank : InfixOp → Nat
  | binary .multiply | binary .divide | binary .remainder => 2
  | binary .add | binary .subtract => 3
  | binary .less | binary .greater | binary .lessEqual | binary .greaterEqual => 4
  | binary .equal | binary .notEqual => 5
  | logical .and => 6
  | logical .or => 7

/-- How loose a tree binds: what is written without operators binds tightest. -/
def Tree.rank : Tree → Nat
  | .unary .. => 1
  | .operator op .. => op.rank
  | .assign .. => 8
  | _ => 0

/-- A word of a text, or a blank between words. -/
inductive Word where
  | blank
  | number (n : Nat)
  | string (text : String)
  | name (x : Identifier)
  | field (x : FieldName)
  | keyword (k : Keyword)
  | symbol (s : Symbol)

/-- A character of a string as it is written: what would end the string, or start an escape or an
interpolation, is escaped. -/
def writtenChar (c : Char) : List Char :=
  if c.toNat = 34 ∨ c.toNat = 92 ∨ c.toNat = 37 then ['\\', c] else [c]

def Word.text : Word → String
  | blank => " "
  | number n => n.repr
  | string text => "\"" ++ String.ofList (text.toList.flatMap writtenChar) ++ "\""
  | name x => x.text
  | field x => x.text
  | keyword k => k.text
  | symbol s => s.text

def UnaryOp.symbol : UnaryOp → Symbol
  | negate => .binary .subtract
  | not => .bang

def InfixOp.symbol : InfixOp → Symbol
  | binary op => .binary op
  | logical .and => .and
  | logical .or => .or

def Assignable.word : Assignable → Word
  | .variable x => .name x
  | .field x => .field x

/-- Words in a position that takes what binds as tight as `position`: what binds looser is put in
parentheses. -/
def within (position rank : Nat) (words : List Word) : List Word :=
  if rank ≤ position then words
  else .symbol .leftParen :: (words ++ [.symbol .rightParen])

mutual

/-- The words of a tree. Operators of the same rank group to the left, assignments to the right. -/
def Tree.words : Tree → List Word
  | .number n _ => [.number n]
  | .string text => [.string text]
  | .bool true => [.keyword .true]
  | .bool false => [.keyword .false]
  | .null => [.keyword .null]
  | .this => [.keyword .this]
  | .variable x => [.name x]
  | .field x => [.field x]
  | .list elements => .symbol .leftBracket :: (Tree.wordsAll elements ++ [.symbol .rightBracket])
  | .unary op operand => .symbol op.symbol :: within 1 operand.rank operand.words
  | .operator op lhs rhs =>
    within op.rank lhs.rank lhs.words ++ .blank :: .symbol op.symbol :: .blank ::
      within (op.rank - 1) rhs.rank rhs.words
  | .assign target value => target.word :: .blank :: .symbol .assign :: .blank :: value.words
  | .getter receiver x => within 0 receiver.rank receiver.words ++ [.symbol .dot, .name x]
  | .call receiver x args =>
    within 0 receiver.rank receiver.words ++ .symbol .dot :: .name x :: .symbol .leftParen ::
      (Tree.wordsAll args ++ [.symbol .rightParen])
  | .ownCall x args =>
    .name x :: .symbol .leftParen :: (Tree.wordsAll args ++ [.symbol .rightParen])
  | .subscript receiver index =>
    within 0 receiver.rank receiver.words ++ .symbol .leftBracket ::
      (index.words ++ [.symbol .rightBracket])

/-- The words of trees with commas between them. -/
def Tree.wordsAll : List Tree → List Word
  | [] => []
  | t :: ts => t.words ++ Tree.wordsMore ts

/-- The words of more trees, each behind a comma. -/
def Tree.wordsMore : List Tree → List Word
  | [] => []
  | t :: ts => .symbol .comma :: .blank :: (t.words ++ Tree.wordsMore ts)

end

/-- The text of some words. -/
def written : List Word → String
  | [] => ""
  | w :: ws => w.text ++ written ws

/-- The text of a tree. -/
def Tree.text (t : Tree) : String := written t.words

end ScriptHost
