import ScriptHost.Source.Position
/-! The tokens of a script. -/

namespace ScriptHost

inductive Keyword where
  | break_ | class_ | construct | else_ | false | for_ | foreign | if_ | import_ | null | return_
  | static | this | true | var | while_
deriving Repr, DecidableEq

namespace Keyword

def text : Keyword → String
  | .break_ => "break"
  | .class_ => "class"
  | .construct => "construct"
  | .else_ => "else"
  | .false => "false"
  | .for_ => "for"
  | .foreign => "foreign"
  | .if_ => "if"
  | .import_ => "import"
  | .null => "null"
  | .return_ => "return"
  | .static => "static"
  | .this => "this"
  | .true => "true"
  | .var => "var"
  | .while_ => "while"

def all : List Keyword :=
  [.break_, .class_, .construct, .else_, .false, .for_, .foreign, .if_, .import_, .null, .return_,
    .static, .this, .true, .var, .while_]

/-- The keyword that a word is, if it is one. -/
def ofText? (word : String) : Option Keyword := all.find? (·.text == word)

end Keyword

/-- The operators between two operands that are sent as methods. -/
inductive BinaryOp where
  | equal | notEqual | less | greater | lessEqual | greaterEqual | add | subtract | multiply
  | divide | remainder
deriving Repr, DecidableEq

/-- The name of the method that an operator is sent as. -/
def BinaryOp.text : BinaryOp → String
  | equal => "=="
  | notEqual => "!="
  | less => "<"
  | greater => ">"
  | lessEqual => "<="
  | greaterEqual => ">="
  | add => "+"
  | subtract => "-"
  | multiply => "*"
  | divide => "/"
  | remainder => "%"

/-- The tokens that are neither words, literals nor newlines. -/
inductive Symbol where
  | leftParen | rightParen | leftBracket | rightBracket | leftBrace | rightBrace | comma | dot
  | bang | assign | and | or
  | binary (op : BinaryOp)
deriving Repr, DecidableEq

def Symbol.text : Symbol → String
  | leftParen => "("
  | rightParen => ")"
  | leftBracket => "["
  | rightBracket => "]"
  | leftBrace => "\x7b"
  | rightBrace => "\x7d"
  | comma => ","
  | dot => "."
  | bang => "!"
  | assign => "="
  | and => "&&"
  | or => "||"
  | binary op => op.text

/-- Why some bytes are no token. -/
inductive LexicalFault where
  | hexLiteral
  | openComment
  | openString
  | openInterpolation
  | escape
  | byte (b : UInt8)
deriving Repr, DecidableEq

/-- A part of a string: text with its escapes resolved, or the source of an interpolated expression
with the place where it starts. -/
inductive StringPart where
  | literal (text : String)
  | code (source : String) (start : Position)
deriving Repr, DecidableEq

inductive TokenKind where
  | number (x : Float)
  | string (parts : List StringPart)
  | name (word : String)
  /-- A name that starts with an underscore. -/
  | field (word : String)
  | keyword (k : Keyword)
  | symbol (s : Symbol)
  | newline
  | endOfInput
  | invalid (fault : LexicalFault)

namespace TokenKind

/-- The name of a kind of token in messages. -/
def text : TokenKind → String
  | number _ => "number"
  | string _ => "string"
  | name _ => "name"
  | field _ => "field"
  | keyword k => "`" ++ k.text ++ "`"
  | symbol s => "`" ++ s.text ++ "`"
  | newline => "newline"
  | endOfInput => "end of input"
  | invalid _ => "error"

/-- The operator that a token stands for between two operands. -/
def operator? : TokenKind → Option BinaryOp
  | symbol (.binary op) => some op
  | _ => none

def isEnd : TokenKind → Bool
  | endOfInput => true
  | _ => false

def isNewline : TokenKind → Bool
  | newline => true
  | _ => false

def isSymbol (s : Symbol) : TokenKind → Bool
  | symbol t => t == s
  | _ => false

def isKeyword (k : Keyword) : TokenKind → Bool
  | keyword l => l == k
  | _ => false

end TokenKind

structure Token where
  kind : TokenKind
  span : Span

end ScriptHost
