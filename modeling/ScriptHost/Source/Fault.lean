import ScriptHost.Source.Token
/-! What can be wrong with a script before it runs, and the message for each cause. -/

namespace ScriptHost

/-- A digit in base sixteen. -/
def hexDigitText (n : Nat) : String := String.ofList (Nat.toDigits 16 n)

/-- A byte as messages show it: printable ASCII as it is, quotes and the usual controls escaped, and
anything else by its number. -/
def byteText (b : UInt8) : String :=
  if b = 9 then "\\t"
  else if b = 10 then "\\n"
  else if b = 13 then "\\r"
  else if b = 34 ∨ b = 39 ∨ b = 92 then String.ofList ['\\', Char.ofNat b.toNat]
  else if 32 ≤ b ∧ b ≤ 126 then String.singleton (Char.ofNat b.toNat)
  else "\\u\x7b" ++ hexDigitText b.toNat ++ "\x7d"

def LexicalFault.message : LexicalFault → String
  | hexLiteral => "Invalid hex literal."
  | openComment => "Unterminated block comment."
  | openString => "Unterminated string."
  | openInterpolation => "Unterminated interpolation."
  | escape => "Invalid escape character."
  | byte b => "Invalid character '" ++ byteText b ++ "'."

/-- A place of the grammar that only one token fits. -/
inductive Place where
  | afterForeign | beforeClassBody | afterMethod | beforeParameters | afterParameters
  | beforeMethodBody | afterMethodBody | afterIf | afterIfCondition | afterWhile
  | afterWhileCondition | afterFor | afterLoopExpression | afterSubscript | afterArguments
  | afterExpression | afterListElements
deriving Repr, DecidableEq

namespace Place

/-- The token that fits. -/
def token : Place → TokenKind
  | afterForeign => .keyword .class_
  | beforeClassBody | beforeMethodBody => .symbol .leftBrace
  | afterMethodBody => .symbol .rightBrace
  | afterMethod => .newline
  | beforeParameters | afterIf | afterWhile | afterFor => .symbol .leftParen
  | afterParameters | afterIfCondition | afterWhileCondition | afterLoopExpression | afterArguments
  | afterExpression => .symbol .rightParen
  | afterSubscript | afterListElements => .symbol .rightBracket

/-- Whether a token fits. -/
def fits (place : Place) (kind : TokenKind) : Bool :=
  match place.token with
  | .keyword k => kind.isKeyword k
  | .symbol s => kind.isSymbol s
  | _ => kind.isNewline

def text : Place → String
  | afterForeign => "after `foreign`"
  | beforeClassBody => "before class body"
  | afterMethod => "after method definition"
  | beforeParameters => "before parameters"
  | afterParameters => "after parameters"
  | beforeMethodBody => "before method body"
  | afterMethodBody => "after method body"
  | afterIf => "after `if`"
  | afterIfCondition => "after if condition"
  | afterWhile => "after `while`"
  | afterWhileCondition => "after while condition"
  | afterFor => "after `for`"
  | afterLoopExpression => "after loop expression"
  | afterSubscript => "after subscript"
  | afterArguments => "after arguments"
  | afterExpression => "after expression"
  | afterListElements => "after list elements"

end Place

/-- What a name in a place of the grammar names. -/
inductive NameRole where
  | className | method | parameter | variable | loopVariable | member
deriving Repr, DecidableEq

def NameRole.text : NameRole → String
  | .className => "class name"
  | .method => "method name"
  | .parameter => "parameter name"
  | .variable => "variable name"
  | .loopVariable => "loop variable name"
  | .member => "method name after `.`"

/-- Why some tokens are no script. -/
inductive SyntaxFault where
  | lexical (fault : LexicalFault)
  | missing (place : Place)
  | missingName (role : NameRole)
  | missingExpression
  | missingNewline
  | missingIn
  | missingModuleName
  | interpolatedModuleName
  | openClassBody
  | openBlock
  | foreignConstructor
  | constructorWithoutParameters
  | assignmentTarget
  | fragmentRest
  /-- More nesting than the tokens allow; no script brings it about. -/
  | nesting
deriving Repr, DecidableEq

def SyntaxFault.message : SyntaxFault → String
  | lexical fault => fault.message
  | missing place => "Expect " ++ place.token.text ++ " " ++ place.text ++ "."
  | missingName role => "Expect " ++ role.text ++ "."
  | missingExpression => "Expected expression."
  | missingNewline => "Expect newline after statement."
  | missingIn => "Expect `in` after loop variable."
  | missingModuleName => "Expect a string after `import`."
  | interpolatedModuleName => "Module name cannot be interpolated."
  | openClassBody => "Expect `\x7d` after class body."
  | openBlock => "Expect `\x7d` after block."
  | foreignConstructor => "Constructors cannot be foreign or static."
  | constructorWithoutParameters => "Expect `(` after constructor name."
  | assignmentTarget => "Invalid assignment target."
  | fragmentRest => "Expect `)` after interpolated expression."
  | nesting => "Too deeply nested."

/-- A fault and the place that a report names. -/
structure SyntaxError where
  fault : SyntaxFault
  span : Span
deriving Repr, DecidableEq

namespace SyntaxError

def message (e : SyntaxError) : String := e.fault.message

def line (e : SyntaxError) : Nat := e.span.line

def text (e : SyntaxError) : String := e.message ++ " at " ++ e.span.text

end SyntaxError
end ScriptHost
