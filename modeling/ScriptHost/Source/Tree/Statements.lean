import ScriptHost.Source.Tree.Expressions
/-! Statements read from tokens, and the items of a whole script: after a fault the reading goes on
at the next line of the top level, so that later faults are found too. -/

namespace ScriptHost
namespace Parse

/-- The readers of what a statement can hold: an expression, a statement, and a declaration or
statement. -/
structure Nested where
  expression : Parse Expr
  statement : Parse Stmt
  declaration : Parse Stmt

/-- A statement ends at a newline, or in front of a closing brace or the end of input. -/
def terminator : Parse Unit := do
  match ← peek with
  | .newline => let _ ← advance
  | .symbol .rightBrace | .endOfInput => pure ()
  | _ => fail .missingNewline

/-- Lines up to a closing brace, read by `line`, whose opening brace is already read. -/
def bracedLines {α : Type} (line : Parse α) (unclosed : SyntaxFault) : Parse (List α) := do
  let (reversed, _) ← loop (fun (items, closed) => do
    if closed then return none
    skipNewlines
    if ← acceptSymbol .rightBrace then return some (items, true)
    if (← peek).isEnd then fail unclosed
    return some ((← line) :: items, false)) ([], false)
  return reversed.reverse

/-- The statements of a block whose opening brace is already read. -/
def block (nested : Nested) : Parse (List Stmt) :=
  bracedLines (do
    let s ← nested.declaration
    terminator
    return s) .openBlock

/-- The body of a condition or a loop: a block or one statement. -/
def body (nested : Nested) : Parse Stmt := do
  if ← acceptSymbol .leftBrace then return .block (← block nested) else nested.statement

/-- A condition in parentheses. -/
def condition (nested : Nested) (before after : Place) : Parse Expr := do
  let _ ← require before
  skipNewlines
  let e ← thenNewlines nested.expression
  let _ ← require after
  return e

/-- The result of a one-line body: an expression is returned. -/
def returned : Stmt → Stmt
  | .expr e => .returnValue e.span (some e)
  | s => s

/-- The body of a method. -/
def methodBody (nested : Nested) : Parse (List Stmt) := do
  let _ ← require .beforeMethodBody
  if ← acceptSymbol .rightBrace then return []
  if (← peek).isNewline then block nested
  else
    let s ← nested.declaration
    let _ ← require .afterMethodBody
    return [returned s]

/-- A parameter list. -/
def parameters : Parse (List String) := do
  let _ ← require .beforeParameters
  skipNewlines
  let params ←
    if ← atSymbol .rightParen then pure []
    else separated (thenNewlines do return (← name .parameter).1) (pure false)
  let _ ← require .afterParameters
  return params

/-- The kind of a method and its parameters. -/
def methodShape (isConstructor : Bool) : Parse (MethodKind × List String) := do
  if ← atSymbol .leftParen then
    let params ← parameters
    return (if isConstructor then .constructor else .method, params)
  else if isConstructor then fail .constructorWithoutParameters
  else return (.getter, [])

def method (nested : Nested) : Parse MethodDecl := do
  let isForeign ← acceptKeyword .foreign
  let isStatic ← acceptKeyword .static
  let isConstructor ← acceptKeyword .construct
  if isConstructor && (isForeign || isStatic) then fail .foreignConstructor
  let (name, span) ← name .method
  let (kind, params) ← methodShape isConstructor
  let body ← if isForeign then pure none else some <$> methodBody nested
  return { name, kind, params, isStatic, isForeign, span, body }

/-- The methods of a class stand on lines of their own. -/
def methodLine (nested : Nested) : Parse MethodDecl := do
  let m ← method nested
  if !(← atSymbol .rightBrace) then let _ ← require .afterMethod
  return m

/-- A class whose keyword is already read. -/
def classDecl (nested : Nested) (isForeign : Bool) : Parse Stmt := do
  let (name, span) ← name .className
  let _ ← require .beforeClassBody
  let methods ← bracedLines (methodLine nested) .openClassBody
  return .classDecl { name, isForeign, span, methods }

/-- The name of an imported module: a string without interpolation. -/
def moduleName : Parse String := do
  match ← peek with
  | .string [.literal text] => let _ ← advance; return text
  | .string _ => fail .interpolatedModuleName
  | _ => fail .missingModuleName

def importNames : Parse Stmt := do
  let span ← advance
  let moduleName ← moduleName
  let names ←
    if ← acceptKeyword .for_ then
      separated (do return (← name .variable).1) (pure false)
    else pure []
  return .importNames span moduleName names

def var (nested : Nested) : Parse Stmt := do
  let span ← advance
  let (name, _) ← name .variable
  if ← acceptSymbol .assign then
    skipNewlines
    return .var span name (some (← nested.expression))
  else return .var span name none

def ifElse (nested : Nested) : Parse Stmt := do
  let _ ← advance
  let e ← condition nested .afterIf .afterIfCondition
  let thenBranch ← body nested
  if ← acceptKeyword .else_ then return .ifElse e thenBranch (some (← body nested))
  else return .ifElse e thenBranch none

def whileLoop (nested : Nested) : Parse Stmt := do
  let _ ← advance
  let e ← condition nested .afterWhile .afterWhileCondition
  return .whileLoop e (← body nested)

def forLoop (nested : Nested) : Parse Stmt := do
  let _ ← advance
  let _ ← require .afterFor
  let (name, _) ← name .loopVariable
  match ← peek with
  | .name "in" => let _ ← advance
  | _ => fail .missingIn
  let sequence ← nested.expression
  let _ ← require .afterLoopExpression
  return .forLoop name sequence (← body nested)

def returnValue (nested : Nested) : Parse Stmt := do
  let span ← advance
  match ← peek with
  | .newline | .symbol .rightBrace | .endOfInput => return .returnValue span none
  | _ => return .returnValue span (some (← nested.expression))

def statementOver (nested : Nested) : Parse Stmt := do
  match ← peek with
  | .keyword .if_ => ifElse nested
  | .keyword .while_ => whileLoop nested
  | .keyword .for_ => forLoop nested
  | .keyword .return_ => returnValue nested
  | .keyword .break_ => return .breakLoop (← advance)
  | .symbol .leftBrace =>
    let _ ← advance
    return .block (← block nested)
  | _ => return .expr (← nested.expression)

def declarationOver (nested : Nested) : Parse Stmt := do
  match ← peek with
  | .keyword .class_ =>
    let _ ← advance
    classDecl nested false
  | .keyword .foreign =>
    let _ ← advance
    let _ ← require .afterForeign
    classDecl nested true
  | .keyword .import_ => importNames
  | .keyword .var => var nested
  | _ => statementOver nested

/-- The readers of what a statement of at most so many levels holds. Each level is made when it is
entered. -/
def nestedUpTo (expression : Parse Expr) : Nat → Nested
  | 0 => ⟨expression, fail .nesting, fail .nesting⟩
  | levels + 1 =>
    ⟨expression, fun c => statementOver (nestedUpTo expression levels) c,
      fun c => declarationOver (nestedUpTo expression levels) c⟩

/-- A declaration or statement of at most so many levels, with its terminator. -/
def item (levels : Nat) : Parse Stmt := do
  let s ← (nestedUpTo (expressionUpTo levels) levels).declaration
  terminator
  return s

end Parse

/-- The next item of a script, a statement or a fault, and the cursor after it; nothing at the end
of input. After a fault the broken statement is skipped with the braces that it opened. -/
def Cursor.item? (levels : Nat) (c : Cursor) : Option (Except SyntaxError Stmt × Cursor) :=
  let c := Cursor.skipNewlines c.tokens c.last
  if c.kind.isEnd then none
  else match Parse.item levels c with
    | .ok s rest => some (.ok s, rest)
    | .error e rest => some (.error e, Cursor.recover 0 rest.tokens rest.last)

/-- At most one item per token of a list. -/
def Cursor.itemsUpTo (levels : Nat) : List Token → Cursor → List (Except SyntaxError Stmt)
  | [], _ => []
  | _ :: fuel, c =>
    match c.item? levels with
    | none => []
    | some (item, rest) => item :: itemsUpTo levels fuel rest

/-- The items of some tokens. Each uses up a token, so the tokens bound them. -/
def items (tokens : List Token) : List (Except SyntaxError Stmt) :=
  (Cursor.start tokens).itemsUpTo (nestingBound tokens) tokens

/-- The statements of a script, or all its faults. -/
def parseModule (source : String) : Except (List SyntaxError) (List Stmt) :=
  let results := items (tokens source)
  let errors := results.filterMap fun | .error e => some e | .ok _ => none
  if errors.isEmpty then .ok (results.filterMap fun | .ok s => some s | .error _ => none)
  else .error errors

end ScriptHost
