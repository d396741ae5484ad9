import ScriptHost.Source.Signature
import ScriptHost.Source.Token
/-! The statements and expressions of a script. Everything that can fail when it runs carries the
span of its text. -/

namespace ScriptHost

inductive UnaryOp where
  | negate | not
deriving Repr, DecidableEq

/-- The name of the getter that an operator is sent as. -/
def UnaryOp.text : UnaryOp → String
  | negate => "-"
  | not => "!"

/-- The operators that may leave their second operand alone. -/
inductive LogicalOp where
  | and | or
deriving Repr, DecidableEq

def LogicalOp.text : LogicalOp → String
  | and => "&&"
  | or => "||"

/-- What an assignment assigns to. -/
inductive Target where
  | variable (name : String)
  | field (name : String)
deriving Repr, DecidableEq

mutual

inductive Expr where
  | number (span : Span) (x : Float)
  | string (span : Span) (text : String)
  /-- A string with interpolated expressions. -/
  | interpolation (span : Span) (parts : List Fragment)
  | bool (span : Span) (b : Bool)
  | null (span : Span)
  | this (span : Span)
  | variable (span : Span) (name : String)
  | field (span : Span) (name : String)
  | list (span : Span) (elements : List Expr)
  | unary (span : Span) (op : UnaryOp) (operand : Expr)
  | binary (span : Span) (op : BinaryOp) (lhs rhs : Expr)
  | logical (span : Span) (op : LogicalOp) (lhs rhs : Expr)
  | assign (span : Span) (target : Target) (value : Expr)
  /-- A member read without parentheses. -/
  | getter (span : Span) (receiver : Expr) (name : String)
  | call (span : Span) (receiver : Expr) (name : String) (args : List Expr)
  | subscript (span : Span) (receiver index : Expr)

/-- A part of an interpolated string. -/
inductive Fragment where
  | literal (text : String)
  | code (e : Expr)

end

instance : Inhabited Expr := ⟨.null default⟩

def Expr.span : Expr → Span
  | .number s _ | .string s _ | .interpolation s _ | .bool s _ | .null s | .this s | .variable s _
  | .field s _ | .list s _ | .unary s _ _ | .binary s _ _ _ | .logical s _ _ _ | .assign s _ _
  | .getter s _ _ | .call s _ _ _ | .subscript s _ _ => s

inductive MethodKind where
  | method
  /-- A method without a parameter list. -/
  | getter
  | constructor
deriving Repr, DecidableEq

mutual

inductive Stmt where
  | expr (e : Expr)
  | var (span : Span) (name : String) (init : Option Expr)
  | ifElse (condition : Expr) (thenBranch : Stmt) (elseBranch : Option Stmt)
  | whileLoop (condition : Expr) (body : Stmt)
  | forLoop (name : String) (sequence : Expr) (body : Stmt)
  | block (body : List Stmt)
  | returnValue (span : Span) (value : Option Expr)
  | breakLoop (span : Span)
  | classDecl (decl : ClassDecl)
  | importNames (span : Span) (moduleName : String) (names : List String)

structure MethodDecl where
  name : String
  kind : MethodKind
  params : List String
  isStatic : Bool
  isForeign : Bool
  span : Span
  /-- The statements of a method of the script; a foreign method has none. -/
  body : Option (List Stmt)

structure ClassDecl where
  name : String
  isForeign : Bool
  span : Span
  methods : List MethodDecl

end

instance : Inhabited Stmt := ⟨.breakLoop default⟩

/-- The signature that a method is looked up by. A constructor's is that of a method of the class.
-/
def MethodDecl.signature (m : MethodDecl) : String :=
  match m.kind with
  | .getter => m.name
  | .method | .constructor => callSignature m.name (some m.params.length)

end ScriptHost
