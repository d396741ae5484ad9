import ScriptHost.Proofs.Places
import ScriptHost.Source.Fault
import ScriptHost.Source.Tree

/-! Statements and expressions of a fragment, moved onto the text that encloses it: every span of
them is moved, and nothing else changes. -/

namespace ScriptHost

mutual

def Expr.rebase (base : Position) : Expr → Expr
  | .number s x => .number (s.rebase base) x
  | .string s text => .string (s.rebase base) text
  | .interpolation s parts => .interpolation (s.rebase base) (Fragment.rebaseAll base parts)
  | .bool s b => .bool (s.rebase base) b
  | .null s => .null (s.rebase base)
  | .this s => .this (s.rebase base)
  | .variable s name => .variable (s.rebase base) name
  | .field s name => .field (s.rebase base) name
  | .list s elements => .list (s.rebase base) (Expr.rebaseAll base elements)
  | .unary s op operand => .unary (s.rebase base) op (operand.rebase base)
  | .binary s op lhs rhs => .binary (s.rebase base) op (lhs.rebase base) (rhs.rebase base)
  | .logical s op lhs rhs => .logical (s.rebase base) op (lhs.rebase base) (rhs.rebase base)
  | .assign s target value => .assign (s.rebase base) target (value.rebase base)
  | .getter s receiver name => .getter (s.rebase base) (receiver.rebase base) name
  | .call s receiver name args =>
    .call (s.rebase base) (receiver.rebase base) name (Expr.rebaseAll base args)
  | .subscript s receiver index =>
    .subscript (s.rebase base) (receiver.rebase base) (index.rebase base)

def Expr.rebaseAll (base : Position) : List Expr → List Expr
  | [] => []
  | e :: es => e.rebase base :: Expr.rebaseAll base es

def Fragment.rebase (base : Position) : Fragment → Fragment
  | .literal text => .literal text
  | .code e => .code (e.rebase base)

def Fragment.rebaseAll (base : Position) : List Fragment → List Fragment
  | [] => []
  | f :: fs => f.rebase base :: Fragment.rebaseAll base fs

end

mutual

def Stmt.rebase (base : Position) : Stmt → Stmt
  | .expr e => .expr (e.rebase base)
  | .var s name init => .var (s.rebase base) name (init.map (Expr.rebase base))
  | .ifElse condition thenBranch elseBranch =>
    .ifElse (condition.rebase base) (thenBranch.rebase base) (Stmt.rebaseOption base elseBranch)
  | .whileLoop condition body => .whileLoop (condition.rebase base) (body.rebase base)
  | .forLoop name sequence body => .forLoop name (sequence.rebase base) (body.rebase base)
  | .block body => .block (Stmt.rebaseAll base body)
  | .returnValue s value => .returnValue (s.rebase base) (value.map (Expr.rebase base))
  | .breakLoop s => .breakLoop (s.rebase base)
  | .classDecl decl => .classDecl (decl.rebase base)
  | .importNames s moduleName names => .importNames (s.rebase base) moduleName names

def Stmt.rebaseOption (base : Position) : Option Stmt → Option Stmt
  | none => none
  | some s => some (s.rebase base)

def Stmt.rebaseAll (base : Position) : List Stmt → List Stmt
  | [] => []
  | s :: ss => s.rebase base :: Stmt.rebaseAll base ss

def Stmt.rebaseBody (base : Position) : Option (List Stmt) → Option (List Stmt)
  | none => none
  | some ss => some (Stmt.rebaseAll base ss)

def MethodDecl.rebase (base : Position) : MethodDecl → MethodDecl
  | ⟨name, kind, params, isStatic, isForeign, span, body⟩ =>
    ⟨name, kind, params, isStatic, isForeign, span.rebase base, Stmt.rebaseBody base body⟩

def MethodDecl.rebaseAll (base : Position) : List MethodDecl → List MethodDecl
  | [] => []
  | m :: ms => m.rebase base :: MethodDecl.rebaseAll base ms

def ClassDecl.rebase (base : Position) : ClassDecl → ClassDecl
  | ⟨name, isForeign, span, methods⟩ =>
    ⟨name, isForeign, span.rebase base, MethodDecl.rebaseAll base methods⟩

end

def SyntaxError.rebase (base : Position) (e : SyntaxError) : SyntaxError :=
  ⟨e.fault, e.span.rebase base⟩

variable (base : Position)

@[simp] theorem Expr.rebaseAll_eq (es : List Expr) :
    Expr.rebaseAll base es = es.map (Expr.rebase base) := by
  induction es with
  | nil => rfl
  | cons e es ih => rw [Expr.rebaseAll, ih, List.map_cons]

@[simp] theorem Fragment.rebaseAll_eq (fs : List Fragment) :
    Fragment.rebaseAll base fs = fs.map (Fragment.rebase base) := by
  induction fs with
  | nil => rfl
  | cons f fs ih => rw [Fragment.rebaseAll, ih, List.map_cons]

@[simp] theorem Stmt.rebaseAll_eq (ss : List Stmt) :
    Stmt.rebaseAll base ss = ss.map (Stmt.rebase base) := by
  induction ss with
  | nil => rfl
  | cons s ss ih => rw [Stmt.rebaseAll, ih, List.map_cons]

@[simp] theorem Stmt.rebaseOption_eq (s : Option Stmt) :
    Stmt.rebaseOption base s = s.map (Stmt.rebase base) := by
  cases s <;> rfl

@[simp] theorem Stmt.rebaseBody_eq (body : Option (List Stmt)) :
    Stmt.rebaseBody base body = body.map (List.map (Stmt.rebase base)) := by
  cases body with
  | none => rfl
  | some ss => rw [Stmt.rebaseBody, Stmt.rebaseAll_eq, Option.map_some]

@[simp] theorem MethodDecl.rebaseAll_eq (ms : List MethodDecl) :
    MethodDecl.rebaseAll base ms = ms.map (MethodDecl.rebase base) := by
  induction ms with
  | nil => rfl
  | cons m ms ih => rw [MethodDecl.rebaseAll, ih, List.map_cons]

@[simp] theorem Expr.rebase_span (e : Expr) : (e.rebase base).span = e.span.rebase base := by
  cases e <;> simp only [Expr.rebase, Expr.span]

end ScriptHost
