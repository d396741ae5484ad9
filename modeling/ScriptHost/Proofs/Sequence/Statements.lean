import ScriptHost.Proofs.Sequence.Expressions
import ScriptHost.Source.Tree.Statements

/-! Statements in front of the end of a text, and in front of a line that ends there. A statement
ends in front of what terminates it, so that the end of input and the end of a line are the same to
it. -/

namespace ScriptHost
namespace Seam

open Parse

variable {w : Seam} {p : Bool} {α : Type}

namespace Keeps

/-! ### What holds no statements -/

/-- Behind its terminator, a statement is on the next line. -/
theorem terminator : w.Keeps p Parse.terminator fun _ => false := by
  refine .peek (fun kind => ?_) (fun c spent => .inr ⟨rfl, spent⟩) fun _ c spent => ⟨rfl, spent⟩
  split
  · exact KeepsAt.advance.bind fun _ => .pure fun _ => rfl
  · exact (Keeps.pure (p := p) fun _ => rfl).at _
  · exact (Keeps.pure (p := p) fun _ => rfl).at _
  · exact (Keeps.fail (p := p) _).at _

/-- A closing brace is behind the lines, whatever the last of them skips. -/
theorem bracedLines {line : Parse α} (lines : w.Keeps false line fun _ => false)
    (unclosed : SyntaxFault) : w.Keeps p (Parse.bracedLines line unclosed) fun _ => true := by
  refine Keeps.tighten
    ((loop Prod.snd true (fun found => ?_) ([], false)).bind fun found => .pure id)
  obtain ⟨found, closed⟩ := found
  cases closed with
  | true => exact .pure id
  | false =>
    refine skipNewlines.bind fun _ => (acceptSymbol .rightBrace).bind fun closes => ?_
    cases closes with
    | true => exact .pure id
    | false =>
      have read : w.Keeps false (line >>= fun item => Pure.pure (some (item :: found, false)))
          fun next => next.elim true fun found => found.2 := lines.bind fun item => .pure id
      refine .peek_token (fun c _ => ⟨_, _, rfl⟩) fun kind goes => ?_
      rw [goes]
      exact read.at kind goes

theorem parameters : w.Firm Parse.parameters := by
  have close {q : Bool} (params : List String) : w.Keeps q
      (Parse.require .afterParameters >>= fun _ => Pure.pure params) fun _ => true :=
    (require .afterParameters).bind fun _ => .pure id
  refine (require .beforeParameters).bind fun _ => skipNewlines.bind fun _ => ?_
  refine (atSymbol .rightParen).bind fun closed => ?_
  cases closed with
  | true => exact close []
  | false =>
    have param : w.Firm (do return (← Parse.name .parameter).1) :=
      (name .parameter).bind fun _ => .pure id
    exact (separated (thenNewlines param) (.pure fun _ => rfl)).bind close

theorem methodShape (isConstructor : Bool) :
    w.Keeps true (Parse.methodShape isConstructor) fun _ => true := by
  refine (atSymbol .leftParen).bind fun opened => ?_
  cases opened with
  | true => exact (Keeps.tighten parameters).bind fun params => .pure id
  | false =>
    cases isConstructor with
    | true => exact .fail _
    | false => exact .pure id

theorem moduleName : w.Keeps true Parse.moduleName fun _ => true := by
  refine .peek_token (.fail _) fun kind => ?_
  split
  · exact KeepsAt.advance.bind fun _ => .pure id
  · exact (Keeps.fail (p := true) _).at _
  · exact (Keeps.fail (p := true) _).at _

theorem importNames (kind : TokenKind) :
    w.KeepsAt kind Parse.importNames fun _ => true := by
  refine KeepsAt.advance.bind fun span => moduleName.bind fun file => ?_
  refine (acceptKeyword .for_).bind fun listed => ?_
  cases listed with
  | false => exact .pure id
  | true =>
    refine bind (separated (q := true) ?_ (.pure fun _ => rfl)) fun names => .pure id
    exact (name .variable).bind fun _ => .pure id

end Keeps

/-! ### Statements -/

/-- Readers that start anywhere and leave two readings together. -/
structure FirmNested (w : Seam) (x : Nested) : Prop where
  expression : w.Firm x.expression
  statement : w.Firm x.statement
  declaration : w.Firm x.declaration

namespace FirmNested

variable {x : Nested}

section

variable (nested : w.FirmNested x)
include nested

theorem block : w.Keeps p (Parse.block x) fun _ => true :=
  .bracedLines (nested.declaration.bind fun _ => Keeps.terminator.bind fun _ => .pure id) _

theorem body : w.Keeps p (Parse.body x) fun _ => true := by
  refine (Keeps.acceptSymbol .leftBrace).bind fun opened => ?_
  cases opened with
  | true => exact nested.block.bind fun ss => .pure id
  | false => exact Keeps.tighten nested.statement

theorem condition (before after : Place) :
    w.Keeps p (Parse.condition x before after) fun _ => true :=
  (Keeps.require before).bind fun _ => Keeps.skipNewlines.bind fun _ =>
    (Keeps.thenNewlines nested.expression).bind fun _ => (Keeps.require after).bind fun _ =>
      .pure id

theorem methodBody : w.Firm (Parse.methodBody x) := by
  refine (Keeps.require .beforeMethodBody).bind fun _ => ?_
  refine (Keeps.acceptSymbol .rightBrace).bind fun empty => ?_
  cases empty with
  | true => exact .pure id
  | false =>
    have line : w.Firm (x.declaration >>= fun s =>
        Parse.require .afterMethodBody >>= fun _ => Pure.pure [returned s]) :=
      nested.declaration.bind fun s => (Keeps.require .afterMethodBody).bind fun _ => .pure id
    refine .peek (fun kind => ?_) (fun c spent => (line.stays rfl c spent).agree) nofun
    split
    · exact (nested.block (p := true)).at kind
    · exact line.at kind

theorem method : w.Firm (Parse.method x) := by
  have mark {q : Bool} (k : Keyword) : w.Keeps q (Parse.acceptKeyword k) fun _ => q :=
    (Keeps.acceptKeyword k).mono fun found same => by simp_all
  refine (mark .foreign).bind fun isForeign => (mark .static).bind fun isStatic => ?_
  refine (mark .construct).bind fun isConstructor => ?_
  have read : w.Firm
      (Parse.name .method >>= fun named => Parse.methodShape isConstructor >>= fun shape => do
        let body ← if isForeign then Pure.pure none else some <$> Parse.methodBody x
        Pure.pure
          (⟨named.1, shape.1, shape.2, isStatic, isForeign, named.2, body⟩ : MethodDecl)) := by
    refine (Keeps.name .method).bind fun named => ?_
    refine (Keeps.methodShape isConstructor).bind fun shape => ?_
    cases isForeign with
    | true => exact .pure id
    | false =>
      have some_ : w.Firm (some <$> Parse.methodBody x) := nested.methodBody.map fun _ => id
      exact (Keeps.tighten some_).bind fun body => .pure id
  cases isConstructor && (isForeign || isStatic) with
  | true => exact .fail_bind
  | false => exact read

theorem methodLine : w.Firm (Parse.methodLine x) := by
  refine nested.method.bind fun decl => (Keeps.atSymbol .rightBrace).bind fun closed => ?_
  cases closed with
  | true => exact .pure id
  | false => exact (Keeps.require .afterMethod).bind fun _ => .pure id

theorem classDecl (isForeign : Bool) :
    w.Keeps true (Parse.classDecl x isForeign) fun _ => true := by
  refine (Keeps.name .className).bind fun named => (Keeps.require .beforeClassBody).bind fun _ => ?_
  refine Keeps.bind (Keeps.bracedLines ?_ _) fun methods => .pure id
  exact nested.methodLine.mono fun _ => nofun

variable {kind : TokenKind}

theorem var : w.KeepsAt kind (Parse.var x) fun _ => true := by
  refine KeepsAt.advance.bind fun span => (Keeps.name .variable).bind fun named => ?_
  refine (Keeps.acceptSymbol .assign).bind fun assigned => ?_
  cases assigned with
  | false => exact .pure id
  | true => exact Keeps.skipNewlines.bind fun _ => nested.expression.bind fun init => .pure id

theorem ifElse : w.KeepsAt kind (Parse.ifElse x) fun _ => true := by
  refine KeepsAt.advance.bind fun _ => ?_
  refine (nested.condition .afterIf .afterIfCondition).bind fun e => ?_
  refine nested.body.bind fun thenBranch => (Keeps.acceptKeyword .else_).bind fun more => ?_
  cases more with
  | false => exact .pure id
  | true => exact nested.body.bind fun elseBranch => .pure id

theorem whileLoop : w.KeepsAt kind (Parse.whileLoop x) fun _ => true := by
  refine KeepsAt.advance.bind fun _ => ?_
  refine (nested.condition .afterWhile .afterWhileCondition).bind fun e => ?_
  exact nested.body.bind fun body => .pure id

theorem forLoop : w.KeepsAt kind (Parse.forLoop x) fun _ => true := by
  refine KeepsAt.advance.bind fun _ => (Keeps.require .afterFor).bind fun _ => ?_
  refine (Keeps.name .loopVariable).bind fun named => ?_
  have rest : w.Keeps true
      (x.expression >>= fun sequence => Parse.require .afterLoopExpression >>= fun _ =>
        Parse.body x >>= fun body => Pure.pure (Stmt.forLoop named.1 sequence body))
      fun _ => true :=
    (Keeps.tighten nested.expression).bind fun sequence =>
      (Keeps.require .afterLoopExpression).bind fun _ => nested.body.bind fun body => .pure id
  refine .peek_token (fun c _ => ⟨_, _, rfl⟩) fun kind => ?_
  split
  · exact KeepsAt.advance.bind fun _ => rest
  · exact (Keeps.fail_bind (p := true)).at _

theorem returnValue : w.KeepsAt kind (Parse.returnValue x) fun _ => true := by
  refine KeepsAt.advance.bind fun span => .peek (fun kind => ?_) (fun c spent => ?_) nofun
  · split
    · exact (Keeps.pure (p := true) id).at _
    · exact (Keeps.pure (p := true) id).at _
    · exact (Keeps.pure (p := true) id).at _
    · exact (Keeps.at (p := false) (nested.expression.bind fun found => .pure id)) _
  · exact .inl ⟨_, rfl, [], spent, rfl, rfl, nofun⟩

theorem statementOver : w.Firm (Parse.statementOver x) := by
  have expr : w.Firm (x.expression >>= fun e => Pure.pure (Stmt.expr e)) :=
    nested.expression.bind fun e => .pure id
  refine .peek (fun kind => ?_) (fun c spent => (expr.stays rfl c spent).agree)
    fun _ => expr.stays rfl
  cases kind with
  | keyword k =>
    cases k with
    | if_ => exact nested.ifElse
    | while_ => exact nested.whileLoop
    | for_ => exact nested.forLoop
    | return_ => exact nested.returnValue
    | break_ => exact KeepsAt.advance.bind fun span => .pure id
    | _ => exact expr.at _
  | symbol s =>
    cases s with
    | leftBrace => exact KeepsAt.advance.bind fun _ => nested.block.bind fun ss => .pure id
    | _ => exact expr.at _
  | _ => exact expr.at _

theorem declarationOver : w.Firm (Parse.declarationOver x) := by
  have statement := nested.statementOver
  refine .peek (fun kind => ?_) (fun c spent => (statement.stays rfl c spent).agree)
    fun _ => statement.stays rfl
  cases kind with
  | keyword k =>
    cases k with
    | class_ => exact KeepsAt.advance.bind fun _ => nested.classDecl false
    | foreign =>
      refine KeepsAt.advance.bind fun _ => (Keeps.require .afterForeign).bind fun _ => ?_
      exact nested.classDecl true
    | import_ => exact Keeps.importNames _
    | var => exact nested.var
    | _ => exact statement.at _
  | _ => exact statement.at _

end

theorem nestedUpTo {e : Parse Expr} (expressions : w.Firm e) (levels : Nat) :
    w.FirmNested (Parse.nestedUpTo e levels) := by
  induction levels with
  | zero => exact ⟨expressions, .fail _, .fail _⟩
  | succ levels ih => exact ⟨expressions, ih.statementOver, ih.declarationOver⟩

end FirmNested

/-- A declaration or statement in front of its terminator. -/
theorem Firm.declaration (levels : Nat) :
    w.Firm (Parse.nestedUpTo (Parse.expressionUpTo levels) levels).declaration :=
  (FirmNested.nestedUpTo (.expressionUpTo levels) levels).declaration

end Seam
end ScriptHost
