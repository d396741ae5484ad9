import ScriptHost.Proofs.Sequence.Keeps
import ScriptHost.Source.Tree.Expressions

/-! Expressions in front of the end of a text, and in front of a line that ends there. No expression
ends with newlines that are skipped: whatever skips newlines needs another token behind them. -/

namespace ScriptHost
namespace Seam

open Parse

variable {w : Seam} {p : Bool}

/-- A reader that starts anywhere and leaves two readings together. -/
def Firm {α : Type} (w : Seam) (x : Parse α) : Prop := w.Keeps false x fun _ => true

namespace Keeps

/-! ### Interpolated source -/

/-- Interpolated source is a text of its own. -/
theorem fragment (x : Parse Expr) (source : String) (start : Position) :
    w.Keeps p (Parse.fragment x source start) fun _ => p where
  agree c d together := by
    unfold Parse.fragment
    cases Parse.whole x (.start ((tokens source).map (Token.rebase start))) with
    | ok e f => exact .inl ⟨d, rfl, together⟩
    | error e f => trivial
  stays free c spent := by
    unfold Parse.fragment
    cases Parse.whole x (.start ((tokens source).map (Token.rebase start))) with
    | ok e f => exact ⟨free, spent⟩
    | error e f => trivial

theorem fragments (x : Parse Expr) (parts : List StringPart) :
    w.Keeps p (Parse.fragments x parts) fun _ => p := by
  induction parts with
  | nil => exact .pure id
  | cons part parts ih =>
    cases part with
    | literal text => exact ih.bind fun rest => .pure id
    | code source start =>
      exact (fragment x source start).bind fun e => ih.bind fun rest => .pure id

theorem string (x : Parse Expr) (span : Span) (parts : List StringPart) :
    w.Keeps p (Parse.string x span parts) fun _ => p := by
  unfold Parse.string
  split
  · exact .pure id
  · exact (fragments x parts).bind fun found => .pure id

theorem unaryOps : w.Keeps p Parse.unaryOps fun _ => p := by
  refine .loop (fun _ => p) p (fun ops => .peek (fun kind => ?_) (fun c spent => ?_) ?_) []
  · split
    · exact KeepsAt.advance.bind fun span => .pure nofun
    · exact (Keeps.pure (p := p) id).at kind
  · exact .inl ⟨_, rfl, [], spent, rfl, rfl, nofun⟩
  · exact fun free c spent => ⟨free, spent⟩

end Keeps

/-! ### Operands -/

namespace Firm

variable {x : Parse Expr}

theorem inside (nested : w.Firm x) {stop : Parse Bool} (stops : w.Keeps false stop id) :
    w.Keeps p (Parse.separated (Parse.thenNewlines x) stop) fun _ => false :=
  .separated (Keeps.thenNewlines nested) stops

theorem arguments (nested : w.Firm x) :
    w.Keeps true (Parse.arguments x) fun _ => true := by
  refine (Keeps.acceptSymbol .leftParen).bind fun opened => ?_
  cases opened with
  | false => exact .pure id
  | true =>
    have close {q : Bool} (args : List Expr) : w.Keeps q
        (Parse.require .afterArguments >>= fun _ => Pure.pure (some args)) fun _ => true :=
      (Keeps.require .afterArguments).bind fun _ => .pure id
    refine Keeps.skipNewlines.bind fun _ => (Keeps.atSymbol .rightParen).bind fun closed => ?_
    cases closed with
    | true => exact close []
    | false => exact (nested.inside (.pure fun _ => rfl)).bind close

theorem primary (nested : w.Firm x) : w.Firm (Parse.primary x) := by
  refine .of_kinds ?_ fun kind => .peekSpan fun span => .peek ?_
  · exact .peekSpan fun span => .peek (.fail _)
  · have fail : w.KeepsAt kind (Parse.fail .missingExpression : Parse Expr) fun _ => true :=
      (Keeps.fail (p := true) _).at kind
    cases kind with
    | number z => exact KeepsAt.advance.bind fun _ => .pure id
    | field name => exact KeepsAt.advance.bind fun _ => .pure id
    | string parts => exact KeepsAt.advance.bind fun _ => .string x span parts
    | name name =>
      refine KeepsAt.advance.bind fun _ => nested.arguments.bind fun args => ?_
      cases args with
      | none => exact .pure id
      | some args => exact Keeps.lastSpan.bind fun last => .pure id
    | keyword k =>
      cases k with
      | true => exact KeepsAt.advance.bind fun _ => .pure id
      | false => exact KeepsAt.advance.bind fun _ => .pure id
      | null => exact KeepsAt.advance.bind fun _ => .pure id
      | this => exact KeepsAt.advance.bind fun _ => .pure id
      | _ => exact fail
    | symbol s =>
      cases s with
      | leftParen =>
        refine KeepsAt.advance.bind fun _ => Keeps.skipNewlines.bind fun _ => ?_
        refine (Keeps.thenNewlines nested).bind fun e => ?_
        exact (Keeps.require .afterExpression).bind fun _ => .pure id
      | leftBracket =>
        have close {q : Bool} (elements : List Expr) : w.Keeps q
            (Parse.require .afterListElements >>= fun stop =>
              Pure.pure (Expr.list (span.merge stop) elements)) fun _ => true :=
          (Keeps.require .afterListElements).bind fun stop => .pure id
        refine KeepsAt.advance.bind fun _ => Keeps.skipNewlines.bind fun _ => ?_
        refine (Keeps.atSymbol .rightBracket).bind fun closed => ?_
        cases closed with
        | true => exact close []
        | false =>
          refine (nested.inside ?_).bind close
          exact (Keeps.atSymbol .rightBracket).mono fun found same => by simpa using same
      | _ => exact fail
    | _ => exact fail

theorem selector (nested : w.Firm x) (e : Expr) :
    w.Keeps true (Parse.selector x e) fun next => next.elim true fun _ => true := by
  refine (Keeps.acceptSymbol .dot).bind fun dotted => ?_
  cases dotted with
  | true =>
    refine (Keeps.name .member).bind fun found => nested.arguments.bind fun args => ?_
    exact Keeps.lastSpan.bind fun last => .pure id
  | false =>
    refine (Keeps.acceptSymbol .leftBracket).bind fun opened => ?_
    cases opened with
    | false => exact .pure id
    | true =>
      refine Keeps.skipNewlines.bind fun _ => (Keeps.thenNewlines nested).bind fun index => ?_
      exact (Keeps.require .afterSubscript).bind fun stop => .pure id

theorem postfixed (nested : w.Firm x) : w.Firm (Parse.postfixed x) :=
  nested.primary.bind fun e => .loop (fun _ => true) true nested.selector e

theorem unary (nested : w.Firm x) : w.Firm (Parse.unary x) :=
  Keeps.unaryOps.bind fun _ => nested.postfixed.bind fun _ => .pure id

/-! ### Operators -/

theorem infixed {operand : Parse Expr} (operands : w.Firm operand) (level : Nat) (lhs : Expr) :
    w.Keeps true (Parse.infixed operand level lhs) fun next => next.elim true fun _ => true := by
  refine .peek (fun kind => ?_) (fun c spent => ?_) nofun
  · split
    · exact (Keeps.pure (p := true) id).at kind
    · refine KeepsAt.advance.bind fun _ => Keeps.skipNewlines.bind fun _ => ?_
      exact operands.bind fun rhs => .pure id
  · exact .inl ⟨_, rfl, [], spent, rfl, rfl, nofun⟩

theorem operands (nested : w.Firm x) (level : Nat) : w.Firm (Parse.operands x level) := by
  induction level with
  | zero => exact nested.unary
  | succ level ih =>
    exact ih.bind fun lhs => .loop (fun _ => true) true (infixed ih (level + 1)) lhs

theorem expressionOver (nested : w.Firm x) : w.Firm (Parse.expressionOver x) := by
  refine (nested.operands 6).bind fun left => .atSymbol_then (.peek (fun kind => ?_)
    (fun c spent => ?_) nofun)
  · split
    · refine KeepsAt.advance.bind fun mark => Keeps.skipNewlines.bind fun _ => ?_
      refine nested.bind fun value => ?_
      split
      · exact .pure id
      · exact .throw _
    · exact (Keeps.pure (p := true) id).at kind
  · exact .inl ⟨_, rfl, [], spent, rfl, rfl, nofun⟩

theorem expressionUpTo (levels : Nat) : w.Firm (Parse.expressionUpTo levels) := by
  induction levels with
  | zero => exact .fail _
  | succ levels ih => exact ih.expressionOver

end Firm
end Seam
end ScriptHost
