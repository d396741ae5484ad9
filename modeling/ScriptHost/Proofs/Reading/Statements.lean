import ScriptHost.Proofs.Reading.Expressions
import ScriptHost.Source.Tree.Statements

/-! Statements in the common part of two texts. As for expressions, the levels that are left do not
matter as long as there are more than the tokens need. -/

namespace ScriptHost
namespace Tails

open Parse

variable {w : Tails} {α β : Type} {m n N : Nat} {P : Cursor → Cursor → Prop}

/-- Two triples of readers that do the same. Statements are read on fewer levels than expressions.
-/
structure NestedReads (w : Tails) (n N : Nat) (x y : Nested) : Prop where
  expression : w.Reads N x.expression y.expression (Expr.rebase w.base)
  statement : w.Reads n x.statement y.statement (Stmt.rebase w.base)
  declaration : w.Reads n x.declaration y.declaration (Stmt.rebase w.base)

variable {x y : Nested}

namespace Sim

theorem terminator [w.Near P m] (level : ∀ c d, P c d → w.Begun m c d) :
    w.Sim P Parse.terminator Parse.terminator id fun _ => w.Begun m := by
  refine peek.bind fun kind => ?_
  have stays : w.Sim (Facing P kind) (Pure.pure ()) (Pure.pure ()) id fun _ => w.Begun m :=
    .pure rfl fun c d facing => level c d facing.rel
  cases kind with
  | newline =>
    exact (advance rfl).bind fun _ => .pure rfl fun _ _ begun => begun.mono (Nat.sub_le m 1)
  | endOfInput => exact stays
  | symbol s =>
    cases s with
    | rightBrace => exact stays
    | _ => exact fail _
  | _ => exact fail _

/-- The lines between braces, each of which reads a token. -/
theorem bracedLines {line : Parse α} {line' : Parse β} {f : α → β}
    (lines : ∀ l ≤ m, w.Sim (w.Begun l) line line' f fun _ => w.Begun (l - 1))
    (unclosed : SyntaxFault) :
    w.Sim (w.Begun m) (Parse.bracedLines line unclosed) (Parse.bracedLines line' unclosed)
      (List.map f) fun _ => w.Begun m := by
  refine bind (loop (f := fun found => (found.1.map f, found.2)) w.graded_begun
    (fun l less found => ?_) rfl) fun found => .pure List.map_reverse.symm fun _ _ => id
  obtain ⟨items, closed⟩ := found
  cases closed with
  | true => exact .pure rfl fun _ _ => id
  | false =>
    refine skipNewlines.bind fun _ => (acceptSymbol .rightBrace).bind fun last => ?_
    cases last with
    | true => exact .pure rfl fun _ _ => id
    | false =>
      change w.Sim (w.Begun l) _ _ _ _
      refine peek.bind fun kind => ?_
      rw [TokenKind.isEnd_rebase]
      have read : w.Sim (w.Begun l)
          (line >>= fun item => Pure.pure (some (item :: items, false)))
          (line' >>= fun item => Pure.pure (some (item :: items.map f, false)))
          (Option.map fun found => (found.1.map f, found.2)) (Stepped w.Begun l) :=
        (lines l less).bind fun item => .pure rfl fun _ _ => id
      cases kind.isEnd with
      | true => exact bind (fail (f := id) (Q := fun _ => w.Begun l) _) fun _ => read
      | false => exact read.pre fun _ _ facing => facing.rel

theorem block (nested : w.NestedReads n N x y) (le : m ≤ n) :
    w.Sim (w.Begun m) (Parse.block x) (Parse.block y) (List.map (Stmt.rebase w.base))
      fun _ => w.Begun m := by
  refine bracedLines (fun l less => ?_) _
  refine bind ((nested.declaration.sim (Nat.le_trans less le)).pre fun _ _ => Begun.alike)
    fun s => (terminator fun _ _ => id).bind fun _ => .pure rfl fun _ _ => id

theorem body (nested : w.NestedReads n N x y) (le : m ≤ n) :
    w.Sim (w.Begun m) (Parse.body x) (Parse.body y) (Stmt.rebase w.base) fun _ => w.Begun m := by
  refine (acceptSymbol .leftBrace).bind fun opened => ?_
  cases opened with
  | true =>
    refine bind (block nested (Nat.le_trans (Nat.sub_le m 1) le)) fun ss =>
      .pure ?_ fun _ _ begun =>
      begun.mono (Nat.sub_le m 1)
    rw [Stmt.rebase, Stmt.rebaseAll_eq]
  | false => exact nested.statement.inner le

theorem condition (nested : w.NestedReads n N x y) (le : m ≤ N) (before after : Place) :
    w.Sim (w.Begun m) (Parse.condition x before after) (Parse.condition y before after)
      (Expr.rebase w.base) fun _ => w.Begun m := by
  have inside : m - 1 ≤ N := Nat.le_trans (Nat.sub_le m 1) le
  refine (require before).bind fun _ => skipNewlines.bind fun _ => ?_
  refine (thenNewlines (nested.expression.inner inside)).bind fun e => (require after).bind fun _ =>
    .pure rfl fun _ _ begun => begun.mono (Nat.le_trans (Nat.sub_le _ 1) (Nat.sub_le m 1))

theorem returned_rebase (s : Stmt) :
    returned (s.rebase w.base) = (returned s).rebase w.base := by
  cases s <;> simp [returned, Stmt.rebase]

theorem methodBody (nested : w.NestedReads n N x y) (le : m ≤ n) :
    w.Sim (w.Begun m) (Parse.methodBody x) (Parse.methodBody y) (List.map (Stmt.rebase w.base))
      fun _ => w.Begun m := by
  refine (require_inner .beforeMethodBody).bind fun _ => ?_
  refine (acceptSymbol .rightBrace).bind fun empty => ?_
  cases empty with
  | true => exact .pure rfl fun _ _ begun => begun.mono (Nat.sub_le m 1)
  | false =>
    change w.Sim (w.Begun m) _ _ _ _
    refine peek.bind fun kind => ?_
    rw [TokenKind.isNewline_rebase]
    cases kind.isNewline with
    | true => exact (block nested le).pre fun _ _ facing => facing.rel
    | false =>
      refine bind ((nested.declaration.inner le).pre fun _ _ facing => facing.rel) fun s => ?_
      refine (require .afterMethodBody).bind fun _ => .pure ?_ fun _ _ begun =>
        begun.mono (Nat.sub_le m 1)
      rw [returned_rebase]
      rfl

theorem parameters :
    w.Sim (w.Begun m) Parse.parameters Parse.parameters id fun _ => w.Begun m := by
  have close (params : List String) : w.Sim (w.Begun (m - 1))
      (Parse.require .afterParameters >>= fun _ => Pure.pure params)
      (Parse.require .afterParameters >>= fun _ => Pure.pure params) id fun _ => w.Begun m :=
    (require .afterParameters).bind fun _ => .pure rfl fun _ _ begun =>
      begun.mono (Nat.le_trans (Nat.sub_le _ 1) (Nat.sub_le m 1))
  refine (require .beforeParameters).bind fun _ => skipNewlines.bind fun _ => ?_
  refine (atSymbol .rightParen).bind fun closed => ?_
  cases closed with
  | true => exact close []
  | false =>
    refine bind (separated (f := id) (fun l _ => thenNewlines ?_) fun _ _ =>
      .pure rfl fun _ _ => id) fun params => ?_
    · exact (name .parameter).bind fun found => .pure rfl fun _ _ begun =>
        begun.mono (Nat.sub_le l 1)
    · rw [List.map_id]
      exact close params

theorem methodShape (isConstructor : Bool) :
    w.Sim (w.Begun m) (Parse.methodShape isConstructor) (Parse.methodShape isConstructor) id
      fun _ => w.Begun m := by
  refine (atSymbol .leftParen).bind fun opened => ?_
  cases opened with
  | true => exact parameters.bind fun params => .pure rfl fun _ _ => id
  | false =>
    cases isConstructor with
    | true => exact fail _
    | false => exact .pure rfl fun _ _ => id

theorem acceptKeyword_inner (k : Keyword) :
    w.Sim (w.Begun m) (Parse.acceptKeyword k) (Parse.acceptKeyword k) id fun _ => w.Begun m := by
  refine (acceptKeyword k).post fun found c d begun => ?_
  cases found with
  | true => exact begun.mono (Nat.sub_le m 1)
  | false => exact begun

theorem method (nested : w.NestedReads n N x y) (le : m ≤ n + 1) :
    w.Sim (w.Begun m) (Parse.method x) (Parse.method y) (MethodDecl.rebase w.base)
      fun _ => w.Begun (m - 1) := by
  have inside : m - 1 ≤ n := Nat.sub_le_of_le_add le
  refine (acceptKeyword_inner .foreign).bind fun isForeign => ?_
  refine (acceptKeyword_inner .static).bind fun isStatic => ?_
  refine (acceptKeyword_inner .construct).bind fun isConstructor => ?_
  have read : w.Sim (w.Begun m)
      (Parse.name .method >>= fun named => Parse.methodShape isConstructor >>= fun shape => do
        let body ← if isForeign then Pure.pure none else some <$> Parse.methodBody x
        Pure.pure ⟨named.1, shape.1, shape.2, isStatic, isForeign, named.2, body⟩)
      (Parse.name .method >>= fun named => Parse.methodShape isConstructor >>= fun shape => do
        let body ← if isForeign then Pure.pure none else some <$> Parse.methodBody y
        Pure.pure ⟨named.1, shape.1, shape.2, isStatic, isForeign, named.2, body⟩)
      (MethodDecl.rebase w.base) fun _ => w.Begun (m - 1) := by
    refine (name .method).bind fun named => (methodShape isConstructor).bind fun shape => ?_
    cases isForeign with
    | true => exact .pure rfl fun _ _ => id
    | false =>
      refine bind ((methodBody nested inside).map (g := Option.map (List.map (Stmt.rebase w.base)))
        (fun _ => rfl) fun _ _ _ => id) fun body => .pure ?_ fun _ _ => id
      simp [MethodDecl.rebase]
  cases bad : isConstructor && (isForeign || isStatic) with
  | true =>
    simp only [id, bad]
    exact bind (fail (Q := fun _ => w.Begun m) (f := id) _) fun _ => read
  | false =>
    simp only [id, bad]
    exact read

theorem methodLine (nested : w.NestedReads n N x y) (le : m ≤ n + 1) :
    w.Sim (w.Begun m) (Parse.methodLine x) (Parse.methodLine y) (MethodDecl.rebase w.base)
      fun _ => w.Begun (m - 1) := by
  refine (method nested le).bind fun decl => (atSymbol .rightBrace).bind fun closed => ?_
  cases closed with
  | true => exact .pure rfl fun _ _ => id
  | false =>
    exact (require .afterMethod).bind fun _ => .pure rfl fun _ _ begun =>
      begun.mono (Nat.sub_le _ 1)

/-! ### Statements -/

theorem classDecl (nested : w.NestedReads n N x y) (le : m ≤ n + 1) (isForeign : Bool) :
    w.Sim (w.Begun m) (Parse.classDecl x isForeign) (Parse.classDecl y isForeign)
      (Stmt.rebase w.base) fun _ => w.Begun m := by
  refine (name_inner .className).bind fun named => (require_inner .beforeClassBody).bind fun _ => ?_
  refine bind (bracedLines (fun l less => methodLine nested (Nat.le_trans less le)) _)
    fun methods => .pure ?_ fun _ _ => id
  simp [Stmt.rebase, ClassDecl.rebase]

theorem moduleName [w.Near P m] :
    w.Sim P Parse.moduleName Parse.moduleName id fun _ => w.Begun (m - 1) := by
  refine peek.bind fun kind => ?_
  cases kind with
  | string parts =>
    match parts with
    | [.literal text] => exact (advance rfl).bind fun _ => .pure rfl fun _ _ => id
    | [] => exact fail _
    | [.code source start] => exact fail _
    | .literal text :: second :: rest => exact fail _
    | .code source start :: second :: rest => exact fail _
  | _ => exact fail _

theorem importNames [w.Near P m] {k : Keyword} :
    w.Sim (Facing P (.keyword k)) Parse.importNames Parse.importNames (Stmt.rebase w.base)
      fun _ => w.Begun (m - 1) := by
  refine (advance rfl).bind fun span => ?_
  refine bind (moduleName.post fun _ _ _ begun => begun.mono (Nat.sub_le (m - 1) 1))
    fun moduleName => ?_
  refine (acceptKeyword_inner .for_).bind fun listed => ?_
  cases listed with
  | false => exact .pure rfl fun _ _ => id
  | true =>
    refine bind (separated (f := id) (fun l _ => ?_) fun _ _ => .pure rfl fun _ _ => id)
      fun names => .pure ?_ fun _ _ => id
    · exact (name .variable).bind fun found => .pure rfl fun _ _ begun =>
        begun.mono (Nat.sub_le l 1)
    · rw [List.map_id]
      rfl

theorem var [w.Near P m] (nested : w.NestedReads n N x y) (le : m ≤ N + 1) {k : Keyword} :
    w.Sim (Facing P (.keyword k)) (Parse.var x) (Parse.var y) (Stmt.rebase w.base)
      fun _ => w.Begun (m - 1) := by
  refine (advance rfl).bind fun span => ?_
  refine (name_inner .variable).bind fun named => (acceptSymbol .assign).bind fun assigned => ?_
  cases assigned with
  | false => exact .pure rfl fun _ _ => id
  | true =>
    refine skipNewlines.bind fun _ => ?_
    have inside : m - 1 - 1 ≤ N := Nat.le_trans (Nat.sub_le _ 1) (Nat.sub_le_of_le_add le)
    exact (nested.expression.inner inside).bind fun e => .pure rfl fun _ _ begun =>
      begun.mono (Nat.sub_le _ 1)

theorem ifElse [w.Near P m] (nested : w.NestedReads n N x y) (le : m ≤ n + 1) (le' : n ≤ N)
    {k : Keyword} :
    w.Sim (Facing P (.keyword k)) (Parse.ifElse x) (Parse.ifElse y) (Stmt.rebase w.base)
      fun _ => w.Begun (m - 1) := by
  have inside : m - 1 ≤ n := Nat.sub_le_of_le_add le
  refine (advance rfl).bind fun _ => ?_
  refine (condition nested (Nat.le_trans inside le') .afterIf .afterIfCondition).bind fun e => ?_
  refine (body nested inside).bind fun thenBranch =>
    (acceptKeyword_inner .else_).bind fun more => ?_
  cases more with
  | false => exact .pure rfl fun _ _ => id
  | true => exact (body nested inside).bind fun elseBranch => .pure rfl fun _ _ => id

theorem whileLoop [w.Near P m] (nested : w.NestedReads n N x y) (le : m ≤ n + 1) (le' : n ≤ N)
    {k : Keyword} :
    w.Sim (Facing P (.keyword k)) (Parse.whileLoop x) (Parse.whileLoop y) (Stmt.rebase w.base)
      fun _ => w.Begun (m - 1) := by
  have inside : m - 1 ≤ n := Nat.sub_le_of_le_add le
  refine (advance rfl).bind fun _ => ?_
  refine (condition nested (Nat.le_trans inside le') .afterWhile .afterWhileCondition).bind
    fun e => ?_
  exact (body nested inside).bind fun s => .pure rfl fun _ _ => id

theorem forLoop [w.Near P m] (nested : w.NestedReads n N x y) (le : m ≤ n + 1) (le' : n ≤ N)
    {k : Keyword} :
    w.Sim (Facing P (.keyword k)) (Parse.forLoop x) (Parse.forLoop y) (Stmt.rebase w.base)
      fun _ => w.Begun (m - 1) := by
  have inside : m - 1 ≤ n := Nat.sub_le_of_le_add le
  refine (advance rfl).bind fun _ => ?_
  refine (require_inner .afterFor).bind fun _ => (name_inner .loopVariable).bind fun named => ?_
  have rest : w.Sim (w.Begun (m - 1))
      (do
        let sequence ← x.expression
        let _ ← Parse.require .afterLoopExpression
        let s ← Parse.body x
        Pure.pure (.forLoop named.1 sequence s))
      (do
        let sequence ← y.expression
        let _ ← Parse.require .afterLoopExpression
        let s ← Parse.body y
        Pure.pure (.forLoop named.1 sequence s))
      (Stmt.rebase w.base) fun _ => w.Begun (m - 1) := by
    refine (nested.expression.inner (Nat.le_trans inside le')).bind fun sequence => ?_
    refine (require_inner .afterLoopExpression).bind fun _ => ?_
    exact (body nested inside).bind fun s => .pure rfl fun _ _ => id
  refine peek.bind fun kind => ?_
  have missing : w.Sim (Facing (w.Begun (m - 1)) kind)
      (do
        let _ : Unit ← Parse.fail .missingIn
        let sequence ← x.expression
        let _ ← Parse.require .afterLoopExpression
        let s ← Parse.body x
        Pure.pure (.forLoop named.1 sequence s))
      (do
        let _ : Unit ← Parse.fail .missingIn
        let sequence ← y.expression
        let _ ← Parse.require .afterLoopExpression
        let s ← Parse.body y
        Pure.pure (.forLoop named.1 sequence s))
      (Stmt.rebase w.base) fun _ => w.Begun (m - 1) :=
    bind (fail (f := id) (Q := fun _ => w.Begun (m - 1)) _) fun _ => rest
  cases kind with
  | name word =>
    by_cases mark : word = "in"
    · subst mark
      exact bind ((advance rfl).post fun _ _ _ begun => begun.mono (Nat.sub_le (m - 1) 1))
        fun _ => rest
    · dsimp only [TokenKind.rebase]
      split
      · rename_i same
        exact absurd (TokenKind.name.inj same) mark
      · exact missing
  | _ => exact missing

theorem returnValue [w.Near P m] (nested : w.NestedReads n N x y) (le : m ≤ N + 1) {k : Keyword} :
    w.Sim (Facing P (.keyword k)) (Parse.returnValue x) (Parse.returnValue y) (Stmt.rebase w.base)
      fun _ => w.Begun (m - 1) := by
  refine (advance rfl).bind fun span => peek.bind fun kind => ?_
  have none : w.Sim (Facing (w.Begun (m - 1)) kind) (Pure.pure (.returnValue span none))
      (Pure.pure (.returnValue (span.rebase w.base) none)) (Stmt.rebase w.base)
      fun _ => w.Begun (m - 1) :=
    .pure rfl fun _ _ facing => facing.rel
  have some : w.Sim (Facing (w.Begun (m - 1)) kind)
      (x.expression >>= fun e => Pure.pure (.returnValue span (some e)))
      (y.expression >>= fun e => Pure.pure (.returnValue (span.rebase w.base) (some e)))
      (Stmt.rebase w.base) fun _ => w.Begun (m - 1) := by
    refine bind ((nested.expression.inner (Nat.sub_le_of_le_add le)).pre fun _ _ facing =>
      facing.rel) fun e => .pure rfl fun _ _ => id
  cases kind with
  | newline => exact none
  | endOfInput => exact none
  | symbol s =>
    cases s with
    | rightBrace => exact none
    | _ => exact some
  | _ => exact some

theorem statementOver [w.Near P m] (nested : w.NestedReads n N x y) (le : m ≤ n + 1) (le' : n ≤ N)
    (le'' : m ≤ N) :
    w.Sim P (Parse.statementOver x) (Parse.statementOver y) (Stmt.rebase w.base)
      fun _ => w.Begun (m - 1) := by
  have inside : m - 1 ≤ n := Nat.sub_le_of_le_add le
  refine peek.bind fun kind => ?_
  have expr : w.Sim (Facing P kind) (x.expression >>= fun e => Pure.pure (.expr e))
      (y.expression >>= fun e => Pure.pure (.expr e)) (Stmt.rebase w.base)
      fun _ => w.Begun (m - 1) :=
    bind ((nested.expression.sim le'').pre fun _ _ facing => Near.alike facing) fun e =>
      .pure rfl fun _ _ => id
  cases kind with
  | keyword k =>
    cases k with
    | if_ => exact ifElse nested le le'
    | while_ => exact whileLoop nested le le'
    | for_ => exact forLoop nested le le'
    | return_ => exact returnValue nested (Nat.le_succ_of_le le'')
    | break_ => exact (advance rfl).bind fun span => .pure rfl fun _ _ => id
    | _ => exact expr
  | symbol s =>
    cases s with
    | leftBrace =>
      refine (advance rfl).bind fun _ => (block nested inside).bind fun ss => .pure ?_ fun _ _ => id
      rw [Stmt.rebase, Stmt.rebaseAll_eq]
    | _ => exact expr
  | _ => exact expr

theorem declarationOver (nested : w.NestedReads n N x y) (le : m ≤ n + 1) (le' : n ≤ N)
    (le'' : m ≤ N) :
    w.Sim (w.Alike m) (Parse.declarationOver x) (Parse.declarationOver y) (Stmt.rebase w.base)
      fun _ => w.Begun (m - 1) := by
  have inside : m - 1 ≤ n + 1 := Nat.le_trans (Nat.sub_le m 1) le
  refine peek.bind fun kind => ?_
  have statement : w.Sim (Facing (w.Alike m) kind) (Parse.statementOver x) (Parse.statementOver y)
      (Stmt.rebase w.base) fun _ => w.Begun (m - 1) := statementOver nested le le' le''
  cases kind with
  | keyword k =>
    cases k with
    | class_ => exact (advance rfl).bind fun _ => classDecl nested inside false
    | foreign =>
      refine (advance rfl).bind fun _ => (require_inner .afterForeign).bind fun _ => ?_
      exact classDecl nested inside true
    | import_ => exact importNames
    | var => exact var nested (Nat.le_succ_of_le le'')
    | _ => exact statement
  | _ => exact statement

end Sim

/-! ### Statements of any nesting -/

variable {e e' : Parse Expr}

/-- The readers one level up. -/
theorem nestedReads_over (expressions : w.Reads N e e' (Expr.rebase w.base))
    (nested : w.NestedReads n N x y) (le : m ≤ n + 1) (le' : n ≤ N) (le'' : m ≤ N) :
    w.NestedReads m N ⟨e, statementOver x, declarationOver x⟩
      ⟨e', statementOver y, declarationOver y⟩ := by
  have follow (first second : List Token) : (w.followed first second).NestedReads n N x y :=
    ⟨fun first second => nested.expression first second,
      fun first second => nested.statement first second,
      fun first second => nested.declaration first second⟩
  exact {
    expression := expressions
    statement := fun first second l small =>
      Sim.statementOver (follow first second) (Nat.le_trans small le) le' (Nat.le_trans small le'')
    declaration := fun first second l small =>
      Sim.declarationOver (follow first second) (Nat.le_trans small le) le'
        (Nat.le_trans small le'') }

theorem nestedReads_zero (expressions : w.Reads N e e' (Expr.rebase w.base)) (levels : Nat) :
    w.NestedReads 0 N (nestedUpTo e levels) (nestedUpTo e' levels) := by
  induction levels with
  | zero =>
    exact ⟨expressions, fun first second m _ => Sim.fail _, fun first second m _ => Sim.fail _⟩
  | succ levels ih =>
    exact nestedReads_over expressions ih (Nat.zero_le 1) (Nat.zero_le N) (Nat.zero_le N)

theorem nestedReads_nestedUpTo (expressions : w.Reads N e e' (Expr.rebase w.base))
    {levels levels' : Nat} (le : n ≤ levels) (le' : n ≤ levels') (small : n ≤ N) :
    w.NestedReads n N (nestedUpTo e levels) (nestedUpTo e' levels') := by
  induction n generalizing levels levels' with
  | zero =>
    have zero := nestedReads_zero expressions levels
    refine ⟨?_, zero.statement.zero, zero.declaration.zero⟩
    cases levels <;> cases levels' <;> exact expressions
  | succ n ih =>
    obtain _ | levels := levels
    · cases le
    obtain _ | levels' := levels'
    · cases le'
    have small' : n ≤ N := Nat.le_of_succ_le small
    exact nestedReads_over expressions
      (ih (Nat.le_of_succ_le_succ le) (Nat.le_of_succ_le_succ le') small')
      (Nat.le_refl (n + 1)) small' small

theorem Sim.item {levels levels' : Nat} (le : m ≤ levels) (le' : m ≤ levels') :
    w.Sim (w.Alike m) (Parse.item levels) (Parse.item levels') (Stmt.rebase w.base)
      fun _ => w.Begun (m - 1) := by
  have nested : w.NestedReads m m (nestedUpTo (expressionUpTo levels) levels)
      (nestedUpTo (expressionUpTo levels') levels') :=
    nestedReads_nestedUpTo (reads_expressionUpTo w le le') le le' (Nat.le_refl m)
  exact (nested.declaration.sim (Nat.le_refl m)).bind fun s =>
    (terminator fun _ _ => id).bind fun _ => .pure rfl fun _ _ => id

end Tails
end ScriptHost
