import ScriptHost.Proofs.Progress.Expressions
import ScriptHost.Source.Tree.Statements

/-! What the reading of a statement uses up. Like an expression, a statement asks the readers of
what it holds only behind a token of its own; an expression that is a statement by itself is the
exception, and the levels of expressions do not get fewer. -/

namespace ScriptHost

open Parse

variable {α : Type} {m n j : Nat} {b c : Cursor}

namespace Proceeds

/-! ### What holds no statements -/

theorem terminator (along : b.Leads j c) : Proceeds b terminator terminator c fun _ => j := by
  refine .peek ?_
  split
  · rename_i line
    have readable : c.kind.isReadable := by rw [line]; rfl
    refine (advance along readable).bind fun _ d along => pure ?_
    exact along.mono (Nat.le_add_right j 1)
  · exact pure along
  · exact pure along
  · exact fail along SyntaxFault.noConfusion

/-- Each line is a token at least, and so is the brace behind them. -/
theorem bracedLines {line line' : Parse α} (along : b.Leads j c)
    (lines : ∀ d, b.Leads j d → Proceeds d line line' d fun _ => 1) {unclosed : SyntaxFault}
    (other : unclosed ≠ .nesting) :
    Proceeds b (bracedLines line unclosed) (bracedLines line' unclosed) c fun _ => j := by
  refine (loop along fun found d along => ?_).bind fun reversed d along => pure along
  obtain ⟨found, closed⟩ := found
  have read (e : Cursor) (way : d.Leads 0 e) :
      Proceeds d (line >>= fun item => Pure.pure (some (item :: found, false)))
        (line' >>= fun item => Pure.pure (some (item :: found, false))) e
        fun next => next.elim 0 fun _ => 1 :=
    ((lines e (along.trans way)).further way).bind fun item f way => pure way
  cases closed with
  | true => exact pure (.refl d)
  | false =>
    refine (skipNewlines (.refl d)).bind fun _ e way => ?_
    refine (acceptSymbol way .rightBrace).bind fun closes f way => ?_
    cases closes with
    | true => exact pure way
    | false =>
      refine peek ?_
      cases f.kind.isEnd with
      | true => exact (fail (k := fun _ => 0) way other).bind fun _ g way => read g way
      | false => exact read f way

theorem parameters (along : b.Leads j c) :
    Proceeds b parameters parameters c fun _ => j + 1 := by
  have close {k : Nat} (params : List String) (d : Cursor) (along : b.Leads (j + k) d) :
      Proceeds b (Parse.require .afterParameters >>= fun _ => Pure.pure params)
        (Parse.require .afterParameters >>= fun _ => Pure.pure params) d fun _ => j + 1 :=
    (require along .afterParameters).bind fun _ e along => pure (along.mono (by omega))
  refine (require along .beforeParameters).bind fun _ d along => ?_
  refine (skipNewlines along).bind fun _ e along => atSymbol ?_
  split
  · exact close (k := 1) [] e along
  · refine (separated along (fun f _ => thenNewlines ?_) fun f _ => pure (.refl f)).bind
      fun params f along => close (k := 2) params f along
    exact (name (.refl f) .parameter).bind fun _ g along => pure along

theorem methodShape (isConstructor : Bool) (along : b.Leads j c) :
    Proceeds b (methodShape isConstructor) (methodShape isConstructor) c fun _ => j := by
  refine atSymbol ?_
  split
  · exact (parameters along).bind fun params d along => pure (along.mono (Nat.le_add_right j 1))
  · split
    · exact fail along SyntaxFault.noConfusion
    · exact pure along

theorem moduleName (along : b.Leads j c) :
    Proceeds b moduleName moduleName c fun _ => j := by
  refine peek ?_
  split
  · rename_i string
    have readable : c.kind.isReadable := by rw [string]; rfl
    refine (advance along readable).bind fun _ d along => pure ?_
    exact along.mono (Nat.le_add_right j 1)
  · exact fail along SyntaxFault.noConfusion
  · exact fail along SyntaxFault.noConfusion

theorem importNames (readable : c.kind.isReadable) :
    Proceeds c importNames importNames c fun _ => 1 := by
  refine (advance (.refl c) readable).bind fun span d along => ?_
  refine (moduleName along).bind fun file e along => ?_
  refine (acceptKeyword along .for_).bind fun listed f along => ?_
  cases listed with
  | false => exact pure along
  | true =>
    refine (separated along (fun g _ => ?_) fun g _ => pure (.refl g)).bind fun names g along =>
      pure (along.mono (by decide))
    exact (name (.refl g) .variable).bind fun _ h along => pure along

end Proceeds

/-! ### Statements -/

/-- Readers that do the same along tokens that need at most `n` levels, and at most `m` for an
expression. -/
structure NestedConsumes (m n : Nat) (x y : Nested) : Prop where
  expression : Consumes m x.expression y.expression
  statement : Consumes n x.statement y.statement
  declaration : Consumes n x.declaration y.declaration

namespace NestedConsumes

variable {x y : Nested}

/-- An expression anywhere in a statement. -/
theorem value (nested : NestedConsumes m n x y) (fits : nestingBound b.tokens ≤ m)
    (along : b.Leads j c) : Proceeds b x.expression y.expression c fun _ => j + 1 :=
  (nested.expression c (Nat.le_trans (Nat.le_of_add_right_le along.nesting) fits)).further along

section

variable (nested : NestedConsumes m n x y) (small : nestingBound b.tokens ≤ n + 1)
include nested small

theorem block (along : b.Leads (j + 1) c) :
    Proceeds b (Parse.block x) (Parse.block y) c fun _ => j + 1 := by
  refine .bracedLines along (fun d along => ?_) SyntaxFault.noConfusion
  have fewer := along.nesting
  refine (nested.declaration d (by omega)).bind fun s e way => ?_
  exact (Proceeds.terminator way).bind fun _ f way => .pure way

theorem body (along : b.Leads (j + 1) c) :
    Proceeds b (Parse.body x) (Parse.body y) c fun _ => j + 1 := by
  refine (Proceeds.acceptSymbol along .leftBrace).bind fun opened d along => ?_
  cases opened with
  | true =>
    refine (nested.block small along).bind fun ss e along => .pure ?_
    exact along.mono (Nat.le_add_right _ 1)
  | false =>
    exact (nested.statement.inner small along).mono fun _ => Nat.le_add_right _ 1

omit small in
theorem condition (fits : nestingBound b.tokens ≤ m) (before after : Place)
    (along : b.Leads j c) :
    Proceeds b (Parse.condition x before after) (Parse.condition y before after) c
      fun _ => j + 1 := by
  refine (Proceeds.require along before).bind fun _ d along => ?_
  refine (Proceeds.skipNewlines along).bind fun _ e along => ?_
  refine (Proceeds.thenNewlines (nested.value fits along)).bind fun found f along => ?_
  refine (Proceeds.require along after).bind fun _ g along => .pure (along.mono (by omega))

theorem methodBody (along : b.Leads j c) :
    Proceeds b (Parse.methodBody x) (Parse.methodBody y) c fun _ => j + 1 := by
  refine (Proceeds.require along .beforeMethodBody).bind fun _ d along => ?_
  refine (Proceeds.acceptSymbol along .rightBrace).bind fun empty e along => ?_
  cases empty with
  | true => exact .pure (along.mono (Nat.le_add_right _ 1))
  | false =>
    refine .peek ?_
    split
    · exact nested.block small along
    · refine (nested.declaration.inner small along).bind fun s f along => ?_
      refine (Proceeds.require along .afterMethodBody).bind fun _ g along => .pure ?_
      exact along.mono (by omega)

theorem method (along : b.Leads j c) :
    Proceeds b (Parse.method x) (Parse.method y) c fun _ => j + 1 := by
  have mark {d : Cursor} (along : b.Leads j d) (k : Keyword) :
      Proceeds b (Parse.acceptKeyword k) (Parse.acceptKeyword k) d fun _ => j :=
    (Proceeds.acceptKeyword along k).mono fun found => by split <;> omega
  refine (mark along .foreign).bind fun isForeign d along => ?_
  refine (mark along .static).bind fun isStatic e along => ?_
  refine (mark along .construct).bind fun isConstructor f along => ?_
  have read (g : Cursor) (along : b.Leads j g) : Proceeds b
      (Parse.name .method >>= fun named => Parse.methodShape isConstructor >>= fun shape => do
        let body ← if isForeign then Pure.pure none else some <$> Parse.methodBody x
        Pure.pure
          (⟨named.1, shape.1, shape.2, isStatic, isForeign, named.2, body⟩ : MethodDecl))
      (Parse.name .method >>= fun named => Parse.methodShape isConstructor >>= fun shape => do
        let body ← if isForeign then Pure.pure none else some <$> Parse.methodBody y
        Pure.pure ⟨named.1, shape.1, shape.2, isStatic, isForeign, named.2, body⟩)
      g fun _ => j + 1 := by
    refine (Proceeds.name along .method).bind fun named h along => ?_
    refine (Proceeds.methodShape isConstructor along).bind fun shape i along => ?_
    cases isForeign with
    | true => exact .pure along
    | false =>
      refine ((nested.methodBody small along).map (l := fun _ => j + 1) fun _ => ?_).bind
        fun body k along => .pure along
      exact Nat.le_add_right _ 1
  cases isConstructor && (isForeign || isStatic) with
  | true =>
    refine (Proceeds.fail (k := fun _ => j) along ?_).bind fun _ g along => read g along
    exact SyntaxFault.noConfusion
  | false => exact read f along

theorem methodLine (along : b.Leads j c) :
    Proceeds b (Parse.methodLine x) (Parse.methodLine y) c fun _ => j + 1 := by
  refine (nested.method small along).bind fun decl d along => .atSymbol ?_
  cases d.kind.isSymbol .rightBrace with
  | true => exact .pure along
  | false =>
    refine (Proceeds.require along .afterMethod).bind fun _ e along => .pure ?_
    exact along.mono (Nat.le_add_right _ 1)

theorem classDecl (isForeign : Bool) (along : b.Leads j c) :
    Proceeds b (Parse.classDecl x isForeign) (Parse.classDecl y isForeign) c fun _ => j + 1 := by
  refine (Proceeds.name along .className).bind fun named d along => ?_
  refine (Proceeds.require along .beforeClassBody).bind fun _ e along => ?_
  refine (Proceeds.bracedLines along (fun f along => ?_) SyntaxFault.noConfusion).bind
    fun methods f along => .pure (along.mono (Nat.le_add_right _ 1))
  have inside := Nat.le_trans (Nat.le_of_add_right_le along.nesting) small
  exact (nested.methodLine inside (.refl f)).mono fun _ => Nat.le_refl 1

end

section

variable (nested : NestedConsumes m n x y) (small : nestingBound c.tokens ≤ n + 1)
  (fits : nestingBound c.tokens ≤ m) (readable : c.kind.isReadable)
include nested fits

include readable in
theorem var : Proceeds c (Parse.var x) (Parse.var y) c fun _ => 1 := by
  refine (Proceeds.advance (.refl c) readable).bind fun span d along => ?_
  refine (Proceeds.name along .variable).bind fun named e along => ?_
  refine (Proceeds.acceptSymbol along .assign).bind fun assigned f along => ?_
  cases assigned with
  | false => exact .pure (along.mono (by decide))
  | true =>
    refine (Proceeds.skipNewlines along).bind fun _ g along => ?_
    exact (nested.value fits along).bind fun init h along => .pure (along.mono (by decide))

include readable in
theorem returnValue : Proceeds c (Parse.returnValue x) (Parse.returnValue y) c fun _ => 1 := by
  refine (Proceeds.advance (.refl c) readable).bind fun span d along => .peek ?_
  split
  · exact .pure along
  · exact .pure along
  · exact .pure along
  · exact (nested.value fits along).bind fun found e along => .pure (along.mono (by decide))

include small

section

include readable

theorem ifElse : Proceeds c (Parse.ifElse x) (Parse.ifElse y) c fun _ => 1 := by
  refine (Proceeds.advance (.refl c) readable).bind fun _ d along => ?_
  refine (nested.condition fits .afterIf .afterIfCondition along).bind fun e f along => ?_
  refine (nested.body small along).bind fun thenBranch g along => ?_
  refine (Proceeds.acceptKeyword along .else_).bind fun more h along => ?_
  cases more with
  | false => exact .pure (along.mono (by decide))
  | true =>
    exact (nested.body small along).bind fun elseBranch i along => .pure (along.mono (by decide))

theorem whileLoop : Proceeds c (Parse.whileLoop x) (Parse.whileLoop y) c fun _ => 1 := by
  refine (Proceeds.advance (.refl c) readable).bind fun _ d along => ?_
  refine (nested.condition fits .afterWhile .afterWhileCondition along).bind fun e f along => ?_
  exact (nested.body small along).bind fun body g along => .pure (along.mono (by decide))

theorem forLoop : Proceeds c (Parse.forLoop x) (Parse.forLoop y) c fun _ => 1 := by
  refine (Proceeds.advance (.refl c) readable).bind fun _ d along => ?_
  refine (Proceeds.require along .afterFor).bind fun _ e along => ?_
  refine (Proceeds.name along .loopVariable).bind fun named f along => ?_
  have rest (g : Cursor) (along : c.Leads 3 g) : Proceeds c
      (x.expression >>= fun sequence => Parse.require .afterLoopExpression >>= fun _ =>
        Parse.body x >>= fun body => Pure.pure (Stmt.forLoop named.1 sequence body))
      (y.expression >>= fun sequence => Parse.require .afterLoopExpression >>= fun _ =>
        Parse.body y >>= fun body => Pure.pure (Stmt.forLoop named.1 sequence body)) g
      fun _ => 1 := by
    refine (nested.value fits along).bind fun sequence h along => ?_
    refine (Proceeds.require along .afterLoopExpression).bind fun _ i along => ?_
    exact (nested.body small along).bind fun body k along => .pure (along.mono (by decide))
  refine .peek ?_
  split
  · rename_i word
    have readable : f.kind.isReadable := by rw [word]; rfl
    refine (Proceeds.advance along readable).bind fun _ g along => ?_
    exact rest g (along.mono (by decide))
  · refine (Proceeds.fail (k := fun _ => 3) along SyntaxFault.noConfusion).bind fun _ g along => ?_
    exact rest g along

end

theorem statementOver :
    Proceeds c (Parse.statementOver x) (Parse.statementOver y) c fun _ => 1 := by
  refine .peek ?_
  have expr : Proceeds c (x.expression >>= fun e => Pure.pure (Stmt.expr e))
      (y.expression >>= fun e => Pure.pure (Stmt.expr e)) c fun _ => 1 :=
    (nested.value fits (.refl c)).bind fun e d along => .pure along
  cases kind : c.kind with
  | keyword k =>
    have readable : c.kind.isReadable := by rw [kind]; rfl
    cases k with
    | if_ => exact nested.ifElse small fits readable
    | while_ => exact nested.whileLoop small fits readable
    | for_ => exact nested.forLoop small fits readable
    | return_ => exact nested.returnValue fits readable
    | break_ => exact (Proceeds.advance (.refl c) readable).bind fun span d along => .pure along
    | _ => exact expr
  | symbol s =>
    have readable : c.kind.isReadable := by rw [kind]; rfl
    cases s with
    | leftBrace =>
      refine (Proceeds.advance (.refl c) readable).bind fun _ d along => ?_
      exact (nested.block small along).bind fun ss e along => .pure along
    | _ => exact expr
  | _ => exact expr

theorem declarationOver :
    Proceeds c (Parse.declarationOver x) (Parse.declarationOver y) c fun _ => 1 := by
  refine .peek ?_
  have statement := nested.statementOver small fits
  cases kind : c.kind with
  | keyword k =>
    have readable : c.kind.isReadable := by rw [kind]; rfl
    have advance := Proceeds.advance (.refl c) readable
    cases k with
    | class_ =>
      refine advance.bind fun _ d along => ?_
      exact (nested.classDecl small false along).mono fun _ => by decide
    | foreign =>
      refine advance.bind fun _ d along => ?_
      refine (Proceeds.require along .afterForeign).bind fun _ e along => ?_
      exact (nested.classDecl small true along).mono fun _ => by decide
    | import_ => exact .importNames readable
    | var => exact nested.var fits readable
    | _ => exact statement
  | _ => exact statement

end

/-! ### Statements of any nesting -/

/-- How many levels are left does not matter as long as the tokens need no more. -/
theorem nestedUpTo {e e' : Parse Expr} (expressions : Consumes m e e') {levels levels' : Nat}
    (le : n ≤ levels) (le' : n ≤ levels') (small : n ≤ m) :
    NestedConsumes m n (Parse.nestedUpTo e levels) (Parse.nestedUpTo e' levels') := by
  induction n generalizing levels levels' with
  | zero =>
    refine ⟨?_, .of_zero _ _, .of_zero _ _⟩
    cases levels <;> cases levels' <;> exact expressions
  | succ n ih =>
    obtain _ | levels := levels
    · cases le
    obtain _ | levels' := levels'
    · cases le'
    have nested := ih (Nat.le_of_succ_le_succ le) (Nat.le_of_succ_le_succ le')
      (Nat.le_of_succ_le small)
    exact {
      expression := expressions
      statement := fun c le => nested.statementOver le (Nat.le_trans le small)
      declaration := fun c le => nested.declarationOver le (Nat.le_trans le small) }

end NestedConsumes

/-- An item is a token at least. -/
theorem Consumes.item {levels levels' : Nat} (le : n ≤ levels) (le' : n ≤ levels') :
    Consumes n (Parse.item levels) (Parse.item levels') := by
  have nested := NestedConsumes.nestedUpTo (.expressionUpTo le le') le le' (Nat.le_refl n)
  intro c small
  refine (nested.declaration c small).bind fun s d along => ?_
  exact (Proceeds.terminator along).bind fun _ e along => .pure along

end ScriptHost
