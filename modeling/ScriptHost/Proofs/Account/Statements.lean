import ScriptHost.Proofs.Account.Expressions
import ScriptHost.Proofs.Account.Grammar

/-! A statement is written with the tokens that it was read from, for every rule of the grammar. -/

namespace ScriptHost

open Parse

variable {c : Cursor}

/-- Where a line may end without a newline: in front of a closing brace or the end of input. -/
def Cursor.Closing (c : Cursor) : Prop := c.kind.isSymbol .rightBrace ∨ c.kind.isEnd

/-- Behind some newlines the next line may start, unless there is none and the lines are over. -/
theorem Lines.skipped {α : Type} {R : α → List TokenKind → Prop} {b : Bool} {items : List α}
    {ts : List TokenKind} {c d : Cursor} {n : Nat} (h : Lines R b items ts)
    (closing : b = false → c.Closing) (same : n = 0 → d = c) :
    ∃ b', Lines R b' items (ts ++ List.replicate n .newline) ∧ (b' = false → d.Closing) := by
  cases b with
  | true => exact ⟨true, h.newlines n, nofun⟩
  | false =>
    cases n with
    | zero => exact ⟨false, by simpa using h, fun _ => same rfl ▸ closing rfl⟩
    | succ n =>
      have more := h.newline.newlines n
      rw [List.append_assoc] at more
      exact ⟨true, more, nofun⟩

namespace Spends

/-! ### Lines -/

/-- The end of a line: a newline, or a token that ends more than the line. -/
def LineEnd (ts : List TokenKind) (d : Cursor) : Prop :=
  ts = [.newline] ∨ ts = [] ∧ d.Closing

theorem terminator : Spends Parse.terminator c fun _ ts d => LineEnd ts d := by
  refine .peek ?_
  cases kind : c.kind with
  | newline =>
    exact (Spends.advance kind rfl).bind fun _ _ _ taken => .pure (.inl (by rw [taken]; rfl))
  | endOfInput => exact .pure (.inr ⟨rfl, .inr (by rw [kind]; rfl)⟩)
  | symbol s =>
    cases s with
    | rightBrace => exact .pure (.inr ⟨rfl, .inl (by rw [kind]; rfl)⟩)
    | _ => exact .fail _
  | _ => exact .fail _

variable {α : Type} {line : Parse α} {R : α → List TokenKind → Prop}

/-- Where a line of braced lines was read: at the end of all of them, or in front of the next. -/
def Between (R : α → List TokenKind → Prop) : List α × Bool → List TokenKind → Cursor → Prop
  | (items, true), ts, _ => ∃ b us, Lines R b items.reverse us ∧ ts = us ++ [.symbol .rightBrace]
  | (items, false), ts, d => ∃ b, Lines R b items.reverse ts ∧ (b = false → d.Closing)

theorem bracedLines
    (lines : ∀ d, Spends line d fun a ts e => ∃ us vs, R a us ∧ ts = us ++ vs ∧ LineEnd vs e)
    (unclosed : SyntaxFault) : Spends (bracedLines line unclosed) c fun items ts _ =>
      ∃ b us, Lines R b items us ∧ ts = us ++ [.symbol .rightBrace] := by
  refine (loop (I := Between R) (R := fun state ts _ => Between R (state.1, true) ts c)
    (a := ([], false)) (fun ⟨items, closed⟩ ts d between => ?_) ⟨true, .nil, nofun⟩).bind
      fun ⟨items, _⟩ ts e between => pure (by rw [List.append_nil]; exact between)
  cases closed with
  | true => exact pure (by rw [List.append_nil]; exact between)
  | false =>
    obtain ⟨b, before, closing⟩ := between
    refine skipNewlines.bind fun _ us e ⟨n, taken, same⟩ => ?_
    subst taken
    obtain ⟨b', here, shut⟩ := before.skipped closing same
    refine acceptSymbol (fun f => pure ?_) fun noBrace => peek ?_
    · exact ⟨b', _, here, by simp⟩
    · split
      · exact (Spends.fail _).never
      · rename_i noEnd
        refine (lines e).bind fun a vs f ⟨ws, xs, item, split, ends⟩ => pure ?_
        have start : b' = true := by
          refine (Bool.not_eq_false _).mp fun late => ?_
          obtain brace | end_ := shut late
          · rw [noBrace] at brace
            cases brace
          · exact noEnd end_
        subst start split
        have more := here.item item
        rw [← List.reverse_cons] at more
        obtain rfl | ⟨rfl, closing⟩ := ends
        · refine ⟨true, ?_, nofun⟩
          simpa using more.newline
        · refine ⟨false, ?_, fun _ => closing⟩
          simpa using more

end Spends

/-- Readers of what a statement can hold, none of which loses a leaf or joins two lines. -/
structure Parse.Nested.Accounts (nested : Nested) : Prop where
  expression : ScriptHost.Accounts nested.expression
  statement : ∀ c, Spends nested.statement c fun s ts _ => s.Written ts
  declaration : ∀ c, Spends nested.declaration c fun s ts _ => s.Written ts

namespace Parse.Nested.Accounts

/-! ### Names -/

theorem names {role : NameRole} {x : Parse String}
    (x_eq : x = do return (← Parse.name role).1) :
    ∀ d, Spends x d fun name ts _ => ts = [.name name] := fun d => by
  subst x_eq
  exact (Spends.name role).bind fun _ _ _ taken => .pure (by rw [taken]; rfl)

theorem leaves_names (names : List String) : names.flatMap (fun n => [Leaf.name n]) =
    names.map Leaf.name := List.map_eq_flatMap.symm

theorem parameters : Spends Parse.parameters c fun params ts _ =>
    Carries ts (params.map Leaf.name) := by
  refine (Spends.require _).bind fun _ ts d opened => ?_
  refine Spends.skipped.bind fun _ us e lines => .atSymbol ?_
  subst opened
  split
  · refine (Spends.require _).bind fun _ vs f closed => .pure ?_
    exact .behind (.symbol _) (lines.behind (closed ▸ Carries.symbol _))
  · refine (Spends.separated_carries (l := fun name => [Leaf.name name])
      (fun d => .thenNewlines ((names rfl d).mono fun name ts _ taken => taken ▸ .name name))
      fun d => .pure .nil).bind fun params vs f carried => ?_
    refine (Spends.require _).bind fun _ ws g closed => .pure ?_
    rw [leaves_names] at carried
    subst closed
    exact .behind (.symbol _) (lines.behind (carried.before (.symbol _)))

theorem methodShape (isConstructor : Bool) :
    Spends (Parse.methodShape isConstructor) c fun shape ts _ =>
      Carries ts (shape.2.map Leaf.name) := by
  refine .atSymbol ?_
  split
  · exact parameters.bind fun params ts d carried => .pure (carried.before .nil)
  · split
    · exact .fail _
    · exact .pure .nil

theorem moduleName : Spends Parse.moduleName c fun name ts _ =>
    ts = [.string [.literal name]] := by
  refine .peek ?_
  split
  · rename_i text kind
    exact (Spends.advance kind rfl).bind fun _ _ _ taken => .pure (by rw [taken]; rfl)
  · exact .fail _
  · exact .fail _

theorem importNames (kind : c.kind = .keyword .import_) :
    Spends Parse.importNames c fun s ts _ => s.Written ts := by
  refine (Spends.advance kind rfl).bind fun span ts d first => ?_
  refine moduleName.bind fun source us e taken => ?_
  subst first taken
  have front : Carries ([.keyword .import_] ++ [.string [.literal source]])
      [.string [.literal source]] :=
    .behind (.keyword nofun rfl) (.token rfl ⟨rfl, by simp [TokenKind.parts]⟩)
  refine .acceptKeyword (fun f => ?_) fun _ => ?_
  · refine (Spends.separated (l := fun name => [Leaf.name name])
      (R := fun name ts => ts = [.name name]) (fun name ts taken => taken ▸ .name name)
      (names rfl) fun d => .pure .nil).bind ?_
    rintro names vs g ⟨name, rest, ws, xs, rfl, rfl, rfl, carried⟩
    rw [leaves_names] at carried
    refine .pure (.plain rfl ?_)
    have listed := ((Carries.name name).append carried).importedNames
    simpa [Stmt.leaves] using front.append listed
  · refine .pure (.plain rfl ?_)
    simpa [Stmt.leaves] using front

variable {nested : Nested} (accounts : nested.Accounts)
include accounts

/-! ### Blocks -/

theorem block : Spends (Parse.block nested) c fun body ts _ =>
    ∃ b us, Lines Stmt.Written b body us ∧ ts = us ++ [.symbol .rightBrace] := by
  refine Spends.bracedLines (fun d => ?_) _
  refine (accounts.declaration d).bind fun s us e written => ?_
  exact Spends.terminator.bind fun _ vs f ends => .pure ⟨us, vs, written, by simp, ends⟩

theorem body : Spends (Parse.body nested) c fun s ts _ => s.Written ts := by
  refine .acceptSymbol (fun d => ?_) fun _ => accounts.statement c
  refine accounts.block.bind fun body ts e ⟨b, us, lines, split⟩ => .pure ?_
  rw [split, List.append_nil]
  exact .block lines

theorem condition (before after : Place) {open_ close : Symbol}
    (opens : before.token = .symbol open_) (closes : after.token = .symbol close) :
    Spends (Parse.condition nested before after) c fun e ts _ => Carries ts e.leaves := by
  refine (Spends.require before).bind fun _ ts d opened => ?_
  refine Spends.skipped.bind fun _ us e lines => ?_
  refine (Spends.thenNewlines (accounts.expression e)).bind fun e vs f carried => ?_
  refine (Spends.require after).bind fun _ ws g closed => .pure ?_
  rw [opened, closed, opens, closes]
  exact .behind (.symbol _) (lines.behind (carried.before (.symbol _)))

omit accounts in
/-- To return an expression says what the expression says. -/
theorem written_returned {s : Stmt} {ts : List TokenKind} (h : s.Written ts) :
    (returned s).Written ts := by
  cases s with
  | expr e => exact .plain rfl h.carries
  | _ => exact h

theorem methodBody : Spends (Parse.methodBody nested) c fun body ts _ =>
    ∃ b us, Lines Stmt.Written b body us ∧
      ts = .symbol .leftBrace :: (us ++ [.symbol .rightBrace]) := by
  refine (Spends.require .beforeMethodBody).bind fun _ ts d opened => ?_
  subst opened
  refine .acceptSymbol (fun e => .pure ⟨true, [], .nil, rfl⟩) fun _ => .peek ?_
  split
  · refine accounts.block.mono fun body us e ⟨b, vs, lines, split⟩ => ⟨b, vs, lines, ?_⟩
    rw [split]
    rfl
  · refine (accounts.declaration d).bind fun s us e written => ?_
    refine (Spends.require .afterMethodBody).bind fun _ vs f closed => .pure ?_
    subst closed
    exact ⟨false, us, .item .nil (written_returned written), rfl⟩

/-! ### Classes -/

omit accounts in
/-- A keyword that may be left out. -/
theorem mark {k : Keyword} (plain : k ≠ .for_)
    (silent : (TokenKind.keyword k).leaf? sourceLeaves = none) :
    Spends (Parse.acceptKeyword k) c fun _ ts _ => Carries ts [] := by
  rw [← bind_pure (Parse.acceptKeyword k)]
  exact .acceptKeyword (fun _ => .pure ((Carries.keyword plain silent).before .nil))
    fun _ => .pure .nil

theorem method : Spends (Parse.method nested) c fun m ts _ => m.Written ts := by
  refine (mark (k := .foreign) nofun rfl).bind fun isForeign ts d foreign => ?_
  refine (mark (k := .static) nofun rfl).bind fun isStatic us e static => ?_
  refine (mark (k := .construct) nofun rfl).bind fun isConstructor vs f construct => ?_
  have front := foreign.behind (static.behind construct)
  have read (g : Cursor) : Spends
      (Parse.name .method >>= fun named => Parse.methodShape isConstructor >>= fun shape => do
        let body ← if isForeign then Pure.pure none else some <$> Parse.methodBody nested
        Pure.pure
          (⟨named.1, shape.1, shape.2, isStatic, isForeign, named.2, body⟩ : MethodDecl))
      g fun m ws _ => m.Written (ts ++ (us ++ (vs ++ ws))) := by
    refine (Spends.name .method).bind fun named ws h taken => ?_
    refine (methodShape isConstructor).bind fun shape xs i params => ?_
    subst taken
    have header := front.behind ((Carries.name named.1).append params)
    cases isForeign with
    | true => exact .pure (.foreign (by simpa using header) rfl)
    | false =>
      refine (Spends.map (g := some) (Q := fun body ys _ => ∃ ss b zs, body = some ss ∧
        Lines Stmt.Written b ss zs ∧ ys = .symbol .leftBrace :: (zs ++ [.symbol .rightBrace]))
        (accounts.methodBody.mono fun ss ys k ⟨b, zs, lines, split⟩ =>
          ⟨ss, b, zs, rfl, lines, split⟩)).bind ?_
      rintro _ _ k ⟨ss, b, zs, rfl, lines, rfl⟩
      have whole := MethodDecl.Written.scripted
        (m := ⟨named.1, shape.1, shape.2, isStatic, false, named.2, some ss⟩) header rfl lines
      exact .pure (by simpa using whole)
  cases isConstructor && (isForeign || isStatic) with
  | true => exact (Spends.fail _).never
  | false => exact read f

theorem methodLine : Spends (Parse.methodLine nested) c fun m ts d =>
    ∃ us vs, m.Written us ∧ ts = us ++ vs ∧ Spends.LineEnd vs d := by
  refine accounts.method.bind fun m ts d written => .atSymbol ?_
  cases brace : d.kind.isSymbol .rightBrace with
  | true => exact .pure ⟨ts, [], written, rfl, .inr ⟨rfl, .inl brace⟩⟩
  | false =>
    refine (Spends.require .afterMethod).bind fun _ us e taken => .pure ?_
    exact ⟨ts, us, written, by rw [List.append_nil], .inl taken⟩

theorem classDecl (isForeign : Bool) : Spends (Parse.classDecl nested isForeign) c fun s ts _ =>
    ∀ us, Carries us [] → s.Written (us ++ ts) := by
  refine (Spends.name .className).bind fun named ts d taken => ?_
  refine (Spends.require .beforeClassBody).bind fun _ us e opened => ?_
  refine (Spends.bracedLines (fun f => accounts.methodLine) _).bind
    fun methods vs f ⟨b, ws, lines, closed⟩ => .pure fun xs front => ?_
  subst taken opened closed
  have header := front.behind ((Carries.name named.1).before (.symbol .leftBrace))
  have whole : Stmt.Written (.classDecl ⟨named.1, isForeign, named.2, methods⟩) _ :=
    .classDecl header lines
  simpa [Place.token] using whole

/-! ### Plain statements -/

theorem var (kind : c.kind = .keyword .var) :
    Spends (Parse.var nested) c fun s ts _ => s.Written ts := by
  refine (Spends.advance kind rfl).bind fun span ts d first => ?_
  refine (Spends.name .variable).bind fun named us e taken => ?_
  subst first taken
  have front : Carries ([.keyword .var] ++ [.name named.1]) [.name named.1] :=
    .behind (.keyword nofun rfl) (.name named.1)
  refine .acceptSymbol (fun f => ?_) fun _ => .pure (.plain rfl front)
  refine Spends.skipped.bind fun _ vs g lines => ?_
  refine (accounts.expression g).bind fun init ws h carried => .pure (.plain rfl ?_)
  have rest := Carries.behind (.symbol .assign) (lines.behind carried)
  simpa [Stmt.leaves, Expr.leavesOption] using front.append rest

theorem returnValue (kind : c.kind = .keyword .return_) :
    Spends (Parse.returnValue nested) c fun s ts _ => s.Written ts := by
  refine (Spends.advance kind rfl).bind fun span ts d first => .peek ?_
  subst first
  have front : Carries [.keyword .return_] [] := .keyword nofun rfl
  split
  · exact .pure (.plain rfl front)
  · exact .pure (.plain rfl front)
  · exact .pure (.plain rfl front)
  · refine (accounts.expression d).bind fun value us e carried => .pure (.plain rfl ?_)
    exact front.behind (carried.before .nil)

/-! ### Statements with others inside -/

theorem ifElse (kind : c.kind = .keyword .if_) :
    Spends (Parse.ifElse nested) c fun s ts _ => s.Written ts := by
  refine (Spends.advance kind rfl).bind fun _ ts d first => ?_
  refine (accounts.condition .afterIf .afterIfCondition rfl rfl).bind fun e us f carried => ?_
  refine accounts.body.bind fun thenBranch vs g written => ?_
  subst first
  have front : Carries ([.keyword .if_] ++ us) e.leaves := .behind (.keyword nofun rfl) carried
  refine .acceptKeyword (fun h => ?_) fun _ => .pure ?_
  · refine accounts.body.bind fun other ws i written' => .pure ?_
    simpa using Stmt.Written.ifElse front written written'
  · simpa using Stmt.Written.ifThen front written

theorem whileLoop (kind : c.kind = .keyword .while_) :
    Spends (Parse.whileLoop nested) c fun s ts _ => s.Written ts := by
  refine (Spends.advance kind rfl).bind fun _ ts d first => ?_
  refine (accounts.condition .afterWhile .afterWhileCondition rfl rfl).bind fun e us f carried => ?_
  refine accounts.body.bind fun body vs g written => .pure ?_
  subst first
  have front : Carries ([.keyword .while_] ++ us) e.leaves := .behind (.keyword nofun rfl) carried
  simpa using Stmt.Written.whileLoop front written

theorem forLoop (kind : c.kind = .keyword .for_) :
    Spends (Parse.forLoop nested) c fun s ts _ => s.Written ts := by
  refine (Spends.advance kind rfl).bind fun _ ts d first => ?_
  refine (Spends.require .afterFor).bind fun _ us e opened => ?_
  refine (Spends.name .loopVariable).bind fun named vs f taken => .peek ?_
  subst first opened taken
  split
  · rename_i word
    refine (Spends.advance word rfl).bind fun _ ws g inWord => ?_
    refine (accounts.expression g).bind fun sequence xs h carried => ?_
    refine (Spends.require .afterLoopExpression).bind fun _ ys i closed => ?_
    refine accounts.body.bind fun body zs k written => .pure ?_
    subst inWord closed
    have header := (Carries.loopHeader named.1).append (carried.before (.symbol .rightParen))
    simpa [Place.token] using Stmt.Written.forLoop header written
  · exact (Spends.fail _).never

theorem statementOver : Spends (Parse.statementOver nested) c fun s ts _ => s.Written ts := by
  refine .peek ?_
  have expr : Spends (nested.expression >>= fun e => Pure.pure (Stmt.expr e)) c
      fun s ts _ => s.Written ts :=
    (accounts.expression c).bind fun e ts d carried => .pure (.plain rfl (carried.before .nil))
  cases kind : c.kind with
  | keyword k =>
    cases k with
    | if_ => exact accounts.ifElse kind
    | while_ => exact accounts.whileLoop kind
    | for_ => exact accounts.forLoop kind
    | return_ => exact accounts.returnValue kind
    | break_ =>
      refine (Spends.advance kind rfl).bind fun span ts d taken => .pure (.plain rfl ?_)
      subst taken
      exact .keyword nofun rfl
    | _ => exact expr
  | symbol s =>
    cases s with
    | leftBrace =>
      refine (Spends.advance kind rfl).bind fun _ ts d opened => ?_
      refine accounts.block.bind fun body us e ⟨b, vs, lines, closed⟩ => .pure ?_
      subst opened closed
      simpa using Stmt.Written.block lines
    | _ => exact expr
  | _ => exact expr

theorem declarationOver : Spends (Parse.declarationOver nested) c fun s ts _ => s.Written ts := by
  refine .peek ?_
  have statement := accounts.statementOver (c := c)
  cases kind : c.kind with
  | keyword k =>
    cases k with
    | class_ =>
      refine (Spends.advance kind rfl).bind fun _ ts d first => ?_
      refine (accounts.classDecl false).mono fun s us e written => ?_
      exact written ts (first ▸ .keyword nofun rfl)
    | foreign =>
      refine (Spends.advance kind rfl).bind fun _ ts d first => ?_
      refine (Spends.require .afterForeign).bind fun _ us e second => ?_
      refine (accounts.classDecl true).mono fun s vs f written => ?_
      rw [← List.append_assoc]
      subst first second
      exact written _ (.behind (.keyword nofun rfl) (.keyword nofun rfl))
    | import_ => exact importNames kind
    | var => exact accounts.var kind
    | _ => exact statement
  | _ => exact statement

/-! ### Statements of any nesting -/

omit accounts in
theorem nestedUpTo {e : Parse Expr} (expressions : ScriptHost.Accounts e) (levels : Nat) :
    (Parse.nestedUpTo e levels).Accounts := by
  induction levels with
  | zero => exact ⟨expressions, fun c => .fail _, fun c => .fail _⟩
  | succ levels ih =>
    exact ⟨expressions, fun c => ih.statementOver, fun c => ih.declarationOver⟩

end Parse.Nested.Accounts

/-- An item is a statement and the end of its line. -/
theorem Spends.item (levels : Nat) : Spends (Parse.item levels) c fun s ts d =>
    ∃ us vs, s.Written us ∧ ts = us ++ vs ∧ LineEnd vs d := by
  have accounts := Nested.Accounts.nestedUpTo (.expressionUpTo levels) levels
  refine (accounts.declaration c).bind fun s us d written => ?_
  exact Spends.terminator.bind fun _ vs e ends => .pure ⟨us, vs, written, by simp, ends⟩

end ScriptHost
