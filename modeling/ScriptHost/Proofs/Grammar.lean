import ScriptHost.Source.Tree.Statements

/-! What holds of every reader. The grammar puts its readers together from a few actions in a few
ways. A property that the actions have, and that these ways keep, is therefore one of every item of
a script; there is one lemma here for each rule of the grammar. -/

namespace ScriptHost

open Parse

/-- The assignment of a value whose mark is at a span. -/
def Parse.settled (left : Expr) (mark : Span) (value : Expr) : Parse Expr :=
  match target? left with
  | some target => return .assign (left.span.merge value.span) target value
  | none => throw ⟨.assignmentTarget, mark⟩

/-- The rest of an assignment whose mark is the next token. -/
def Parse.assigned (nested : Parse Expr) (left : Expr) : Parse Expr := do
  let mark ← advance
  skipNewlines
  let value ← nested
  settled left mark value

/-- A property of actions at cursors, with the ways that keep it. An assignment and a string with
interpolated source are rules of their own, since their faults may be at a token that is already
read. -/
structure GrammarRules (At : ∀ {α : Type}, Parse α → Cursor → Prop) : Prop where
  pure : ∀ {α : Type} (a : α) (c : Cursor), At (pure a) c
  bind : ∀ {α β : Type} {x : Parse α} {f : α → Parse β} {c : Cursor}, At x c →
    (∀ a d, At (f a) d) → At (x >>= f) c
  cursor : ∀ {α : Type} {f : Cursor → Parse α} {c : Cursor}, At (f c) c → At (get >>= f) c
  peek : ∀ {α : Type} {f : TokenKind → Parse α} {c : Cursor}, At (f c.kind) c →
    At (Parse.peek >>= f) c
  peekSpan : ∀ {α : Type} {f : Span → Parse α} {c : Cursor}, At (f c.span) c →
    At (Parse.peekSpan >>= f) c
  lastSpan : ∀ {α : Type} {f : Span → Parse α} {c : Cursor}, At (f c.last) c →
    At (Parse.lastSpan >>= f) c
  fail : ∀ {α : Type} (fault : SyntaxFault) (c : Cursor), At (Parse.fail fault : Parse α) c
  advance : ∀ c : Cursor, At Parse.advance c
  accept : ∀ (test : TokenKind → Bool) (c : Cursor), At (Parse.accept test) c
  skipNewlines : ∀ c : Cursor, At Parse.skipNewlines c
  string : ∀ {nested : Parse Expr} {parts : List StringPart} {c : Cursor},
    (∀ d, At nested d) → c.kind = .string parts →
    At (Parse.advance >>= fun _ => Parse.string nested c.span parts) c
  assigned : ∀ {nested : Parse Expr} (left : Expr) (c : Cursor), (∀ d, At nested d) →
    At (Parse.assigned nested left) c

namespace GrammarRules

variable {At : ∀ {α : Type}, Parse α → Cursor → Prop} (rules : GrammarRules @At)
variable {α : Type}
include rules

/-! ### Actions -/

theorem map {β : Type} {x : Parse α} {c : Cursor} (h : At x c) (f : α → β) : At (f <$> x) c := by
  rw [map_eq_pure_bind]
  exact rules.bind h fun a d => rules.pure (f a) d

theorem atSymbol (s : Symbol) {f : Bool → Parse α} {c : Cursor}
    (h : At (f (c.kind.isSymbol s)) c) : At (Parse.atSymbol s >>= f) c := by
  have step : (Parse.atSymbol s >>= f) = (Parse.peek >>= fun kind => f (kind.isSymbol s)) := rfl
  rw [step]
  exact rules.peek h

theorem acceptSymbol (s : Symbol) (c : Cursor) : At (Parse.acceptSymbol s) c := rules.accept _ c

theorem acceptKeyword (k : Keyword) (c : Cursor) : At (Parse.acceptKeyword k) c :=
  rules.accept _ c

theorem require (place : Place) (c : Cursor) : At (Parse.require place) c := by
  refine rules.peek ?_
  split
  · exact rules.advance c
  · exact rules.fail _ c

theorem name (role : NameRole) (c : Cursor) : At (Parse.name role) c := by
  refine rules.peek ?_
  split
  · exact rules.bind (rules.advance c) fun _ d => rules.pure _ d
  · exact rules.fail _ c

theorem iterate {step : α → Parse (Option α)} (steps : ∀ a c, At (step a) c) (fuel : List Token)
    (a : α) (c : Cursor) : At (Parse.iterate step fuel a) c := by
  induction fuel generalizing a c with
  | nil =>
    refine rules.bind (steps a c) fun next d => ?_
    cases next with
    | some b => exact rules.fail _ d
    | none => exact rules.pure _ d
  | cons t fuel ih =>
    refine rules.bind (steps a c) fun next d => ?_
    cases next with
    | some b => exact ih b d
    | none => exact rules.pure _ d

theorem loop {step : α → Parse (Option α)} (steps : ∀ a c, At (step a) c) (a : α) (c : Cursor) :
    At (Parse.loop step a) c :=
  rules.cursor (rules.iterate steps _ a c)

theorem thenNewlines {x : Parse α} (h : ∀ c, At x c) (c : Cursor) : At (Parse.thenNewlines x) c :=
  rules.bind (h c) fun _ d => rules.bind (rules.skipNewlines d) fun _ e => rules.pure _ e

theorem separated {item : Parse α} {stop : Parse Bool} (items : ∀ c, At item c)
    (stops : ∀ c, At stop c) (c : Cursor) : At (Parse.separated item stop) c := by
  refine rules.bind (items c) fun first d => ?_
  refine rules.bind (rules.loop (fun found e => ?_) [first] d) fun found e => rules.pure _ e
  refine rules.bind (rules.acceptSymbol .comma e) fun comma f => ?_
  split
  · refine rules.bind (rules.skipNewlines f) fun _ g => rules.bind (stops g) fun stopped h => ?_
    split
    · exact rules.pure _ h
    · exact rules.bind (items h) fun _ i => rules.pure _ i
  · exact rules.pure _ f

/-! ### Expressions -/

section

variable {nested : Parse Expr} (expression : ∀ c, At nested c)
include expression

theorem whole (c : Cursor) : At (Parse.whole nested) c := by
  refine rules.bind (rules.skipNewlines c) fun _ d => ?_
  refine rules.bind (rules.thenNewlines expression d) fun e f => rules.peek ?_
  split
  · exact rules.pure _ f
  · exact rules.fail _ f

theorem arguments (c : Cursor) : At (Parse.arguments nested) c := by
  refine rules.bind (rules.acceptSymbol .leftParen c) fun opened d => ?_
  split
  · have close (args : List Expr) (e : Cursor) :
        At (Parse.require .afterArguments >>= fun _ => Pure.pure (some args)) e :=
      rules.bind (rules.require _ e) fun _ f => rules.pure _ f
    refine rules.bind (rules.skipNewlines d) fun _ e => rules.atSymbol _ ?_
    split
    · exact close [] e
    · exact rules.bind
        (rules.separated (rules.thenNewlines expression) (fun f => rules.pure false f) e) close
  · exact rules.pure _ d

theorem primary (c : Cursor) : At (Parse.primary nested) c := by
  refine rules.peekSpan (rules.peek ?_)
  have single (e : Expr) : At (Parse.advance >>= fun _ => Pure.pure e) c :=
    rules.bind (rules.advance c) fun _ d => rules.pure e d
  split
  · exact single _
  · exact single _
  · exact single _
  · exact single _
  · exact single _
  · exact single _
  · rename_i parts kind
    exact rules.string expression kind
  · refine rules.bind (rules.advance c) fun _ d => ?_
    refine rules.bind (rules.arguments expression d) fun args e => ?_
    split
    · exact rules.pure _ e
    · exact rules.lastSpan (rules.pure _ e)
  · refine rules.bind (rules.advance c) fun _ d => rules.bind (rules.skipNewlines d) fun _ e => ?_
    refine rules.bind (rules.thenNewlines expression e) fun found f => ?_
    exact rules.bind (rules.require _ f) fun _ g => rules.pure _ g
  · have close (elements : List Expr) (e : Cursor) :
        At (Parse.require .afterListElements >>= fun stop =>
          Pure.pure (Expr.list (c.span.merge stop) elements)) e :=
      rules.bind (rules.require _ e) fun _ f => rules.pure _ f
    refine rules.bind (rules.advance c) fun _ d => rules.bind (rules.skipNewlines d) fun _ e => ?_
    refine rules.atSymbol _ ?_
    split
    · exact close [] e
    · refine rules.bind (rules.separated (rules.thenNewlines expression) (fun f => ?_) e) close
      exact rules.peek (rules.pure _ f)
  · exact rules.fail _ c

theorem selector (e : Expr) (c : Cursor) : At (Parse.selector nested e) c := by
  refine rules.bind (rules.acceptSymbol .dot c) fun dotted d => ?_
  split
  · refine rules.bind (rules.name .member d) fun found f => ?_
    refine rules.bind (rules.arguments expression f) fun args g => ?_
    exact rules.lastSpan (rules.pure _ g)
  · refine rules.bind (rules.acceptSymbol .leftBracket d) fun opened f => ?_
    split
    · refine rules.bind (rules.skipNewlines f) fun _ g => ?_
      refine rules.bind (rules.thenNewlines expression g) fun index h => ?_
      exact rules.bind (rules.require _ h) fun _ i => rules.pure _ i
    · exact rules.pure _ f

omit expression in
theorem unaryOps (c : Cursor) : At Parse.unaryOps c := by
  refine rules.loop (fun ops d => rules.peek ?_) [] c
  split
  · exact rules.bind (rules.advance d) fun _ e => rules.pure _ e
  · exact rules.pure _ d

theorem unary (c : Cursor) : At (Parse.unary nested) c := by
  refine rules.bind (rules.unaryOps c) fun ops d => ?_
  have postfixed : At (Parse.postfixed nested) d :=
    rules.bind (rules.primary expression d) fun e f =>
      rules.loop (fun e g => rules.selector expression e g) e f
  exact rules.bind postfixed fun operand f => rules.pure _ f

theorem operands (level : Nat) (c : Cursor) : At (Parse.operands nested level) c := by
  induction level generalizing c with
  | zero => exact rules.unary expression c
  | succ level ih =>
    refine rules.bind (ih c) fun lhs d => rules.loop (fun lhs e => rules.peek ?_) lhs d
    split
    · exact rules.pure _ e
    · refine rules.bind (rules.advance e) fun _ f => rules.bind (rules.skipNewlines f) fun _ g => ?_
      exact rules.bind (ih g) fun rhs h => rules.pure _ h

theorem expressionOver (c : Cursor) : At (Parse.expressionOver nested) c := by
  refine rules.bind (rules.operands expression 6 c) fun left d => rules.atSymbol _ ?_
  split
  · exact rules.assigned left d expression
  · exact rules.pure _ d

omit expression in
theorem expressionUpTo (levels : Nat) (c : Cursor) : At (Parse.expressionUpTo levels) c := by
  induction levels generalizing c with
  | zero => exact rules.fail _ c
  | succ levels ih => exact rules.expressionOver ih c

end

/-! ### What holds no statements -/

theorem terminator (c : Cursor) : At Parse.terminator c := by
  refine rules.peek ?_
  split
  · exact rules.bind (rules.advance c) fun _ d => rules.pure _ d
  · exact rules.pure _ c
  · exact rules.pure _ c
  · exact rules.fail _ c

theorem bracedLines {line : Parse α} (lines : ∀ c, At line c) (unclosed : SyntaxFault)
    (c : Cursor) : At (Parse.bracedLines line unclosed) c := by
  refine rules.bind (rules.loop (fun found d => ?_) ([], false) c) fun found d => rules.pure _ d
  obtain ⟨found, closed⟩ := found
  have more (e : Cursor) : At (line >>= fun item => Pure.pure (some (item :: found, false))) e :=
    rules.bind (lines e) fun _ f => rules.pure _ f
  cases closed with
  | true => exact rules.pure _ d
  | false =>
    refine rules.bind (rules.skipNewlines d) fun _ e => ?_
    refine rules.bind (rules.acceptSymbol .rightBrace e) fun closes f => ?_
    cases closes with
    | true => exact rules.pure _ f
    | false =>
      refine rules.peek ?_
      cases f.kind.isEnd with
      | true => exact rules.bind (rules.fail unclosed f) fun _ g => more g
      | false => exact more f

theorem parameters (c : Cursor) : At Parse.parameters c := by
  have close (params : List String) (d : Cursor) :
      At (Parse.require .afterParameters >>= fun _ => Pure.pure params) d :=
    rules.bind (rules.require _ d) fun _ e => rules.pure _ e
  refine rules.bind (rules.require _ c) fun _ d => rules.bind (rules.skipNewlines d) fun _ e => ?_
  refine rules.atSymbol _ ?_
  split
  · exact close [] e
  · have param (f : Cursor) : At (do return (← Parse.name .parameter).1) f :=
      rules.bind (rules.name _ f) fun _ g => rules.pure _ g
    exact rules.bind
      (rules.separated (rules.thenNewlines param) (fun f => rules.pure false f) e) close

theorem methodShape (isConstructor : Bool) (c : Cursor) :
    At (Parse.methodShape isConstructor) c := by
  refine rules.atSymbol _ ?_
  split
  · exact rules.bind (rules.parameters c) fun _ d => rules.pure _ d
  · split
    · exact rules.fail _ c
    · exact rules.pure _ c

theorem moduleName (c : Cursor) : At Parse.moduleName c := by
  refine rules.peek ?_
  split
  · exact rules.bind (rules.advance c) fun _ d => rules.pure _ d
  · exact rules.fail _ c
  · exact rules.fail _ c

theorem importNames (c : Cursor) : At Parse.importNames c := by
  refine rules.bind (rules.advance c) fun span d => ?_
  refine rules.bind (rules.moduleName d) fun file e => ?_
  refine rules.bind (rules.acceptKeyword .for_ e) fun listed f => ?_
  split
  · have name (g : Cursor) : At (do return (← Parse.name .variable).1) g :=
      rules.bind (rules.name _ g) fun _ h => rules.pure _ h
    exact rules.bind (rules.separated name (fun g => rules.pure false g) f) fun _ g =>
      rules.pure _ g
  · exact rules.pure _ f

/-! ### Statements -/

section

variable {nested : Nested} (expression : ∀ c, At nested.expression c)
  (statement : ∀ c, At nested.statement c) (declaration : ∀ c, At nested.declaration c)

include declaration in
theorem block (c : Cursor) : At (Parse.block nested) c :=
  rules.bracedLines (fun d => rules.bind (declaration d) fun _ e =>
    rules.bind (rules.terminator e) fun _ f => rules.pure _ f) _ c

include statement declaration in
theorem body (c : Cursor) : At (Parse.body nested) c := by
  refine rules.bind (rules.acceptSymbol .leftBrace c) fun opened d => ?_
  split
  · exact rules.bind (rules.block declaration d) fun _ e => rules.pure _ e
  · exact statement d

include expression in
theorem condition (before after : Place) (c : Cursor) :
    At (Parse.condition nested before after) c := by
  refine rules.bind (rules.require before c) fun _ d =>
    rules.bind (rules.skipNewlines d) fun _ e => ?_
  refine rules.bind (rules.thenNewlines expression e) fun _ f => ?_
  exact rules.bind (rules.require after f) fun _ g => rules.pure _ g

include declaration in
theorem methodBody (c : Cursor) : At (Parse.methodBody nested) c := by
  refine rules.bind (rules.require _ c) fun _ d => ?_
  refine rules.bind (rules.acceptSymbol .rightBrace d) fun empty e => ?_
  split
  · exact rules.pure _ e
  · refine rules.peek ?_
    split
    · exact rules.block declaration e
    · refine rules.bind (declaration e) fun s f => ?_
      exact rules.bind (rules.require _ f) fun _ g => rules.pure _ g

include declaration in
theorem methodLine (c : Cursor) : At (Parse.methodLine nested) c := by
  have method : At (Parse.method nested) c := by
    refine rules.bind (rules.acceptKeyword _ c) fun isForeign d => ?_
    refine rules.bind (rules.acceptKeyword _ d) fun isStatic e => ?_
    refine rules.bind (rules.acceptKeyword _ e) fun isConstructor f => ?_
    have read (g : Cursor) : At
        (Parse.name .method >>= fun named => Parse.methodShape isConstructor >>= fun shape => do
          let body ← if isForeign then Pure.pure none else some <$> Parse.methodBody nested
          Pure.pure
            (⟨named.1, shape.1, shape.2, isStatic, isForeign, named.2, body⟩ : MethodDecl)) g := by
      refine rules.bind (rules.name _ g) fun named h => ?_
      refine rules.bind (rules.methodShape _ h) fun shape i => ?_
      cases isForeign with
      | true => exact rules.bind (rules.pure none i) fun body k => rules.pure _ k
      | false =>
        exact rules.bind (rules.map (rules.methodBody declaration i) some) fun body k =>
          rules.pure _ k
    cases isConstructor && (isForeign || isStatic) with
    | true => exact rules.bind (rules.fail _ f) fun _ g => read g
    | false => exact read f
  refine rules.bind method fun decl d => rules.atSymbol _ ?_
  split
  · exact rules.bind (rules.require _ d) fun _ e => rules.pure _ e
  · exact rules.pure _ d

include declaration in
theorem classDecl (isForeign : Bool) (c : Cursor) : At (Parse.classDecl nested isForeign) c := by
  refine rules.bind (rules.name _ c) fun named d => rules.bind (rules.require _ d) fun _ e => ?_
  exact rules.bind (rules.bracedLines (rules.methodLine declaration) _ e) fun _ f => rules.pure _ f

include expression in
theorem var (c : Cursor) : At (Parse.var nested) c := by
  refine rules.bind (rules.advance c) fun span d => rules.bind (rules.name _ d) fun named e => ?_
  refine rules.bind (rules.acceptSymbol _ e) fun assigned f => ?_
  split
  · refine rules.bind (rules.skipNewlines f) fun _ g => ?_
    exact rules.bind (expression g) fun _ h => rules.pure _ h
  · exact rules.pure _ f

include expression in
theorem returnValue (c : Cursor) : At (Parse.returnValue nested) c := by
  refine rules.bind (rules.advance c) fun span d => rules.peek ?_
  split
  · exact rules.pure _ d
  · exact rules.pure _ d
  · exact rules.pure _ d
  · exact rules.bind (expression d) fun _ e => rules.pure _ e

include expression statement declaration

theorem ifElse (c : Cursor) : At (Parse.ifElse nested) c := by
  refine rules.bind (rules.advance c) fun _ d => ?_
  refine rules.bind (rules.condition expression _ _ d) fun e f => ?_
  refine rules.bind (rules.body statement declaration f) fun thenBranch g => ?_
  refine rules.bind (rules.acceptKeyword _ g) fun more h => ?_
  split
  · exact rules.bind (rules.body statement declaration h) fun _ i => rules.pure _ i
  · exact rules.pure _ h

theorem whileLoop (c : Cursor) : At (Parse.whileLoop nested) c := by
  refine rules.bind (rules.advance c) fun _ d => ?_
  refine rules.bind (rules.condition expression _ _ d) fun e f => ?_
  exact rules.bind (rules.body statement declaration f) fun _ g => rules.pure _ g

theorem forLoop (c : Cursor) : At (Parse.forLoop nested) c := by
  refine rules.bind (rules.advance c) fun _ d => rules.bind (rules.require _ d) fun _ e => ?_
  refine rules.bind (rules.name _ e) fun named f => rules.peek ?_
  have rest (g : Cursor) : At (nested.expression >>= fun sequence =>
      Parse.require .afterLoopExpression >>= fun _ => Parse.body nested >>= fun body =>
        Pure.pure (Stmt.forLoop named.1 sequence body)) g := by
    refine rules.bind (expression g) fun sequence h => rules.bind (rules.require _ h) fun _ i => ?_
    exact rules.bind (rules.body statement declaration i) fun _ k => rules.pure _ k
  split
  · exact rules.bind (rules.advance f) fun _ g => rest g
  · exact rules.bind (rules.fail _ f) fun _ g => rest g

theorem statementOver (c : Cursor) : At (Parse.statementOver nested) c := by
  refine rules.peek ?_
  split
  · exact rules.ifElse expression statement declaration c
  · exact rules.whileLoop expression statement declaration c
  · exact rules.forLoop expression statement declaration c
  · exact rules.returnValue expression c
  · exact rules.bind (rules.advance c) fun _ d => rules.pure _ d
  · refine rules.bind (rules.advance c) fun _ d => ?_
    exact rules.bind (rules.block declaration d) fun _ e => rules.pure _ e
  · exact rules.bind (expression c) fun _ d => rules.pure _ d

theorem declarationOver (c : Cursor) : At (Parse.declarationOver nested) c := by
  refine rules.peek ?_
  split
  · exact rules.bind (rules.advance c) fun _ d => rules.classDecl declaration false d
  · refine rules.bind (rules.advance c) fun _ d => rules.bind (rules.require _ d) fun _ e => ?_
    exact rules.classDecl declaration true e
  · exact rules.importNames c
  · exact rules.var expression c
  · exact rules.statementOver expression statement declaration c

end

theorem nestedUpTo {expression : Parse Expr} (expressions : ∀ c, At expression c) (levels : Nat) :
    (∀ c, At (Parse.nestedUpTo expression levels).expression c) ∧
      (∀ c, At (Parse.nestedUpTo expression levels).statement c) ∧
      ∀ c, At (Parse.nestedUpTo expression levels).declaration c := by
  induction levels with
  | zero => exact ⟨expressions, rules.fail _, rules.fail _⟩
  | succ levels ih =>
    obtain ⟨expression, statement, declaration⟩ := ih
    exact ⟨expressions, rules.statementOver expression statement declaration,
      rules.declarationOver expression statement declaration⟩

/-- What the ways of the grammar keep holds of every item. -/
theorem item (levels : Nat) (c : Cursor) : At (Parse.item levels) c := by
  obtain ⟨-, -, declaration⟩ := rules.nestedUpTo (rules.expressionUpTo levels) levels
  refine rules.bind (declaration c) fun s d => ?_
  exact rules.bind (rules.terminator d) fun _ e => rules.pure _ e

end GrammarRules
end ScriptHost
