import ScriptHost.Proofs.Placement.Expressions
import ScriptHost.Source.Tree.Statements

/-! Statements along a row of tokens. What a statement needs of the place where its reading starts
is only that the tokens left are a row, so that its readers are put together without cursors. -/

namespace ScriptHost

open Parse

variable {text : List UInt8} {top : Nat} {α β : Type}

/-- Along every row of tokens in a text, the action finds a result as `P` says, or a fault at a true
place. -/
def Gives (text : List UInt8) (top : Nat) (x : Parse α) (P : α → Prop) : Prop :=
  ∀ c : Cursor, c.Sound text top → Finds text top x c fun a d => P a ∧ d.Sound text top

namespace Gives

variable {x : Parse α} {k : α → Parse β} {P : α → Prop} {R : β → Prop}

/-! ### Rules -/

theorem pure {a : α} (h : P a) : Gives text top (pure a) P := fun _ sound => .pure ⟨h, sound⟩

theorem bind (first : Gives text top x P) (second : ∀ a, P a → Gives text top (k a) R) :
    Gives text top (x >>= k) R :=
  fun c sound => (first c sound).bind fun a d found => second a found.1 d found.2

theorem map {f : α → β} (first : Gives text top x P) (post : ∀ a, P a → R (f a)) :
    Gives text top (f <$> x) R :=
  fun c sound => (first c sound).map fun a _ found => ⟨post a found.1, found.2⟩

theorem of_finds {Q : α → Cursor → Cursor → Prop}
    (h : ∀ c, Cursor.Sound text top c → Finds text top x c fun a d => Q a c d)
    (post : ∀ a c d, Q a c d → P a ∧ d.Sound text top) : Gives text top x P :=
  fun c sound => (h c sound).mono fun a d => post a c d

/-! ### Actions -/

theorem fail (fault : SyntaxFault) : Gives text top (fail fault) P :=
  fun _ sound => .fail sound fault

theorem peek {k : TokenKind → Parse β} (h : ∀ kind, Gives text top (k kind) R) :
    Gives text top (Parse.peek >>= k) R := fun c sound => .peek (h c.kind c sound)

theorem atSymbol {s : Symbol} {k : Bool → Parse β} (h : ∀ found, Gives text top (k found) R) :
    Gives text top (Parse.atSymbol s >>= k) R := peek fun kind => h (kind.isSymbol s)

theorem advance : Gives text top advance (Span.TrueIn text) :=
  fun _ sound => ⟨sound.span, sound.next⟩

theorem acceptSymbol (s : Symbol) : Gives text top (acceptSymbol s) fun _ => True :=
  of_finds (fun _ sound => .acceptSymbol sound s) fun _ _ _ after => ⟨trivial, after.toSound⟩

theorem acceptKeyword (k : Keyword) : Gives text top (acceptKeyword k) fun _ => True :=
  of_finds (fun _ sound => .acceptKeyword sound k) fun _ _ _ after => ⟨trivial, after.toSound⟩

theorem require (place : Place) : Gives text top (require place) (Span.TrueIn text) := by
  refine of_finds (fun _ sound => .require sound place) ?_
  rintro _ _ _ ⟨rfl, after⟩
  exact ⟨after.last, after.toSound⟩

theorem name (role : NameRole) : Gives text top (name role) fun found => found.2.TrueIn text := by
  refine of_finds (fun _ sound => .name sound role) ?_
  rintro ⟨_, _⟩ _ _ ⟨rfl, after⟩
  exact ⟨after.last, after.toSound⟩

theorem skipNewlines : Gives text top skipNewlines fun _ => True :=
  of_finds (fun _ sound => .skipNewlines sound) fun _ _ _ after => ⟨trivial, after.toSound⟩

theorem thenNewlines (h : Gives text top x P) : Gives text top (thenNewlines x) P :=
  h.bind fun _ found => skipNewlines.bind fun _ _ => pure found

theorem loop {P : α → Prop} {step : α → Parse (Option α)}
    (steps : ∀ a, P a → Gives text top (step a) fun next => ∀ b ∈ next, P b) {a : α} (h : P a) :
    Gives text top (loop step a) P := by
  intro c sound
  refine .loop (I := fun a d => P a ∧ d.Sound text top) (fun _ _ kept => kept.2)
    (fun b d kept => (steps b kept.1 d kept.2).mono fun next e found => ?_) ⟨h, sound⟩
  cases next with
  | none => exact ⟨kept.1, found.2⟩
  | some a => exact ⟨found.1 a rfl, found.2⟩

/-- Names, one after the other. -/
theorem separated {stop : Parse Bool} (items : Gives text top x fun _ => True)
    (stops : Gives text top stop fun _ => True) :
    Gives text top (separated x stop) fun _ => True := by
  refine items.bind fun _ _ => (loop (P := fun _ => True) (fun _ _ => ?_) trivial).bind
    fun _ _ => pure trivial
  refine (acceptSymbol .comma).bind fun comma _ => ?_
  cases comma with
  | false => exact pure nofun
  | true =>
    refine skipNewlines.bind fun _ _ => stops.bind fun stopped _ => ?_
    cases stopped with
    | true => exact pure nofun
    | false => exact items.bind fun _ _ => pure fun _ _ => trivial

theorem terminator : Gives text top terminator fun _ => True := by
  refine peek fun kind => ?_
  split
  · exact advance.bind fun _ _ => pure trivial
  · exact pure trivial
  · exact pure trivial
  · exact fail _

/-- What is true of every line between braces. -/
theorem bracedLines {line : Parse α} (lines : Gives text top line P) (unclosed : SyntaxFault) :
    Gives text top (bracedLines line unclosed) fun items => ∀ a ∈ items, P a := by
  refine (loop (P := fun found : List α × Bool => ∀ a ∈ found.1, P a) (fun found all => ?_)
    (by simp)).bind fun found all => pure (by simpa using all)
  obtain ⟨items, closed⟩ := found
  have read : Gives text top
      (line >>= fun item => Pure.pure (some (item :: items, false))) fun next =>
        ∀ found ∈ next, ∀ a ∈ found.1, P a := by
    refine lines.bind fun item here => pure ?_
    rintro _ ⟨⟩
    exact List.forall_mem_cons.mpr ⟨here, all⟩
  cases closed with
  | true => exact pure nofun
  | false =>
    refine skipNewlines.bind fun _ _ => (acceptSymbol .rightBrace).bind fun last _ => ?_
    cases last with
    | true =>
      refine pure ?_
      rintro _ ⟨⟩
      exact all
    | false =>
      refine peek fun kind => ?_
      cases kind.isEnd with
      | true => exact (fail (P := fun _ => True) _).bind fun _ _ => read
      | false => exact read

end Gives

/-! ### Statements -/

/-- Three readers whose results are placed in a text. -/
structure NestedPlaces (text : List UInt8) (top : Nat) (x : Nested) : Prop where
  expression : Gives text top x.expression (Expr.Placed text)
  statement : Gives text top x.statement (Stmt.Placed text)
  declaration : Gives text top x.declaration (Stmt.Placed text)

theorem Places.gives {x : Parse Expr} (h : Places text x) :
    Gives text top x (Expr.Placed text) :=
  fun c sound => (h top _ c sound.ahead).mono fun _ _ found => ⟨found.sited.placed, found.toSound⟩

namespace NestedPlaces

variable {x : Nested}

theorem block (nested : NestedPlaces text top x) :
    Gives text top (Parse.block x) fun body => ∀ s ∈ body, s.Placed text :=
  .bracedLines (nested.declaration.bind fun _ placed => Gives.terminator.bind fun _ _ =>
    .pure placed) _

theorem placed_block {body : List Stmt} (placed : ∀ s ∈ body, s.Placed text) :
    (Stmt.block body).Placed text :=
  .mk nofun nofun placed

theorem body (nested : NestedPlaces text top x) :
    Gives text top (Parse.body x) (Stmt.Placed text) := by
  refine (Gives.acceptSymbol .leftBrace).bind fun opened _ => ?_
  cases opened with
  | true => exact nested.block.bind fun _ placed => .pure (placed_block placed)
  | false => exact nested.statement

theorem condition (nested : NestedPlaces text top x) (before after : Place) :
    Gives text top (Parse.condition x before after) (Expr.Placed text) :=
  (Gives.require before).bind fun _ _ => Gives.skipNewlines.bind fun _ _ =>
    nested.expression.thenNewlines.bind fun _ placed => (Gives.require after).bind fun _ _ =>
      .pure placed

theorem placed_returned {s : Stmt} (placed : s.Placed text) : (returned s).Placed text := by
  cases s with
  | expr e =>
    cases placed with
    | mk _ expressions _ =>
      refine .mk ?_ expressions nofun
      exact List.forall_mem_singleton.mpr (expressions e List.mem_cons_self).span
  | _ => exact placed

theorem methodBody (nested : NestedPlaces text top x) :
    Gives text top (Parse.methodBody x) fun body => ∀ s ∈ body, s.Placed text := by
  refine (Gives.require .beforeMethodBody).bind fun _ _ => ?_
  refine (Gives.acceptSymbol .rightBrace).bind fun empty _ => ?_
  cases empty with
  | true => exact .pure nofun
  | false =>
    refine .peek fun kind => ?_
    cases kind.isNewline with
    | true => exact nested.block
    | false =>
      refine nested.declaration.bind fun s placed => (Gives.require .afterMethodBody).bind
        fun _ _ => .pure ?_
      exact List.forall_mem_singleton.mpr (placed_returned placed)

end NestedPlaces

theorem Gives.parameters : Gives text top Parse.parameters fun _ => True := by
  have close (params : List String) : Gives text top
      (Parse.require .afterParameters >>= fun _ => Pure.pure params) fun _ => True :=
    (require .afterParameters).bind fun _ _ => pure trivial
  refine (require .beforeParameters).bind fun _ _ => skipNewlines.bind fun _ _ => atSymbol ?_
  intro closed
  cases closed with
  | true => exact close []
  | false =>
    refine (separated (.thenNewlines ?_) (pure trivial)).bind fun params _ => close params
    exact (name .parameter).bind fun _ _ => pure trivial

theorem Gives.methodShape (isConstructor : Bool) :
    Gives text top (Parse.methodShape isConstructor) fun _ => True := by
  refine atSymbol fun opened => ?_
  cases opened with
  | true => exact parameters.bind fun _ _ => pure trivial
  | false =>
    cases isConstructor with
    | true => exact fail _
    | false => exact pure trivial

namespace NestedPlaces

variable {x : Nested}

theorem method (nested : NestedPlaces text top x) :
    Gives text top (Parse.method x) (MethodDecl.Placed text) := by
  refine (Gives.acceptKeyword .foreign).bind fun isForeign _ => ?_
  refine (Gives.acceptKeyword .static).bind fun isStatic _ => ?_
  refine (Gives.acceptKeyword .construct).bind fun isConstructor _ => ?_
  have read : Gives text top
      (Parse.name .method >>= fun named => Parse.methodShape isConstructor >>= fun shape => do
        let body ← if isForeign then Pure.pure none else some <$> Parse.methodBody x
        Pure.pure ⟨named.1, shape.1, shape.2, isStatic, isForeign, named.2, body⟩)
      (MethodDecl.Placed text) := by
    refine (Gives.name .method).bind fun named span => ?_
    refine (Gives.methodShape isConstructor).bind fun shape _ => ?_
    cases isForeign with
    | true => exact .pure ⟨span, nofun⟩
    | false =>
      exact (nested.methodBody.map (R := fun body => ∀ s ∈ body.getD [], s.Placed text)
        fun _ => id).bind fun body placed => .pure ⟨span, placed⟩
  cases isConstructor && (isForeign || isStatic) with
  | true => exact (Gives.fail (P := fun _ => True) _).bind fun _ _ => read
  | false => exact read

theorem methodLine (nested : NestedPlaces text top x) :
    Gives text top (Parse.methodLine x) (MethodDecl.Placed text) := by
  refine nested.method.bind fun decl placed => .atSymbol fun closed => ?_
  cases closed with
  | true => exact .pure placed
  | false => exact (Gives.require .afterMethod).bind fun _ _ => .pure placed

theorem classDecl (nested : NestedPlaces text top x) (isForeign : Bool) :
    Gives text top (Parse.classDecl x isForeign) (Stmt.Placed text) := by
  refine (Gives.name .className).bind fun named span => ?_
  refine (Gives.require .beforeClassBody).bind fun _ _ => ?_
  refine (Gives.bracedLines nested.methodLine _).bind fun methods placed => .pure (.mk ?_ nofun ?_)
  · refine List.forall_mem_cons.mpr ⟨span, fun r there => ?_⟩
    obtain ⟨m, mem, rfl⟩ := List.mem_map.mp there
    exact (placed m mem).span
  · intro s there
    obtain ⟨m, mem, there⟩ := List.mem_flatMap.mp there
    exact (placed m mem).body s there

end NestedPlaces

theorem Gives.moduleName : Gives text top Parse.moduleName fun _ => True := by
  refine peek fun kind => ?_
  split
  · exact advance.bind fun _ _ => pure trivial
  · exact fail _
  · exact fail _

theorem Gives.importNames : Gives text top Parse.importNames (Stmt.Placed text) := by
  have done {span : Span} (true_ : span.TrueIn text) (moduleName : String) (names : List String) :
      Gives text top (Pure.pure (.importNames span moduleName names)) (Stmt.Placed text) :=
    pure (.mk (List.forall_mem_singleton.mpr true_) nofun nofun)
  refine advance.bind fun span true_ => moduleName.bind fun moduleName _ => ?_
  refine (acceptKeyword .for_).bind fun listed _ => ?_
  cases listed with
  | false => exact done true_ _ _
  | true =>
    refine (separated ?_ (pure trivial)).bind fun names _ => done true_ _ _
    exact (name .variable).bind fun _ _ => pure trivial

namespace NestedPlaces

variable {x : Nested}

theorem var (nested : NestedPlaces text top x) :
    Gives text top (Parse.var x) (Stmt.Placed text) := by
  refine Gives.advance.bind fun span true_ => (Gives.name .variable).bind fun named _ => ?_
  refine (Gives.acceptSymbol .assign).bind fun assigned _ => ?_
  cases assigned with
  | false => exact .pure (.mk (List.forall_mem_singleton.mpr true_) nofun nofun)
  | true =>
    exact Gives.skipNewlines.bind fun _ _ => nested.expression.bind fun e placed =>
      .pure (.mk (List.forall_mem_singleton.mpr true_) (List.forall_mem_singleton.mpr placed) nofun)

theorem ifElse (nested : NestedPlaces text top x) :
    Gives text top (Parse.ifElse x) (Stmt.Placed text) := by
  refine Gives.advance.bind fun _ _ => (nested.condition .afterIf .afterIfCondition).bind
    fun e condition => nested.body.bind fun thenBranch then_ => ?_
  have condition := List.forall_mem_singleton.mpr condition
  refine (Gives.acceptKeyword .else_).bind fun more _ => ?_
  cases more with
  | false => exact .pure (.mk nofun condition (List.forall_mem_singleton.mpr then_))
  | true =>
    exact nested.body.bind fun elseBranch else_ => .pure (.mk nofun condition
      (List.forall_mem_cons.mpr ⟨then_, List.forall_mem_singleton.mpr else_⟩))

theorem whileLoop (nested : NestedPlaces text top x) :
    Gives text top (Parse.whileLoop x) (Stmt.Placed text) :=
  Gives.advance.bind fun _ _ => (nested.condition .afterWhile .afterWhileCondition).bind
    fun _ condition => nested.body.bind fun _ placed =>
      .pure (.mk nofun (List.forall_mem_singleton.mpr condition)
        (List.forall_mem_singleton.mpr placed))

theorem forLoop (nested : NestedPlaces text top x) :
    Gives text top (Parse.forLoop x) (Stmt.Placed text) := by
  refine Gives.advance.bind fun _ _ => (Gives.require .afterFor).bind fun _ _ =>
    (Gives.name .loopVariable).bind fun named _ => .peek fun kind => ?_
  have rest : Gives text top
      (do
        let sequence ← x.expression
        let _ ← Parse.require .afterLoopExpression
        let s ← Parse.body x
        Pure.pure (.forLoop named.1 sequence s)) (Stmt.Placed text) :=
    nested.expression.bind fun sequence placed => (Gives.require .afterLoopExpression).bind
      fun _ _ => nested.body.bind fun body inner =>
        .pure (.mk nofun (List.forall_mem_singleton.mpr placed)
          (List.forall_mem_singleton.mpr inner))
  split
  · exact Gives.advance.bind fun _ _ => rest
  · exact (Gives.fail (P := fun _ => True) _).bind fun _ _ => rest

theorem returnValue (nested : NestedPlaces text top x) :
    Gives text top (Parse.returnValue x) (Stmt.Placed text) := by
  refine Gives.advance.bind fun span true_ => .peek fun kind => ?_
  have none : Gives text top (Pure.pure (.returnValue span none)) (Stmt.Placed text) :=
    .pure (.mk (List.forall_mem_singleton.mpr true_) nofun nofun)
  split
  · exact none
  · exact none
  · exact none
  · exact nested.expression.bind fun e placed =>
      .pure (.mk (List.forall_mem_singleton.mpr true_) (List.forall_mem_singleton.mpr placed) nofun)

theorem statementOver (nested : NestedPlaces text top x) :
    Gives text top (Parse.statementOver x) (Stmt.Placed text) := by
  refine .peek fun kind => ?_
  split
  · exact nested.ifElse
  · exact nested.whileLoop
  · exact nested.forLoop
  · exact nested.returnValue
  · exact Gives.advance.bind fun span true_ =>
      .pure (.mk (List.forall_mem_singleton.mpr true_) nofun nofun)
  · exact Gives.advance.bind fun _ _ => nested.block.bind fun _ placed =>
      .pure (placed_block placed)
  · exact nested.expression.bind fun e placed =>
      .pure (.mk nofun (List.forall_mem_singleton.mpr placed) nofun)

theorem declarationOver (nested : NestedPlaces text top x) :
    Gives text top (Parse.declarationOver x) (Stmt.Placed text) := by
  refine .peek fun kind => ?_
  split
  · exact Gives.advance.bind fun _ _ => nested.classDecl false
  · exact Gives.advance.bind fun _ _ => (Gives.require .afterForeign).bind fun _ _ =>
      nested.classDecl true
  · exact .importNames
  · exact nested.var
  · exact nested.statementOver

/-- Statements of any nesting. -/
theorem nestedUpTo {expression : Parse Expr} (places : Places text expression) (levels : Nat) :
    NestedPlaces text top (Parse.nestedUpTo expression levels) := by
  induction levels with
  | zero => exact ⟨places.gives, .fail _, .fail _⟩
  | succ levels ih => exact ⟨places.gives, ih.statementOver, ih.declarationOver⟩

end NestedPlaces

theorem Gives.item (levels : Nat) :
    Gives text top (Parse.item levels) (Stmt.Placed text) :=
  (NestedPlaces.nestedUpTo (.expressionUpTo text levels) levels).declaration.bind
    fun _ placed => terminator.bind fun _ _ => pure placed

end ScriptHost
