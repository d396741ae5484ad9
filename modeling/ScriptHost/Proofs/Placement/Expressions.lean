import ScriptHost.Proofs.Placement.Finds
import ScriptHost.Proofs.Places
import ScriptHost.Source.Tree
import ScriptHost.Source.Tree.Expressions

/-! Where the parts of a script are. A node is placed in a text if every span in it, at any depth,
is a true one of the text, and the parts of an expression stand inside it. Along a row of tokens,
what is read as an expression is placed in the text, between the place where the reading starts and
the last token read. A reader of nested expressions that does so makes every rule of the grammar
over it do so, in interpolated source as in the script itself. -/

namespace ScriptHost

section

variable {text : List UInt8}

/-! ### Placed expressions -/

/-- The expression of a part of a string, if the part is interpolated. -/
def Fragment.code? : Fragment → Option Expr
  | .literal _ => none
  | .code e => some e

/-- The expressions that are direct parts of an expression. -/
def Expr.parts : Expr → List Expr
  | .number .. | .string .. | .bool .. | .null _ | .this _ | .variable .. | .field .. => []
  | .interpolation _ fragments => fragments.filterMap Fragment.code?
  | .list _ elements => elements
  | .unary _ _ operand => [operand]
  | .binary _ _ lhs rhs | .logical _ _ lhs rhs => [lhs, rhs]
  | .assign _ _ value => [value]
  | .getter _ receiver _ => [receiver]
  | .call _ receiver _ args => receiver :: args
  | .subscript _ receiver index => [receiver, index]

/-- The spans of an expression and of all that it is made of are true, and each part is within the
span of the expression that it is a direct part of. -/
inductive Expr.Placed (text : List UInt8) : Expr → Prop
  | mk {e : Expr} : e.span.TrueIn text → (∀ f ∈ e.parts, f.span.Within e.span) →
    (∀ f ∈ e.parts, f.Placed text) → e.Placed text

/-- A placed expression between two offsets. -/
structure Expr.Sited (text : List UInt8) (lo hi : Nat) (e : Expr) : Prop where
  placed : e.Placed text
  start : lo ≤ e.span.start.offset
  stop : e.span.stop.offset ≤ hi

namespace Expr

theorem Placed.span {e : Expr} (h : e.Placed text) : e.span.TrueIn text := by
  cases h with
  | mk span => exact span

theorem Sited.mono {lo lo' hi hi' : Nat} {e : Expr} (h : e.Sited text lo hi) (front : lo' ≤ lo)
    (back : hi ≤ hi') : e.Sited text lo' hi' :=
  ⟨h.placed, Nat.le_trans front h.start, Nat.le_trans h.stop back⟩

/-- An expression that nothing is a part of. -/
theorem Placed.leaf {e : Expr} (span : e.span.TrueIn text) (none : e.parts = []) :
    e.Placed text :=
  .mk span (by simp [none]) (by simp [none])

end Expr

/-! ### Placed statements -/

/-- The spans that a statement has of its own. -/
def Stmt.spans : Stmt → List Span
  | .var span .. | .returnValue span _ | .breakLoop span | .importNames span .. => [span]
  | .classDecl decl => decl.span :: decl.methods.map (·.span)
  | .expr _ | .ifElse .. | .whileLoop .. | .forLoop .. | .block _ => []

/-- The expressions that are direct parts of a statement. -/
def Stmt.expressions : Stmt → List Expr
  | .expr e => [e]
  | .var _ _ value | .returnValue _ value => value.toList
  | .ifElse condition .. | .whileLoop condition _ => [condition]
  | .forLoop _ sequence _ => [sequence]
  | .block _ | .breakLoop _ | .classDecl _ | .importNames .. => []

/-- The statements that are direct parts of a statement; those of a class are the ones of its
methods. -/
def Stmt.inner : Stmt → List Stmt
  | .ifElse _ thenBranch elseBranch => thenBranch :: elseBranch.toList
  | .whileLoop _ body | .forLoop _ _ body => [body]
  | .block body => body
  | .classDecl decl => decl.methods.flatMap fun m => m.body.getD []
  | .expr _ | .var .. | .returnValue .. | .breakLoop _ | .importNames .. => []

/-- The spans of a statement and of all that it is made of are true. -/
inductive Stmt.Placed (text : List UInt8) : Stmt → Prop
  | mk {s : Stmt} : (∀ r ∈ s.spans, r.TrueIn text) → (∀ e ∈ s.expressions, e.Placed text) →
    (∀ t ∈ s.inner, t.Placed text) → s.Placed text

structure MethodDecl.Placed (text : List UInt8) (m : MethodDecl) : Prop where
  span : m.span.TrueIn text
  body : ∀ s ∈ m.body.getD [], s.Placed text

end

/-! ### Reading expressions -/

open Parse

variable {text : List UInt8} {top lo : Nat} {c d : Cursor}

/-- An expression that starts behind the offset `lo` has been read, up to the cursor. -/
structure Found (text : List UInt8) (top lo : Nat) (e : Expr) (c : Cursor) : Prop extends
    c.Past text top lo where
  sited : e.Sited text lo c.last.stop.offset

/-- The expressions that a reader finds are placed in the text, along every row of tokens in it. -/
def Places (text : List UInt8) (x : Parse Expr) : Prop :=
  ∀ top lo c, Cursor.Ahead text top lo c → Finds text top x c (Found text top lo)

/-- An expression stands behind the offset `lo`, up to the cursor, and the cursor is a later one. -/
def Along (text : List UInt8) (top lo : Nat) (c : Cursor) (e : Expr) (d : Cursor) : Prop :=
  e.Sited text lo d.last.stop.offset ∧ c.After text top d

namespace Found

variable {e f : Expr}

/-- The expression still stands there when more is read. -/
theorem later (h : Found text top lo e c) (after : c.After text top d) : Found text top lo e d :=
  ⟨h.toPast.of_after after, h.sited.mono (Nat.le_refl _) after.stop⟩

theorem of_le {lo' : Nat} (h : Found text top lo e c) (le : lo' ≤ lo) : Found text top lo' e c :=
  ⟨⟨h.toSound, Nat.le_trans le h.begun⟩, h.sited.mono le (Nat.le_refl _)⟩

/-- An expression put together from others: its span starts behind `lo` and reaches no farther than
the last token. -/
theorem node (past : c.Past text top lo) (span : e.span.TrueIn text)
    (start : lo ≤ e.span.start.offset) (stop : e.span.stop.offset ≤ c.last.stop.offset)
    (parts : ∀ f ∈ e.parts, f.Placed text ∧ f.span.Within e.span) : Found text top lo e c :=
  ⟨past, .mk span (fun f part => (parts f part).2) fun f part => (parts f part).1, start, stop⟩

/-- An expression of one token. -/
theorem token (past : c.Past text top lo) (own : e.span = c.last) (none : e.parts = []) :
    Found text top lo e c := by
  refine node past ?_ ?_ ?_ (by simp [none])
  · rw [own]
    exact past.last
  · rw [own]
    exact past.begun
  · rw [own]

/-- An expression whose span covers two others. -/
theorem merge {l r : Span} (past : c.Past text top lo) (own : e.span = l.merge r)
    (left : l.TrueIn text) (right : r.TrueIn text) (start : lo ≤ l.start.offset)
    (start' : lo ≤ r.start.offset) (stop : l.stop.offset ≤ c.last.stop.offset)
    (stop' : r.stop.offset ≤ c.last.stop.offset)
    (parts : ∀ f ∈ e.parts, f.Placed text ∧ f.span.Within (l.merge r)) : Found text top lo e c := by
  rw [← own] at parts
  refine node past ?_ ?_ ?_ parts
  · rw [own]
    exact left.merge right
  · rw [own, Span.merge_start_offset]
    exact Nat.le_min.mpr ⟨start, start'⟩
  · rw [own, Span.merge_stop_offset]
    exact Nat.max_le.mpr ⟨stop, stop'⟩

/-- An expression from a span read before up to the last token. -/
theorem upTo {l : Span} (past : c.Past text top lo) (own : e.span = l.merge c.last)
    (left : l.TrueIn text) (start : lo ≤ l.start.offset) (stop : l.stop.offset ≤ c.last.stop.offset)
    (parts : ∀ f ∈ e.parts, f.Placed text ∧ f.span.Within (l.merge c.last)) :
    Found text top lo e c :=
  merge past own left past.last start past.begun stop (Nat.le_refl _) parts

end Found

namespace Places

variable {x : Parse Expr}

/-! ### Nested expressions -/

/-- An expression in the middle of a text. -/
theorem inner (nested : Places text x) (sound : c.Sound text top) :
    Finds text top x c (Along text top c.last.stop.offset c) :=
  (nested top _ c sound.ahead).mono fun _ _ found => ⟨found.sited, found.toPast.after sound⟩

theorem thenNewlines (nested : Places text x) (sound : c.Sound text top) :
    Finds text top (thenNewlines x) c (Along text top c.last.stop.offset c) :=
  .thenNewlines (P := fun (e : Expr) n => e.Sited text c.last.stop.offset n)
    (fun le sited => sited.mono (Nat.le_refl _) le) (nested.inner sound)

theorem separated (nested : Places text x) {stop : Parse Bool} (sound : c.Sound text top)
    (stops : ∀ d, d.Sound text top → Finds text top stop d fun _ e => d.After text top e) :
    Finds text top (separated (Parse.thenNewlines x) stop) c fun found d =>
      (∀ e ∈ found, e.Sited text c.last.stop.offset d.last.stop.offset) ∧ c.After text top d := by
  refine .separated (P := fun (e : Expr) n => e.Sited text c.last.stop.offset n)
    (fun le sited => sited.mono (Nat.le_refl _) le) sound (fun d after => ?_) stops
  exact (nested.thenNewlines after.toSound).mono fun e f along =>
    ⟨along.1.mono after.stop (Nat.le_refl _), along.2⟩

/-! ### Interpolated source -/

theorem whole (nested : Places text x) (ahead : c.Ahead text top lo) :
    Finds text top (Parse.whole x) c fun e _ => e.Sited text lo top := by
  refine (Finds.skipNewlines_first ahead).bind fun _ d ahead => ?_
  refine Finds.bind (Q := fun e f => e.Sited text lo top ∧ f.Sound text top) ?_
    fun e f ⟨sited, sound⟩ => ?_
  · refine (nested top lo d ahead).bind fun e f found => ?_
    refine (Finds.skipNewlines found.toSound).bind fun _ g after => ?_
    exact .pure ⟨found.sited.mono (Nat.le_refl _) found.le_top, after.toSound⟩
  · refine .peek ?_
    split
    · exact .pure sited
    · exact .fail sound _

/-- The expression of interpolated source is placed where the source is; nothing else is read. -/
theorem fragment (nested : Places text x) {s : Span} {source : String} {start : Position}
    (found : SourceAt text s source start) (sound : c.Sound text top) :
    Finds text top (Parse.fragment x source start) c fun e d =>
      e.Placed text ∧ e.span.Within s ∧ d = c := by
  have inside := nested.whole (Cursor.ahead_start found.row)
  unfold Finds at inside ⊢
  unfold Parse.fragment
  cases run : Parse.whole x (.start ((tokens source).map (Token.rebase start))) with
  | ok e d =>
    rw [run] at inside
    exact ⟨inside.placed, ⟨Nat.le_trans (Nat.le_of_lt found.front) inside.start,
      Nat.le_trans inside.stop (Nat.le_of_lt found.back)⟩, rfl⟩
  | error e d =>
    rw [run] at inside
    exact ⟨inside.1, sound⟩

theorem fragments (nested : Places text x) {s : Span} {parts : List StringPart}
    (found : ∀ source start, .code source start ∈ parts → SourceAt text s source start)
    (sound : c.Sound text top) :
    Finds text top (Parse.fragments x parts) c fun fs d =>
      (∀ e ∈ fs.filterMap Fragment.code?, e.Placed text ∧ e.span.Within s) ∧ d = c := by
  induction parts with
  | nil => exact .pure ⟨by simp, rfl⟩
  | cons part parts ih =>
    have rest := ih fun source start part => found source start (List.mem_cons_of_mem _ part)
    cases part with
    | literal text =>
      refine rest.bind ?_
      rintro fs d ⟨placed, rfl⟩
      exact .pure ⟨by simpa [Fragment.code?] using placed, rfl⟩
    | code source start =>
      refine (nested.fragment (found source start List.mem_cons_self) sound).bind ?_
      rintro e d ⟨placed, within, rfl⟩
      refine rest.bind ?_
      rintro fs d ⟨others, rfl⟩
      refine .pure ⟨?_, rfl⟩
      rw [List.filterMap_cons_some (by rfl)]
      exact List.forall_mem_cons.mpr ⟨⟨placed, within⟩, others⟩

/-- The string token read last. -/
theorem string (nested : Places text x) {parts : List StringPart} (past : c.Past text top lo)
    (found : ∀ source start, .code source start ∈ parts → SourceAt text c.last source start) :
    Finds text top (Parse.string x c.last parts) c (Found text top lo) := by
  have interpolation : Finds text top
      (Parse.fragments x parts >>= fun fs => Pure.pure (.interpolation c.last fs)) c
      (Found text top lo) := by
    refine (nested.fragments found past.toSound).bind ?_
    rintro fs d ⟨placed, rfl⟩
    exact .pure (.node past past.last past.begun (Nat.le_refl _) placed)
  unfold Parse.string
  split
  · exact .pure (.token past rfl rfl)
  · exact interpolation

/-! ### Operands -/

theorem arguments (nested : Places text x) (sound : c.Sound text top) :
    Finds text top (Parse.arguments x) c fun args d =>
      (∀ e ∈ args.getD [], e.Sited text c.last.stop.offset d.last.stop.offset) ∧
        c.After text top d := by
  refine (Finds.acceptSymbol sound .leftParen).bind fun opened d open_ => ?_
  cases opened with
  | false => exact .pure ⟨by simp, open_⟩
  | true =>
    have close {args : List Expr} {e : Cursor}
        (sited : ∀ a ∈ args, a.Sited text c.last.stop.offset e.last.stop.offset)
        (after : c.After text top e) :
        Finds text top (Parse.require .afterArguments >>= fun _ => Pure.pure (some args)) e
          fun args d => (∀ e ∈ args.getD [], e.Sited text c.last.stop.offset d.last.stop.offset) ∧
            c.After text top d := by
      refine (Finds.require after.toSound .afterArguments).bind fun _ f ⟨_, last⟩ => .pure ⟨?_, ?_⟩
      · exact fun a there => (sited a there).mono (Nat.le_refl _) last.stop
      · exact after.trans last
    refine (Finds.skipNewlines open_.toSound).bind fun _ e skipped => .atSymbol ?_
    have after := open_.trans skipped
    split
    · exact close (by simp) after
    · refine (nested.separated after.toSound fun d sound => .pure sound.after).bind
        fun args f ⟨sited, read⟩ => close ?_ (after.trans read)
      exact fun a there => (sited a there).mono after.stop (Nat.le_refl _)

/-- A list whose opening bracket is the last token read. -/
theorem list (nested : Places text x) (past : c.Past text top lo) :
    Finds text top
      (do
        skipNewlines
        let elements ←
          if ← atSymbol .rightBracket then Pure.pure []
          else Parse.separated (Parse.thenNewlines x) (atSymbol .rightBracket)
        let stop ← require .afterListElements
        return Expr.list (c.last.merge stop) elements) c (Found text top lo) := by
  have close {elements : List Expr} {d : Cursor} (after : c.After text top d)
      (sited : ∀ a ∈ elements, a.Sited text c.last.stop.offset d.last.stop.offset) :
      Finds text top (Parse.require .afterListElements >>= fun stop =>
        Pure.pure (.list (c.last.merge stop) elements)) d (Found text top lo) := by
    refine (Finds.require after.toSound .afterListElements).bind ?_
    rintro _ e ⟨rfl, closed⟩
    have along := after.trans closed
    refine .pure (.upTo (past.of_after along) rfl past.last past.begun along.stop
      fun a there => ?_)
    have element := sited a there
    exact ⟨element.placed, .merge (Nat.le_trans past.last.ordered element.start)
      (Nat.le_trans element.stop closed.stop)⟩
  refine (Finds.skipNewlines past.toSound).bind fun _ d skipped => .atSymbol ?_
  split
  · exact close skipped (by simp)
  · refine (nested.separated skipped.toSound fun d sound => .atSymbol (.pure sound.after)).bind
      fun elements e ⟨sited, after⟩ => close (skipped.trans after) fun a there => ?_
    exact (sited a there).mono skipped.stop (Nat.le_refl _)

theorem primary (nested : Places text x) (ahead : c.Ahead text top lo) :
    Finds text top (Parse.primary x) c (Found text top lo) := by
  have read {k : Span → Parse Expr} (goes : c.kind.isEnd = false)
      (next : ∀ d, d.last = c.span → d.Past text top lo →
        Finds text top (k d.last) d (Found text top lo)) :
      Finds text top (advance >>= k) c (Found text top lo) :=
    (Finds.advance ahead goes).bind fun _ d ⟨same, last, past⟩ => same ▸ next d last past
  have leaf {e : Expr} (goes : c.kind.isEnd = false) (own : e.span = c.span)
      (none : e.parts = []) :
      Finds text top (advance >>= fun _ => Pure.pure e) c (Found text top lo) :=
    read goes fun d last past => .pure (.token past (own.trans last.symm) none)
  refine .peekSpan (.peek ?_)
  cases kind : c.kind with
  | number z => exact leaf (by rw [kind]; rfl) rfl rfl
  | field name => exact leaf (by rw [kind]; rfl) rfl rfl
  | string parts =>
    refine read (by rw [kind]; rfl) fun d last past => ?_
    rw [← last]
    refine nested.string past fun source start part => ?_
    rw [last]
    exact ahead.code (by rw [kind]; exact part)
  | name name =>
    refine read (by rw [kind]; rfl) fun d last past => ?_
    refine (nested.arguments past.toSound).bind fun args e ⟨sited, after⟩ => ?_
    rw [← last]
    cases args with
    | none => exact .pure (.later (.token past rfl rfl) after)
    | some args =>
      have whole := past.last.merge after.last
      refine .lastSpan (.pure (.upTo (past.of_after after) rfl past.last past.begun after.stop ?_))
      refine List.forall_mem_cons.mpr ⟨⟨.leaf whole rfl, .refl _⟩, fun a there => ?_⟩
      have arg := sited a there
      exact ⟨arg.placed, .merge (Nat.le_trans past.last.ordered arg.start) arg.stop⟩
  | keyword k =>
    cases k with
    | true => exact leaf (by rw [kind]; rfl) rfl rfl
    | false => exact leaf (by rw [kind]; rfl) rfl rfl
    | null => exact leaf (by rw [kind]; rfl) rfl rfl
    | this => exact leaf (by rw [kind]; rfl) rfl rfl
    | _ => exact .fail ahead.toSound _
  | symbol s =>
    cases s with
    | leftParen =>
      refine read (by rw [kind]; rfl) fun d last past => ?_
      refine (Finds.skipNewlines past.toSound).bind fun _ e skipped => ?_
      refine (nested.thenNewlines skipped.toSound).bind fun a f ⟨sited, after⟩ => ?_
      refine (Finds.require after.toSound .afterExpression).bind fun _ g ⟨_, closed⟩ => .pure ?_
      have front := Nat.le_trans past.begun (Nat.le_trans past.last.ordered skipped.stop)
      exact ⟨past.of_after ((skipped.trans after).trans closed), sited.mono front closed.stop⟩
    | leftBracket =>
      refine read (by rw [kind]; rfl) fun d last past => ?_
      rw [← last]
      exact nested.list past
    | _ => exact .fail ahead.toSound _
  | _ => exact .fail ahead.toSound _

/-- A member whose dot is already read. -/
theorem member (nested : Places text x) {e : Expr} (found : Found text top lo e c) :
    Finds text top
      (do
        let (name, nameSpan) ← name .member
        let args ← Parse.arguments x
        return some (Parse.member ((e.span.merge nameSpan).merge (← lastSpan)) e name args)) c
      (Finds.Kept (Found text top lo) e) := by
  refine (Finds.name found.toSound .member).bind ?_
  rintro ⟨name, _⟩ d ⟨rfl, named⟩
  refine (nested.arguments named.toSound).bind fun args f ⟨sited, after⟩ => .lastSpan (.pure ?_)
  have here := named.trans after
  have inner : e.span.Within ((e.span.merge d.last).merge f.last) :=
    (Span.within_merge_left _ _).trans (Span.within_merge_left _ _)
  have front : lo ≤ (e.span.merge d.last).start.offset := by
    rw [Span.merge_start_offset]
    exact Nat.le_min.mpr ⟨found.sited.start, Nat.le_trans found.begun named.start⟩
  have back : (e.span.merge d.last).stop.offset ≤ f.last.stop.offset := by
    rw [Span.merge_stop_offset]
    exact Nat.max_le.mpr ⟨Nat.le_trans found.sited.stop here.stop, after.stop⟩
  have node {node : Expr} (own : node.span = (e.span.merge d.last).merge f.last)
      (parts : ∀ a ∈ node.parts, a = e ∨ a ∈ args.getD []) : Found text top lo node f := by
    refine .upTo (found.toPast.of_after here) own (found.sited.placed.span.merge named.last) front
      back fun a part => ?_
    obtain rfl | arg := parts a part
    · exact ⟨found.sited.placed, inner⟩
    · have arg := sited a arg
      refine ⟨arg.placed, .merge ?_ arg.stop⟩
      exact Nat.le_trans (Span.within_merge_right _ _).start
        (Nat.le_trans named.last.ordered arg.start)
  cases args with
  | none => exact node rfl (by simp [Parse.member, Expr.parts])
  | some args => exact node rfl (by simp [Parse.member, Expr.parts])

/-- A subscript whose opening bracket is already read. -/
theorem subscript (nested : Places text x) {e : Expr} (found : Found text top lo e c) :
    Finds text top
      (do
        skipNewlines
        let index ← Parse.thenNewlines x
        let stop ← require .afterSubscript
        return some (Expr.subscript (e.span.merge stop) e index)) c
      (Finds.Kept (Found text top lo) e) := by
  have span := found.sited.placed.span
  refine (Finds.skipNewlines found.toSound).bind fun _ d skipped => ?_
  refine (nested.thenNewlines skipped.toSound).bind fun index f ⟨sited, after⟩ => ?_
  refine (Finds.require after.toSound .afterSubscript).bind ?_
  rintro _ g ⟨rfl, closed⟩
  have along := (skipped.trans after).trans closed
  refine .pure (.upTo (found.toPast.of_after along) rfl span found.sited.start
    (Nat.le_trans found.sited.stop along.stop) ?_)
  refine List.forall_mem_cons.mpr ⟨⟨found.sited.placed, Span.within_merge_left _ _⟩, ?_⟩
  have front : e.span.start.offset ≤ index.span.start.offset :=
    Nat.le_trans span.ordered
      (Nat.le_trans found.sited.stop (Nat.le_trans skipped.stop sited.start))
  exact List.forall_mem_singleton.mpr
    ⟨sited.placed, .merge front (Nat.le_trans sited.stop closed.stop)⟩

/-- One more member or subscript around what has been found. -/
theorem selector (nested : Places text x) {e : Expr} (found : Found text top lo e c) :
    Finds text top (Parse.selector x e) c (Finds.Kept (Found text top lo) e) := by
  refine (Finds.acceptSymbol found.toSound .dot).bind fun dotted d dot => ?_
  cases dotted with
  | true => exact nested.member (found.later dot)
  | false =>
    refine (Finds.acceptSymbol dot.toSound .leftBracket).bind fun opened f open_ => ?_
    have found := found.later (dot.trans open_)
    cases opened with
    | false => exact .pure found
    | true => exact nested.subscript found

theorem postfixed (nested : Places text x) (ahead : c.Ahead text top lo) :
    Finds text top (Parse.postfixed x) c (Found text top lo) :=
  (nested.primary ahead).bind fun _ _ found =>
    .loop (fun _ _ found => found.toSound) (fun _ _ found => nested.selector found) found

/-! ### Operators -/

/-- Operators that stand in front of an operand, behind the offset `lo`. -/
def Waiting (text : List UInt8) (top lo : Nat) (ops : List (UnaryOp × Span)) (c : Cursor) : Prop :=
  c.Ahead text top lo ∧ ∀ op ∈ ops, op.2.TrueIn text ∧ lo ≤ op.2.start.offset ∧
    op.2.stop.offset ≤ c.last.stop.offset

theorem unaryOps (ahead : c.Ahead text top lo) :
    Finds text top Parse.unaryOps c (Waiting text top lo) := by
  refine .loop (fun _ _ waiting => waiting.1.toSound) (fun ops d waiting => .peek ?_)
    ⟨ahead, by simp⟩
  cases known : UnaryOp.ofKind? d.kind with
  | none => exact .pure waiting
  | some op =>
    have goes := UnaryOp.isEnd_of_ofKind? known
    refine (Finds.advance waiting.1.both goes).bind ?_
    rintro _ e ⟨rfl, -, past⟩
    have begun := Nat.max_le.mp past.begun
    have past' : e.Past text top lo := ⟨past.toSound, begun.1⟩
    refine .pure ⟨past'.ahead, List.forall_mem_cons.mpr ⟨⟨past.last, begun.1, Nat.le_refl _⟩, ?_⟩⟩
    intro op there
    obtain ⟨span, start, stop⟩ := waiting.2 op there
    exact ⟨span, start, Nat.le_trans stop (Nat.le_trans begun.2 past.last.ordered)⟩

theorem applyUnary {ops : List (UnaryOp × Span)} {operand : Expr}
    (placed : ∀ op ∈ ops, op.2.TrueIn text ∧ lo ≤ op.2.start.offset ∧
      op.2.stop.offset ≤ c.last.stop.offset) (found : Found text top lo operand c) :
    Found text top lo (ops.foldl Parse.applyUnary operand) c := by
  induction ops generalizing operand with
  | nil => exact found
  | cons op ops ih =>
    obtain ⟨⟨span, start, stop⟩, others⟩ := List.forall_mem_cons.mp placed
    refine ih others (.merge found.toPast rfl span found.sited.placed.span start found.sited.start
      stop found.sited.stop ?_)
    exact List.forall_mem_singleton.mpr ⟨found.sited.placed, Span.within_merge_right _ _⟩

theorem unary (nested : Places text x) (ahead : c.Ahead text top lo) :
    Finds text top (Parse.unary x) c (Found text top lo) := by
  refine (unaryOps ahead).bind fun ops d ⟨there, placed⟩ => ?_
  refine (nested.postfixed there.both).bind fun operand e found => .pure (applyUnary ?_ ?_)
  · intro op mem
    obtain ⟨span, start, stop⟩ := placed op mem
    exact ⟨span, start, Nat.le_trans stop
      (Nat.le_trans (Nat.max_le.mp found.begun).2 found.last.ordered)⟩
  · exact found.of_le (Nat.le_max_left _ _)

/-- An expression put together from one that has been found and one that is read behind it. -/
theorem joined {e lhs rhs : Expr} (found : Found text top lo lhs c) (after : c.After text top d)
    (sited : rhs.Sited text c.last.stop.offset d.last.stop.offset)
    (own : e.span = lhs.span.merge rhs.span) (parts : ∀ f ∈ e.parts, f = lhs ∨ f = rhs) :
    Found text top lo e d := by
  have front := Nat.le_trans found.begun (Nat.le_trans found.last.ordered sited.start)
  refine .merge (found.toPast.of_after after) own found.sited.placed.span sited.placed.span
    found.sited.start front (Nat.le_trans found.sited.stop after.stop) sited.stop fun f part => ?_
  obtain rfl | rfl := parts f part
  · exact ⟨found.sited.placed, Span.within_merge_left _ _⟩
  · exact ⟨sited.placed, Span.within_merge_right _ _⟩

theorem infixed {operand : Parse Expr}
    (operands : ∀ {lo c}, Cursor.Ahead text top lo c →
      Finds text top operand c (Found text top lo))
    {level : Nat} {lhs : Expr} (found : Found text top lo lhs c) :
    Finds text top (Parse.infixed operand level lhs) c (Finds.Kept (Found text top lo) lhs) := by
  refine .peek ?_
  cases known : InfixOp.atLevel? level c.kind with
  | none => exact .pure found
  | some op =>
    have goes := InfixOp.isEnd_of_atLevel? known
    refine (Finds.advance found.toSound.ahead goes).bind fun _ d ⟨_, _, past⟩ => ?_
    have read := past.after found.toSound
    refine (Finds.skipNewlines read.toSound).bind fun _ e skipped => ?_
    refine (operands skipped.toSound.ahead).bind fun rhs f operand => .pure ?_
    have along := read.trans skipped
    have after := along.trans (operand.toPast.after skipped.toSound)
    refine joined found after (operand.sited.mono along.stop (Nat.le_refl _)) ?_ ?_
    · cases op <;> rfl
    · cases op <;> simp [InfixOp.apply, Expr.parts]

theorem operands (nested : Places text x) (level : Nat) (ahead : c.Ahead text top lo) :
    Finds text top (Parse.operands x level) c (Found text top lo) := by
  induction level generalizing lo c with
  | zero => exact nested.unary ahead
  | succ level ih =>
    exact (ih ahead).bind fun _ _ found =>
      .loop (fun _ _ found => found.toSound) (fun _ _ found => infixed ih found) found

/-! ### Expressions of any nesting -/

theorem expressionOver (nested : Places text x) : Places text (Parse.expressionOver x) := by
  intro top lo c ahead
  refine (nested.operands 6 ahead).bind fun left d found => .atSymbol ?_
  cases assigned : d.kind.isSymbol .assign with
  | false => exact .pure found
  | true =>
    have goes := TokenKind.isEnd_of_isSymbol assigned
    refine (Finds.advance found.toSound.ahead goes).bind ?_
    rintro _ e ⟨rfl, -, past⟩
    have read := past.after found.toSound
    refine (Finds.skipNewlines read.toSound).bind fun _ f skipped => ?_
    refine (nested.inner skipped.toSound).bind fun value g ⟨sited, after⟩ => ?_
    have along := read.trans skipped
    cases target? left with
    | none => exact ⟨read.last, after.toSound⟩
    | some target =>
      refine .pure (joined found (along.trans after) (sited.mono along.stop (Nat.le_refl _)) rfl ?_)
      simp [Expr.parts]

theorem expressionUpTo (text : List UInt8) (levels : Nat) :
    Places text (Parse.expressionUpTo levels) := by
  induction levels with
  | zero => exact fun top lo c ahead => .fail ahead.toSound _
  | succ levels ih => exact ih.expressionOver

end Places
end ScriptHost
