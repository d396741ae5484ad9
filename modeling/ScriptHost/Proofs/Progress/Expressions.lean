import ScriptHost.Proofs.Progress.Proceeds
import ScriptHost.Source.Tree.Expressions

/-! What the reading of an expression uses up. A reader of nested expressions is asked only behind a
token that was read for it, or for interpolated source, which is shorter than its token: so each
rule of the grammar over the reader gets by with one level more. -/

namespace ScriptHost

open Parse

variable {α : Type} {n j : Nat} {b c : Cursor}

/-- Two readers do the same along tokens that need at most `n` levels, and read one at least. -/
def Consumes (n : Nat) (x y : Parse α) : Prop :=
  ∀ c : Cursor, nestingBound c.tokens ≤ n → Proceeds c x y c fun _ => 1

namespace Consumes

variable {x y : Parse Expr}

/-- The reader behind a token. -/
theorem inner {x y : Parse α} (nested : Consumes n x y) (small : nestingBound b.tokens ≤ n + 1)
    (along : b.Leads (j + 1) c) : Proceeds b x y c fun _ => j + 2 := by
  have fewer := along.nesting
  exact (nested c (by omega)).further along

/-! ### Interpolated source -/

/-- The interpolated source of a string needs at most `n` levels. -/
def Fits (n : Nat) (parts : List StringPart) : Prop :=
  ∀ source start, .code source start ∈ parts → source.utf8ByteSize + 2 ≤ n

/-- The interpolated source of a token needs fewer levels than the token itself. -/
theorem fits_of_kind (small : nestingBound b.tokens ≤ n + 1) (along : b.Leads j c)
    {parts : List StringPart} (kind : c.kind = .string parts) : Fits n parts := by
  intro source start part
  have size := TokenKind.size_lt_nesting part
  have fewer := along.nesting
  obtain ⟨_ | ⟨t, rest⟩, last⟩ := c
  · cases kind
  · have own : t.kind = .string parts := kind
    have more : 1 ≤ nestingBound rest := Nat.le_add_left 1 _
    rw [nestingBound_cons, own] at fewer
    omega

theorem whole (nested : Consumes n x y) (small : nestingBound c.tokens ≤ n) :
    Proceeds c (Parse.whole x) (Parse.whole y) c fun _ => 1 := by
  refine (Proceeds.skipNewlines (.refl c)).bind fun _ d along => ?_
  have inside : nestingBound d.tokens ≤ n := Nat.le_trans along.nesting small
  refine (Proceeds.thenNewlines (j := 1) ?_).bind fun e d along => .peek ?_
  · exact ((nested d inside).further along).mono fun _ => Nat.le_add_left 1 _
  · split
    · exact .pure along
    · exact .fail along SyntaxFault.noConfusion

theorem fragment (nested : Consumes n x y) {source : String} (fits : source.utf8ByteSize + 2 ≤ n)
    (start : Position) (along : b.Leads j c) :
    Proceeds b (Parse.fragment x source start) (Parse.fragment y source start) c fun _ => j := by
  have small :
      nestingBound (Cursor.start ((tokens source).map (Token.rebase start))).tokens ≤ n := by
    rw [Cursor.start, nestingBound_rebase]
    exact Nat.le_trans (nestingBound_tokens_le source) fits
  have found := nested.whole small
  unfold Proceeds at found ⊢
  unfold Parse.fragment
  cases run : Parse.whole x (.start ((tokens source).map (Token.rebase start))) with
  | ok e d =>
    rw [run] at found
    rw [found.1]
    exact ⟨rfl, along⟩
  | error e d =>
    rw [run] at found
    rw [found.1]
    exact ⟨rfl, found.2.1, along.mono (Nat.zero_le j)⟩

theorem fragments (nested : Consumes n x y) {parts : List StringPart} (fits : Fits n parts)
    (along : b.Leads j c) :
    Proceeds b (Parse.fragments x parts) (Parse.fragments y parts) c fun _ => j := by
  induction parts generalizing c with
  | nil => exact .pure along
  | cons part parts ih =>
    have rest : Fits n parts := fun source start there =>
      fits source start (List.mem_cons_of_mem _ there)
    cases part with
    | literal text => exact (ih rest along).bind fun _ d along => .pure along
    | code source start =>
      refine (nested.fragment (fits source start List.mem_cons_self) start along).bind
        fun e d along => ?_
      exact (ih rest along).bind fun _ d along => .pure along

theorem string (nested : Consumes n x y) (span : Span) {parts : List StringPart}
    (fits : Fits n parts) (along : b.Leads j c) :
    Proceeds b (Parse.string x span parts) (Parse.string y span parts) c fun _ => j := by
  unfold Parse.string
  split
  · exact .pure along
  · exact (nested.fragments fits along).bind fun _ d along => .pure along

/-! ### Operands -/

theorem thenNewlines (nested : Consumes n x y) (small : nestingBound b.tokens ≤ n + 1)
    (along : b.Leads (j + 1) c) :
    Proceeds b (thenNewlines x) (thenNewlines y) c fun _ => j + 2 :=
  .thenNewlines (nested.inner small along)

/-- Nested expressions between commas. -/
theorem separated (nested : Consumes n x y) (small : nestingBound b.tokens ≤ n + 1)
    (along : b.Leads (j + 1) c) {stop : Parse Bool}
    (stops : ∀ d : Cursor, Proceeds d stop stop d fun _ => 0) :
    Proceeds b (separated (Parse.thenNewlines x) stop) (separated (Parse.thenNewlines y) stop) c
      fun _ => j + 2 := by
  refine .separated along (fun d along => .thenNewlines (nested d ?_)) fun d _ => stops d
  have fewer := along.nesting
  omega

section

variable (nested : Consumes n x y) (small : nestingBound b.tokens ≤ n + 1)
include nested small

theorem arguments (along : b.Leads j c) :
    Proceeds b (Parse.arguments x) (Parse.arguments y) c fun _ => j := by
  refine (Proceeds.acceptSymbol along .leftParen).bind fun opened d along => ?_
  cases opened with
  | false => exact .pure along
  | true =>
    have close {k : Nat} (args : List Expr) (e : Cursor) (along : b.Leads (j + k) e) :
        Proceeds b (Parse.require .afterArguments >>= fun _ => Pure.pure (some args))
          (Parse.require .afterArguments >>= fun _ => Pure.pure (some args)) e fun _ => j :=
      (Proceeds.require along .afterArguments).bind fun _ f along =>
        .pure (along.mono (by omega))
    refine (Proceeds.skipNewlines along).bind fun _ e along => .atSymbol ?_
    split
    · exact close (k := 1) [] e along
    · refine (nested.separated small along fun d => .pure (.refl d)).bind fun args f along => ?_
      exact close (k := 2) args f along

theorem primary (along : b.Leads j c) :
    Proceeds b (Parse.primary x) (Parse.primary y) c fun _ => j + 1 := by
  refine .peekSpan (.peek ?_)
  have advance {kind : TokenKind} (same : c.kind = kind) (readable : kind.isReadable) :
      Proceeds b Parse.advance Parse.advance c fun _ => j + 1 :=
    .advance along (by rw [same, readable])
  have fail : Proceeds b (Parse.fail .missingExpression) (Parse.fail .missingExpression) c
      fun (_ : Expr) => j + 1 := .fail along SyntaxFault.noConfusion
  cases kind : c.kind with
  | number z => exact (advance kind rfl).bind fun _ d along => .pure along
  | field name => exact (advance kind rfl).bind fun _ d along => .pure along
  | string parts =>
    have fits := fits_of_kind small along kind
    exact (advance kind rfl).bind fun _ d along => nested.string c.span fits along
  | name name =>
    refine (advance kind rfl).bind fun _ d along => ?_
    refine (nested.arguments small along).bind fun args e along => ?_
    cases args with
    | none => exact .pure along
    | some args => exact .lastSpan (.pure along)
  | keyword k =>
    cases k with
    | true => exact (advance kind rfl).bind fun _ d along => .pure along
    | false => exact (advance kind rfl).bind fun _ d along => .pure along
    | null => exact (advance kind rfl).bind fun _ d along => .pure along
    | this => exact (advance kind rfl).bind fun _ d along => .pure along
    | _ => exact fail
  | symbol s =>
    cases s with
    | leftParen =>
      refine (advance kind rfl).bind fun _ d along => ?_
      refine (Proceeds.skipNewlines along).bind fun _ e along => ?_
      refine (nested.thenNewlines small along).bind fun found f along => ?_
      refine (Proceeds.require along .afterExpression).bind fun _ g along => .pure ?_
      exact along.mono (by omega)
    | leftBracket =>
      have close {k : Nat} (elements : List Expr) (e : Cursor) (along : b.Leads (j + k) e) :
          Proceeds b
            (Parse.require .afterListElements >>= fun stop =>
              Pure.pure (Expr.list (c.span.merge stop) elements))
            (Parse.require .afterListElements >>= fun stop =>
              Pure.pure (Expr.list (c.span.merge stop) elements)) e fun _ => j + 1 :=
        (Proceeds.require along .afterListElements).bind fun _ f along =>
          .pure (along.mono (by omega))
      refine (advance kind rfl).bind fun _ d along => ?_
      refine (Proceeds.skipNewlines along).bind fun _ e along => .atSymbol ?_
      split
      · exact close (k := 1) [] e along
      · refine (nested.separated small along fun d => .atSymbol (.pure (.refl d))).bind
          fun elements f along => ?_
        exact close (k := 2) elements f along
    | _ => exact fail
  | _ => exact fail

end

/-- A member or a subscript is a token of its own at least. -/
theorem selector (nested : Consumes n x y) (small : nestingBound c.tokens ≤ n + 1) (e : Expr) :
    Proceeds c (Parse.selector x e) (Parse.selector y e) c fun next => next.elim 0 fun _ => 1 := by
  refine (Proceeds.acceptSymbol (.refl c) .dot).bind fun dotted d along => ?_
  cases dotted with
  | true =>
    refine (Proceeds.name along .member).bind fun found f along => ?_
    refine (nested.arguments small along).bind fun args g along => .lastSpan (.pure ?_)
    exact along.mono (Nat.le_add_left 1 _)
  | false =>
    refine (Proceeds.acceptSymbol along .leftBracket).bind fun opened f along => ?_
    cases opened with
    | false => exact .pure along
    | true =>
      refine (Proceeds.skipNewlines along).bind fun _ g along => ?_
      refine (nested.thenNewlines small along).bind fun index h along => ?_
      refine (Proceeds.require along .afterSubscript).bind fun _ i along => .pure ?_
      exact along.mono (Nat.le_add_left 1 _)

theorem unaryOps (along : b.Leads j c) :
    Proceeds b Parse.unaryOps Parse.unaryOps c fun _ => j := by
  refine .loop along fun ops d _ => .peek ?_
  split
  · rename_i op known
    refine (Proceeds.advance (.refl d) (TokenKind.isReadable_of_ofKind? known)).bind
      fun _ e along => .pure along
  · exact .pure (.refl d)

section

variable (nested : Consumes n x y) (small : nestingBound b.tokens ≤ n + 1)
include nested small

theorem postfixed (along : b.Leads j c) :
    Proceeds b (Parse.postfixed x) (Parse.postfixed y) c fun _ => j + 1 := by
  refine (nested.primary small along).bind fun e d along => .loop along fun e f along => ?_
  exact nested.selector (Nat.le_trans (Nat.le_of_add_right_le along.nesting) small) e

theorem unary (along : b.Leads j c) :
    Proceeds b (Parse.unary x) (Parse.unary y) c fun _ => j + 1 := by
  refine (unaryOps along).bind fun ops d along => ?_
  exact (nested.postfixed small along).bind fun operand e along => .pure along

end

/-! ### Operators -/

/-- An operator between operands is a token of its own. -/
theorem infixed {operand operand' : Parse Expr} {level : Nat} (lhs : Expr)
    (operands : ∀ d, c.Leads 1 d → Proceeds c operand operand' d fun _ => 1) :
    Proceeds c (Parse.infixed operand level lhs) (Parse.infixed operand' level lhs) c
      fun next => next.elim 0 fun _ => 1 := by
  refine .peek ?_
  split
  · exact .pure (.refl c)
  · rename_i op known
    have readable := TokenKind.isReadable_of_atLevel? known
    refine (Proceeds.advance (.refl c) readable).bind fun _ d along => ?_
    refine (Proceeds.skipNewlines along).bind fun _ e along => ?_
    exact (operands e along).bind fun rhs f along => .pure along

section

variable (nested : Consumes n x y)
include nested

theorem operands (level : Nat) (small : nestingBound b.tokens ≤ n + 1) (along : b.Leads j c) :
    Proceeds b (Parse.operands x level) (Parse.operands y level) c fun _ => j + 1 := by
  induction level generalizing b c j with
  | zero => exact nested.unary small along
  | succ level ih =>
    refine (ih small along).bind fun lhs d along => .loop along fun lhs e along => ?_
    have inside : nestingBound e.tokens ≤ n + 1 :=
      Nat.le_trans (Nat.le_of_add_right_le along.nesting) small
    exact infixed lhs fun f along => (ih inside along).mono fun _ => Nat.le_add_left 1 _

theorem expressionOver (small : nestingBound c.tokens ≤ n + 1) :
    Proceeds c (Parse.expressionOver x) (Parse.expressionOver y) c fun _ => 1 := by
  refine (nested.operands 6 small (.refl c)).bind fun left d along => .atSymbol ?_
  split
  · rename_i assigned
    have readable := TokenKind.isReadable_of_isSymbol assigned
    refine (Proceeds.advance along readable).bind fun mark e along => ?_
    refine (Proceeds.skipNewlines along).bind fun _ f along => ?_
    refine (nested.inner small along).bind fun value g along => ?_
    split
    · exact .pure (along.mono (Nat.le_add_left 1 _))
    · exact .throw along SyntaxFault.noConfusion
  · exact .pure along

end

/-! ### Expressions of any nesting -/

/-- Tokens need a level. -/
theorem of_zero (x y : Parse α) : Consumes 0 x y := fun c small => by
  have some_ : 1 ≤ nestingBound c.tokens := Nat.le_add_left 1 _
  omega

/-- How many levels are left does not matter as long as the tokens need no more. -/
theorem expressionUpTo {levels levels' : Nat} (le : n ≤ levels) (le' : n ≤ levels') :
    Consumes n (Parse.expressionUpTo levels) (Parse.expressionUpTo levels') := by
  induction n generalizing levels levels' with
  | zero => exact of_zero _ _
  | succ n ih =>
    obtain _ | levels := levels
    · cases le
    obtain _ | levels' := levels'
    · cases le'
    have nested := ih (Nat.le_of_succ_le_succ le) (Nat.le_of_succ_le_succ le')
    exact fun c small => nested.expressionOver small

end Consumes
end ScriptHost
