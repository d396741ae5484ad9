import ScriptHost.Proofs.Reading.Likeness
import ScriptHost.Source.Tree.Expressions

/-! Expressions in the common part of two texts. What the reader of nested expressions does the same
in both texts, each rule of the grammar over it does the same; so do expressions of any nesting, and
how many levels are left does not matter as long as there are more than the tokens need. -/

namespace ScriptHost
namespace Tails

open Parse

variable {w : Tails} {α β : Type} {m n : Nat}

/-- What is known of a text, beside a relation of cursors. -/
structure Given (fact : Prop) (P : Cursor → Cursor → Prop) (c d : Cursor) : Prop where
  fact : fact
  rel : P c d

instance {P : Cursor → Cursor → Prop} [w.Near P n] (fact : Prop) : w.Near (Given fact P) n :=
  ⟨fun h => Near.alike h.rel⟩

/-- The same common part with other tokens behind it. -/
def followed (w : Tails) (first second : List Token) : Tails :=
  { w with first := first, second := second }

/-- Two readers that do the same in common parts that need at most `n` levels, whatever follows.
Each of them reads a token. -/
def Reads (w : Tails) (n : Nat) (x : Parse α) (y : Parse β) (f : α → β) : Prop :=
  ∀ first second, ∀ m ≤ n, (w.followed first second).Sim ((w.followed first second).Alike m) x y f
    fun _ => (w.followed first second).Begun (m - 1)

namespace Reads

variable {x : Parse α} {y : Parse β} {f : α → β}

theorem sim (h : w.Reads n x y f) (le : m ≤ n) :
    w.Sim (w.Alike m) x y f fun _ => w.Begun (m - 1) := h w.first w.second m le

/-- The reader in the middle of a text. -/
theorem inner (h : w.Reads n x y f) (le : m ≤ n) :
    w.Sim (w.Begun m) x y f fun _ => w.Begun m :=
  (h.sim le).weaken (fun _ _ => Begun.alike) fun _ _ _ begun => begun.mono (Nat.sub_le m 1)

end Reads

variable {x y : Parse Expr} {P : Cursor → Cursor → Prop}

/-! ### Interpolated source -/

/-- The interpolated source of a string needs at most `n` levels, and its places are proper. -/
def Fits (n : Nat) (parts : List StringPart) : Prop :=
  ∀ source here, .code source here ∈ parts → here.Proper ∧ source.utf8ByteSize + 2 ≤ n

theorem Alike.fits {c d : Cursor} {parts : List StringPart} (h : w.Alike n c d)
    (kind : c.kind = .string parts) : Fits (n - 1) parts := by
  obtain ⟨t, xs, shared, first, -⟩ := h.uncons
  rw [Cursor.kind, first] at kind
  dsimp only at kind
  intro source here part
  have size := TokenKind.size_lt_nesting part
  have bound := shared.bound
  have more : 1 ≤ nestingBound xs := Nat.le_add_left _ _
  rw [nestingBound_cons, kind] at bound
  have there : .code source here ∈ t.kind.parts := by
    rw [kind]
    exact part
  exact ⟨(shared.proper t List.mem_cons_self).code there, by omega⟩

/-- The tokens of a text, wherever it stands. -/
theorem alike_tokens (closed : w.first = []) (more : w.second = []) {source : String}
    {start : Position} (proper : start.Proper) (fits : nestingBound (tokens source) ≤ n)
    (last last' : Span) :
    w.Alike n ⟨(tokens source).map (Token.rebase start), last⟩
      ⟨(tokens source).map (Token.rebase (w.base.rebase start)), last'⟩ := by
  obtain ⟨others, whole, -⟩ := (tokensFrom_cut .origin (Utf8.encode source)).ends
  refine ⟨(tokens source).map (Token.rebase start), ⟨?_, ?_, ?_, ?_⟩, ?_, ?_⟩
  · rw [tokens, whole]
    simp
  · intro t there
    obtain ⟨u, mem, rfl⟩ := List.mem_map.mp there
    exact (tokens_proper mem).rebase proper
  · rw [nestingBound_rebase]
    exact fits
  · intro _
    refine ⟨Token.rebase start ⟨.endOfInput, .point (Position.origin.after (Utf8.encode source))⟩,
      ?_, rfl⟩
    rw [tokens, whole]
    simp
  · rw [closed, List.append_nil]
  · rw [more, List.append_nil, List.map_map]
    exact List.map_congr_left fun t there =>
      (Token.rebase_rebase (tokens_proper there) proper _).symm

/-- The same where the first text is the whole of its own. -/
theorem alike_start (closed : w.first = []) (more : w.second = []) {source : String}
    (fits : nestingBound (tokens source) ≤ n) (last : Span) :
    w.Alike n (.start (tokens source)) ⟨(tokens source).map (Token.rebase w.base), last⟩ := by
  have alike := alike_tokens closed more Position.proper_origin fits (.point .origin) last
  have same : (tokens source).map (Token.rebase .origin) = tokens source :=
    (List.map_congr_left fun t _ => Token.origin_rebase t).trans (List.map_id _)
  rw [same, Position.rebase_origin] at alike
  exact alike

namespace Sim

theorem whole (nested : w.Reads n x y (Expr.rebase w.base)) (le : m ≤ n) :
    w.Sim (w.Alike m) (Parse.whole x) (Parse.whole y) (Expr.rebase w.base)
      fun _ => w.Begun (m - 1) := by
  refine skipNewlines_first.bind fun _ => ?_
  refine (thenNewlines (nested.sim le)).bind fun e => ?_
  refine peek.bind fun kind => ?_
  rw [TokenKind.isEnd_rebase]
  split
  · exact .pure rfl fun _ _ facing => facing.rel
  · exact fail _

theorem fragment [w.Near P m] (nested : w.Reads n x y (Expr.rebase w.base)) {source : String}
    {start : Position}
    (facts : ∀ c d, P c d → start.Proper ∧ source.utf8ByteSize + 2 ≤ n) :
    w.Sim P (Parse.fragment x source start) (Parse.fragment y source (w.base.rebase start))
      (Expr.rebase w.base) fun _ => P where
  forward c := by
    unfold Parse.fragment
    split <;> exact List.suffix_rfl
  agree c d rel := by
    obtain ⟨proper, fits⟩ := facts c d rel
    have inside : (w.followed [] []).Reads n x y (Expr.rebase w.base) :=
      fun first second => nested first second
    have alike : (w.followed [] []).Alike n
        (.start ((tokens source).map (Token.rebase start)))
        (.start ((tokens source).map (Token.rebase (w.base.rebase start)))) :=
      alike_tokens rfl rfl proper (Nat.le_trans (nestingBound_tokens_le source) fits) _ _
    have found := (whole inside (Nat.le_refl n)).agree _ _ alike
    unfold Parse.fragment
    cases run : Parse.whole x (.start ((tokens source).map (Token.rebase start))) with
    | ok e c' =>
      rw [run] at found
      obtain ⟨left, -⟩ | ⟨d', same, -⟩ := found
      · exact absurd rfl left
      · rw [same]
        exact .inr ⟨d, rfl, rel⟩
    | error e c' =>
      rw [run] at found
      obtain ⟨left, -⟩ | ⟨d', same, -⟩ := found
      · exact absurd rfl left
      · rw [same]
        exact .inr ⟨d, rfl, m, Near.alike rel⟩

theorem fragments (nested : w.Reads n x y (Expr.rebase w.base)) (parts : List StringPart) :
    w.Sim (Given (Fits n parts) (w.Begun m)) (Parse.fragments x parts)
      (Parse.fragments y (parts.map (StringPart.rebase w.base))) (List.map (Fragment.rebase w.base))
      fun _ => w.Begun m := by
  induction parts with
  | nil => exact .pure rfl fun _ _ given => given.rel
  | cons part parts ih =>
    have more : ∀ c d, Given (Fits n (part :: parts)) (w.Begun m) c d →
        Given (Fits n parts) (w.Begun m) c d := fun _ _ given =>
      ⟨fun source here there => given.fact source here (List.mem_cons_of_mem _ there), given.rel⟩
    cases part with
    | literal text => exact (ih.pre more).bind fun rest => .pure rfl fun _ _ => id
    | code source start =>
      refine (fragment nested fun c d given =>
        given.fact source start List.mem_cons_self).bind fun e => ?_
      exact (ih.pre more).bind fun rest => .pure rfl fun _ _ => id

theorem interpolation (nested : w.Reads n x y (Expr.rebase w.base)) (span : Span)
    (parts : List StringPart) :
    w.Sim (Given (Fits n parts) (w.Begun m))
      (Parse.fragments x parts >>= fun found => Pure.pure (.interpolation span found))
      (Parse.fragments y (parts.map (StringPart.rebase w.base)) >>= fun found =>
        Pure.pure (.interpolation (span.rebase w.base) found))
      (Expr.rebase w.base) fun _ => w.Begun m := by
  refine (fragments nested parts).bind fun found => .pure ?_ fun _ _ => id
  rw [Expr.rebase, Fragment.rebaseAll_eq]

theorem string (nested : w.Reads n x y (Expr.rebase w.base)) (span : Span)
    (parts : List StringPart) :
    w.Sim (Given (Fits n parts) (w.Begun m)) (Parse.string x span parts)
      (Parse.string y (span.rebase w.base) (parts.map (StringPart.rebase w.base)))
      (Expr.rebase w.base) fun _ => w.Begun m := by
  match parts with
  | [.literal text] => exact .pure rfl fun _ _ given => given.rel
  | [] => exact interpolation nested span _
  | [.code source start] => exact interpolation nested span _
  | .literal text :: second :: rest => exact interpolation nested span _
  | .code source start :: second :: rest => exact interpolation nested span _

/-! ### Operands -/

theorem carry {x : Parse α} {y : Parse β} {f : α → β} {Q : α → Cursor → Cursor → Prop}
    {fact : Prop} (h : w.Sim P x y f Q) (facts : ∀ c d, P c d → fact) :
    w.Sim P x y f fun a => Given fact (Q a) where
  forward := h.forward
  agree c d rel := by
    have found := h.agree c d rel
    cases run : x c with
    | ok a c' =>
      rw [run] at found
      obtain escaped | ⟨d', same, rel'⟩ := found
      · exact .inl escaped
      · exact .inr ⟨d', same, facts c d rel, rel'⟩
    | error e c' =>
      rw [run] at found
      exact found

theorem arguments (nested : w.Reads n x y (Expr.rebase w.base)) (le : m ≤ n + 1) :
    w.Sim (w.Begun m) (Parse.arguments x) (Parse.arguments y)
      (Option.map (List.map (Expr.rebase w.base))) fun _ => w.Begun m := by
  have inside : m - 1 ≤ n := Nat.sub_le_of_le_add le
  refine (acceptSymbol .leftParen).bind fun opened => ?_
  cases opened with
  | false => exact .pure rfl fun _ _ => id
  | true =>
    have close (args : List Expr) : w.Sim (w.Begun (m - 1))
        (Parse.require .afterArguments >>= fun _ => Pure.pure (some args))
        (Parse.require .afterArguments >>= fun _ =>
          Pure.pure (some (args.map (Expr.rebase w.base))))
        (Option.map (List.map (Expr.rebase w.base))) fun _ => w.Begun m :=
      (require .afterArguments).bind fun _ => .pure rfl fun _ _ begun =>
        begun.mono (Nat.le_trans (Nat.sub_le _ 1) (Nat.sub_le m 1))
    refine skipNewlines.bind fun _ => (atSymbol .rightParen).bind fun closed => ?_
    cases closed with
    | true => exact close []
    | false =>
      refine bind (separated (fun l less => thenNewlines (nested.inner ?_)) fun _ _ =>
        .pure rfl fun _ _ => id) close
      exact Nat.le_trans less inside

theorem primary (nested : w.Reads n x y (Expr.rebase w.base)) (le : m ≤ n + 1) :
    w.Sim (w.Alike m) (Parse.primary x) (Parse.primary y) (Expr.rebase w.base)
      fun _ => w.Begun (m - 1) := by
  have inside : m - 1 ≤ n := Nat.sub_le_of_le_add le
  refine peekSpan.bind fun span => peek.bind fun kind => ?_
  cases kind with
  | number z => exact (advance rfl).bind fun _ => .pure rfl fun _ _ => id
  | field name => exact (advance rfl).bind fun _ => .pure rfl fun _ _ => id
  | string parts =>
    have fits (c d : Cursor) (facing : Facing (w.Alike m) (.string parts) c d) : Fits n parts := by
      intro source here part
      obtain ⟨proper, size⟩ := Alike.fits facing.rel facing.kind _ _ part
      exact ⟨proper, Nat.le_trans size inside⟩
    exact bind (carry (advance rfl) fits) fun _ => string nested span parts
  | name name =>
    refine (advance rfl).bind fun _ =>
      (arguments nested (Nat.le_succ_of_le inside)).bind fun args => ?_
    cases args with
    | none => exact .pure rfl fun _ _ => id
    | some args =>
      refine lastSpan.bind fun last => .pure ?_ fun _ _ => id
      simp [Expr.rebase]
  | keyword k =>
    cases k with
    | true => exact (advance rfl).bind fun _ => .pure rfl fun _ _ => id
    | false => exact (advance rfl).bind fun _ => .pure rfl fun _ _ => id
    | null => exact (advance rfl).bind fun _ => .pure rfl fun _ _ => id
    | this => exact (advance rfl).bind fun _ => .pure rfl fun _ _ => id
    | _ => exact fail _
  | symbol s =>
    cases s with
    | leftParen =>
      refine (advance rfl).bind fun _ => skipNewlines.bind fun _ => ?_
      refine (thenNewlines (nested.inner inside)).bind fun e => ?_
      exact (require .afterExpression).bind fun _ => .pure rfl fun _ _ begun =>
        begun.mono (Nat.sub_le _ 1)
    | leftBracket =>
      have close (elements : List Expr) : w.Sim (w.Begun (m - 1))
          (Parse.require .afterListElements >>= fun stop =>
            Pure.pure (.list (span.merge stop) elements))
          (Parse.require .afterListElements >>= fun stop =>
            Pure.pure (.list ((span.rebase w.base).merge stop)
              (elements.map (Expr.rebase w.base))))
          (Expr.rebase w.base) fun _ => w.Begun (m - 1) := by
        refine (require .afterListElements).bind fun stop => .pure ?_ fun _ _ begun =>
          begun.mono (Nat.sub_le _ 1)
        simp [Expr.rebase]
      refine (advance rfl).bind fun _ => skipNewlines.bind fun _ => ?_
      refine (atSymbol .rightBracket).bind fun closed => ?_
      cases closed with
      | true => exact close []
      | false =>
        refine bind (separated (fun l less => thenNewlines (nested.inner ?_)) fun _ _ =>
          atSymbol .rightBracket) close
        exact Nat.le_trans less inside
    | _ => exact fail _
  | _ => exact fail _

theorem selector (nested : w.Reads n x y (Expr.rebase w.base)) (le : m ≤ n + 1) (e : Expr) :
    w.Sim (w.Begun m) (Parse.selector x e) (Parse.selector y (e.rebase w.base))
      (Option.map (Expr.rebase w.base)) (Stepped w.Begun m) := by
  have inside : m - 1 ≤ n := Nat.sub_le_of_le_add le
  refine (acceptSymbol .dot).bind fun dotted => ?_
  cases dotted with
  | true =>
    change w.Sim (w.Begun (m - 1)) _ _ _ _
    refine (name .member).bind fun found => ?_
    refine (arguments nested (Nat.le_trans (Nat.sub_le _ 1) (Nat.le_succ_of_le inside))).bind
      fun args => lastSpan.bind fun last => .pure ?_ fun _ _ begun => begun.mono (Nat.sub_le _ 1)
    cases args with
    | none => simp [member, Expr.rebase]
    | some args => simp [member, Expr.rebase]
  | false =>
    change w.Sim (w.Begun m) _ _ _ _
    refine (acceptSymbol .leftBracket).bind fun opened => ?_
    cases opened with
    | false => exact .pure rfl fun _ _ => id
    | true =>
      refine skipNewlines.bind fun _ => (thenNewlines (nested.inner inside)).bind fun index => ?_
      refine (require .afterSubscript).bind fun stop => .pure ?_ fun _ _ begun =>
        begun.mono (Nat.sub_le _ 1)
      simp [Expr.rebase]

theorem postfixed (nested : w.Reads n x y (Expr.rebase w.base)) (le : m ≤ n + 1) :
    w.Sim (w.Alike m) (Parse.postfixed x) (Parse.postfixed y) (Expr.rebase w.base)
      fun _ => w.Begun (m - 1) := by
  refine (primary nested le).bind fun e => loop w.graded_begun (fun l less e => ?_) rfl
  exact selector nested (Nat.le_trans less (Nat.le_trans (Nat.sub_le m 1) le)) e

theorem unaryOps :
    w.Sim (w.Alike m) Parse.unaryOps Parse.unaryOps
      (List.map fun op => (op.1, op.2.rebase w.base)) fun _ => w.Alike m := by
  refine loop w.graded_alike (fun l less ops => peek.bind fun kind => ?_) rfl
  have same : UnaryOp.ofKind? (kind.rebase w.base) = UnaryOp.ofKind? kind := by
    cases kind <;> rfl
  rw [same]
  cases known : UnaryOp.ofKind? kind with
  | none => exact .pure rfl fun _ _ facing => facing.rel
  | some op =>
    have inside := UnaryOp.isEnd_of_ofKind? known
    exact (advance inside).bind fun span => .pure rfl fun _ _ => Begun.alike

theorem applyUnary_rebase (ops : List (UnaryOp × Span)) (operand : Expr) :
    (ops.map fun op => (op.1, op.2.rebase w.base)).foldl applyUnary (operand.rebase w.base) =
      (ops.foldl applyUnary operand).rebase w.base := by
  induction ops generalizing operand with
  | nil => rfl
  | cons op ops ih =>
    have first : applyUnary (operand.rebase w.base) (op.1, op.2.rebase w.base) =
        (applyUnary operand op).rebase w.base := by
      simp [applyUnary, Expr.rebase]
    rw [List.map_cons, List.foldl_cons, List.foldl_cons, first, ih]

theorem unary (nested : w.Reads n x y (Expr.rebase w.base)) (le : m ≤ n + 1) :
    w.Sim (w.Alike m) (Parse.unary x) (Parse.unary y) (Expr.rebase w.base)
      fun _ => w.Begun (m - 1) :=
  unaryOps.bind fun ops => (postfixed nested le).bind fun operand =>
    .pure (applyUnary_rebase ops operand) fun _ _ => id

/-! ### Operators -/

theorem apply_rebase (op : InfixOp) (lhs rhs : Expr) :
    op.apply (lhs.rebase w.base) (rhs.rebase w.base) = (op.apply lhs rhs).rebase w.base := by
  cases op <;> simp [InfixOp.apply, Expr.rebase]

theorem infixed {operand operand' : Parse Expr} {level : Nat}
    (operands : ∀ l ≤ m, w.Sim (w.Alike l) operand operand' (Expr.rebase w.base)
      fun _ => w.Begun (l - 1)) (lhs : Expr) :
    w.Sim (w.Begun m) (Parse.infixed operand level lhs)
      (Parse.infixed operand' level (lhs.rebase w.base)) (Option.map (Expr.rebase w.base))
      (Stepped w.Begun m) := by
  refine peek.bind fun kind => ?_
  have same : InfixOp.atLevel? level (kind.rebase w.base) = InfixOp.atLevel? level kind := by
    cases kind <;> rfl
  rw [same]
  cases known : InfixOp.atLevel? level kind with
  | none => exact .pure rfl fun _ _ facing => facing.rel
  | some op =>
    have inside := InfixOp.isEnd_of_atLevel? known
    refine (advance inside).bind fun _ => skipNewlines.bind fun _ => ?_
    refine ((operands _ (Nat.sub_le m 1)).pre fun _ _ => Begun.alike).bind fun rhs => ?_
    refine .pure (congrArg some (apply_rebase op lhs rhs)) fun _ _ begun => ?_
    exact begun.mono (Nat.sub_le _ 1)

theorem operands (nested : w.Reads n x y (Expr.rebase w.base)) (le : m ≤ n + 1) (level : Nat) :
    w.Sim (w.Alike m) (Parse.operands x level) (Parse.operands y level) (Expr.rebase w.base)
      fun _ => w.Begun (m - 1) := by
  induction level generalizing m with
  | zero => exact unary nested le
  | succ level ih =>
    refine (ih le).bind fun lhs => loop w.graded_begun (fun l less lhs => ?_) rfl
    refine infixed (fun k small => ih ?_) lhs
    exact Nat.le_trans small (Nat.le_trans less (Nat.le_trans (Nat.sub_le m 1) le))

theorem target?_rebase (e : Expr) : target? (e.rebase w.base) = target? e := by
  cases e <;> rfl

theorem expressionOver (nested : w.Reads n x y (Expr.rebase w.base)) (le : m ≤ n + 1) :
    w.Sim (w.Alike m) (Parse.expressionOver x) (Parse.expressionOver y) (Expr.rebase w.base)
      fun _ => w.Begun (m - 1) := by
  refine (operands nested le 6).bind fun left => atSymbol_facing.bind fun assigned => ?_
  cases assigned with
  | false => exact .pure rfl fun _ _ => id
  | true =>
    have read : w.Sim (Facing (w.Begun (m - 1)) (.symbol .assign)) Parse.advance Parse.advance
        (Span.rebase w.base) fun _ => w.Begun (m - 1 - 1) := advance rfl
    refine bind read fun mark => ?_
    have inside : m - 1 - 1 ≤ n := Nat.le_trans (Nat.sub_le _ 1) (Nat.sub_le_of_le_add le)
    refine skipNewlines.bind fun _ => (nested.inner inside).bind fun value => ?_
    rw [target?_rebase]
    cases target? left with
    | none => exact throw _ _
    | some target =>
      refine .pure ?_ fun _ _ begun => begun.mono (Nat.sub_le _ 1)
      simp [Expr.rebase]

end Sim

/-! ### Expressions of any nesting -/

/-- Cursors in a common part need a level. -/
theorem Alike.pos {c d : Cursor} (h : w.Alike n c d) : 1 ≤ n := by
  obtain ⟨xs, shared, -⟩ := h
  exact Nat.le_trans (Nat.le_add_left 1 _) shared.bound

/-- Without a level there is nothing to do in common. -/
theorem Reads.zero {x : Parse α} {y y' : Parse β} {f : α → β} (h : w.Reads 0 x y f) :
    w.Reads 0 x y' f := by
  intro first second m small
  refine ⟨(h first second m small).forward, fun c d alike => ?_⟩
  exact absurd (Nat.le_trans alike.pos small) (by decide)

theorem reads_over (nested : w.Reads n x y (Expr.rebase w.base)) (le : m ≤ n + 1) :
    w.Reads m (expressionOver x) (expressionOver y) (Expr.rebase w.base) :=
  fun first second _ small =>
    Sim.expressionOver (w := w.followed first second)
      (fun first second => nested first second) (Nat.le_trans small le)

theorem reads_zero (w : Tails) (levels : Nat) :
    w.Reads 0 (expressionUpTo levels) (expressionUpTo levels) (Expr.rebase w.base) := by
  induction levels with
  | zero => exact fun first second m _ => Sim.fail _
  | succ levels ih => exact reads_over ih (Nat.zero_le 1)

/-- The levels that are left do not matter as long as there are more than the tokens need. -/
theorem reads_expressionUpTo (w : Tails) {levels levels' : Nat} (le : n ≤ levels)
    (le' : n ≤ levels') :
    w.Reads n (expressionUpTo levels) (expressionUpTo levels') (Expr.rebase w.base) := by
  induction n generalizing levels levels' with
  | zero => exact (reads_zero w levels).zero
  | succ n ih =>
    obtain _ | levels := levels
    · cases le
    obtain _ | levels' := levels'
    · cases le'
    exact reads_over (ih (Nat.le_of_succ_le_succ le) (Nat.le_of_succ_le_succ le'))
      (Nat.le_refl (n + 1))

theorem nestingBound_le_append (ts us : List Token) :
    nestingBound ts ≤ nestingBound (ts ++ us) := by
  induction ts with
  | nil => exact Nat.le_add_left 1 _
  | cons t ts ih =>
    rw [List.cons_append, nestingBound_cons, nestingBound_cons]
    exact Nat.add_le_add_left ih _

/-- The reader of expressions of any nesting has levels enough of its own. -/
theorem reads_expression (w : Tails) {levels : Nat} (le : n ≤ levels) :
    w.Reads n expression (expressionUpTo levels) (Expr.rebase w.base) := by
  intro first second m small
  refine ⟨fun c => ?_, fun c d alike => ?_⟩
  · exact (reads_zero w (nestingBound c.tokens) first second 0 (Nat.le_refl 0)).forward c
  · obtain ⟨xs, shared, rest, rest'⟩ := alike
    have own : nestingBound xs ≤ nestingBound c.tokens := by
      rw [rest]
      exact nestingBound_le_append xs _
    have tight : (w.followed first second).Alike (nestingBound xs) c d :=
      ⟨xs, shared.tight, rest, rest'⟩
    have bound : nestingBound xs ≤ m := shared.bound
    have reads := reads_expressionUpTo w own
      (Nat.le_trans bound (Nat.le_trans small le)) first second _ (Nat.le_refl _)
    exact (reads.post fun _ _ _ begun => begun.mono (Nat.sub_le_sub_right bound 1)).agree c d tight

end Tails
end ScriptHost
