import ScriptHost.Proofs.Progress
import ScriptHost.Proofs.Rendering.Postfix

/-! A tree that is written down with no more parentheses than its operators need is read back as it
was. -/

namespace ScriptHost

variable {nested : Parse Expr} {c d : Cursor} {e : Expr} {k : TokenKind} {ks : List TokenKind}
  {levels : Nat} {t : Tree} {ts : List Tree}

namespace Parse

/-! ### Assignments -/

/-- Without an assignment, an expression is what the operators make of it. -/
theorem Reached.reads_over (h : Reached nested 7 ks e) : Reads (expressionOver nested) 9 ks e := by
  intro c k rest here stop
  obtain ⟨e', d, run, left, same⟩ := h.reads here (Nat.lt_of_succ_lt stop)
  have noAssign : k.isSymbol .assign = false := TokenKind.isSymbol_eq_false (Nat.ne_of_gt stop)
  have operands : operands nested 6 c = .ok e' d := run
  refine ⟨e', d, ?_, left, same⟩
  rw [expressionOver, bind_run operands, bind_run (atSymbol_run _ left), noAssign,
    if_neg Bool.false_ne_true]
  rfl

/-- The places of an expression do not matter to whether it can be assigned to. -/
theorem target?_unplaced (e : Expr) : target? e.unplaced = target? e := by
  cases e <;> rfl

/-- What can be assigned to is read as a target. -/
theorem Reached.assignable (nested : Parse Expr) (target : Assignable) :
    ∃ e, target? e = some target.target ∧ Reached nested 0 (kindsOf [target.word]) e := by
  obtain x | x := target
  · exact ⟨_, rfl, .variable x.text⟩
  · exact ⟨_, rfl, .leaf (k := .field x.text) rfl⟩

/-- An assignment. Its value reaches as far as an expression can. -/
theorem Reads.assign (target : Assignable) (h : Reads nested 9 ks e) (starts : Starts ks) :
    Reads (expressionOver nested) 9 (kindsOf [target.word] ++ .symbol .assign :: ks)
      (.assign default target.target e) := by
  intro c k rest here stop
  rw [List.append_assoc, List.cons_append] at here
  obtain ⟨_, isTarget, reached⟩ := Reached.assignable nested target
  have operands : Reads (operands nested 6) 8 _ _ := (reached.lift (Nat.zero_le 7)).reads
  obtain ⟨place, d, run, left, rfl⟩ := operands here (by decide)
  have inside := Cursor.kinds_next left
  obtain ⟨value, d', run', rest', same⟩ := h inside stop
  obtain ⟨l, ls, rfl, start⟩ := starts
  have noLine := skipNewlines_none inside (TokenKind.isNewline_of_startsTree start)
  have mark : advance d = .ok d.span d.next := rfl
  have atAssign : (TokenKind.symbol .assign).isSymbol .assign = true := rfl
  rw [target?_unplaced] at isTarget
  refine ⟨.assign (place.span.merge value.span) target.target value, d', ?_, rest', ?_⟩
  · rw [expressionOver, bind_run run, bind_run (atSymbol_run _ left), if_pos atAssign,
      bind_run mark, bind_run noLine, bind_run run', isTarget]
    rfl
  · rw [Expr.unplaced, same]

end Parse

/-! ### Trees -/

open Parse

/-- A tree is read at every level that its tokens can nest to; one that is no assignment is also
reached by the readers of its rank and of all looser ones. -/
def Tree.Readable (t : Tree) : Prop := ∀ ⦃levels⦄, t.kinds.length ≤ levels + 1 →
  Reads (expressionUpTo (levels + 1)) 9 t.kinds t.expr ∧
    (t.rank ≤ 7 → Reached (expressionUpTo levels) t.rank t.kinds t.expr)

namespace Tree.Readable

theorem of_reached (tight : t.rank ≤ 7) (reached : ∀ ⦃levels⦄, t.kinds.length ≤ levels + 1 →
    Reached (expressionUpTo levels) t.rank t.kinds t.expr) : t.Readable := fun _ few =>
  ⟨((reached few).lift tight).reads_over, fun _ => reached few⟩

theorem reads (h : t.Readable) (few : t.kinds.length ≤ levels) :
    Reads (expressionUpTo levels) 9 t.kinds t.expr := by
  obtain _ | levels := levels
  · obtain ⟨k, ks, kinds, -⟩ := t.starts
    rw [kinds] at few
    exact absurd few (by simp)
  · exact (h few).1

/-- In a position that takes a rank, a tree is read with or without parentheses. -/
theorem within (h : t.Readable) {position : Nat} (tight : position ≤ 7)
    (few : (kindsOf (within position t.rank t.words)).length ≤ levels + 1) :
    Reached (expressionUpTo levels) position (kindsOf (within position t.rank t.words)) t.expr := by
  unfold ScriptHost.within at few ⊢
  split at few
  · rename_i le
    rw [if_pos le]
    exact ((h few).2 (Nat.le_trans le tight)).lift le
  · rename_i looser
    have parens : kindsOf (.symbol .leftParen :: (t.words ++ [.symbol .rightParen])) =
        .symbol .leftParen :: (t.kinds ++ [.symbol .rightParen]) := by
      rw [kindsOf_symbol, kindsOf_append]
      rfl
    rw [parens] at few
    rw [if_neg looser, parens]
    have inside : t.kinds.length ≤ levels := by
      simp only [List.length_cons, List.length_append, List.length_nil] at few
      omega
    exact (Reached.parens (h.reads inside) t.starts).lift (Nat.zero_le position)

/-- A tree of one token. -/
theorem leaf {f : Span → Expr} (kind : t.kinds = [k]) (leaf : leaf? k = some f)
    (rank : t.rank = 0) (same : (f default).unplaced = t.expr) : t.Readable :=
  .of_reached (by omega) fun _ _ => by
    rw [kind, rank, ← same]
    exact .leaf leaf

end Tree.Readable

/-- No item has more tokens than the list. -/
theorem length_kinds_le (there : t ∈ ts) : t.kinds.length ≤ (treesKinds ts).length := by
  have more : ∀ ts, t ∈ ts → t.kinds.length ≤ (moreKinds ts).length := by
    intro ts there
    induction ts with
    | nil => exact absurd there List.not_mem_nil
    | cons u us ih =>
      rw [moreKinds_cons, List.length_cons, List.length_append]
      rcases List.mem_cons.mp there with rfl | there
      · omega
      · have := ih there
        omega
  cases ts with
  | nil => exact absurd there List.not_mem_nil
  | cons u us =>
    rw [treesKinds_cons, List.length_append]
    rcases List.mem_cons.mp there with rfl | there
    · omega
    · have := more us there
      omega

theorem reads_items (all : ∀ t ∈ ts, t.Readable) (few : (treesKinds ts).length ≤ levels) :
    ∀ t ∈ ts, Reads (expressionUpTo levels) 9 t.kinds t.expr := fun t there =>
  (all t there).reads (Nat.le_trans (length_kinds_le there) few)

namespace Tree

mutual

/-- Every tree is read back. -/
theorem readable : ∀ t : Tree, t.Readable
  | .number _ _ | .string _ | .bool true | .bool false | .null | .this | .field _ =>
    .leaf rfl rfl rfl rfl
  | .variable x => .of_reached (Nat.zero_le 7) fun _ _ => .variable x.text
  | .list elements => .of_reached (Nat.zero_le 7) fun levels few => by
    have kinds : (list elements).kinds =
        .symbol .leftBracket :: (treesKinds elements ++ [.symbol .rightBracket]) := by
      simp [Tree.kinds, words, treesKinds]
    rw [kinds] at few ⊢
    simp only [List.length_cons, List.length_append] at few
    exact .list (reads_items (readableAll elements) (by omega))
  | .unary op operand => .of_reached (Nat.le_of_ble_eq_true rfl) fun levels few => by
    have kinds : (unary op operand).kinds =
        .symbol op.symbol :: kindsOf (within 1 operand.rank operand.words) := by
      simp [Tree.kinds, words]
    rw [kinds] at few ⊢
    rw [List.length_cons] at few
    exact .unary op ((readable operand).within (by omega) (by omega))
  | .operator op lhs rhs => .of_reached op.rank_le fun levels few => by
    have kinds : (operator op lhs rhs).kinds = kindsOf (within op.rank lhs.rank lhs.words) ++
        .symbol op.symbol :: kindsOf (within (op.rank - 1) rhs.rank rhs.words) := by
      simp [Tree.kinds, words]
    have tight := op.rank_le
    obtain ⟨k, ks, begins, start⟩ := rhs.starts.within (op.rank - 1) rhs.rank
    rw [kinds] at few ⊢
    rw [List.length_append, List.length_cons] at few
    have left : Reached (expressionUpTo levels) op.rank _ lhs.expr :=
      (readable lhs).within tight (by omega)
    have right : Reached (expressionUpTo levels) (op.rank - 1) _ rhs.expr :=
      (readable rhs).within (by omega) (by omega)
    rw [begins] at right ⊢
    exact .operator op left right (TokenKind.isNewline_of_startsTree start)
  | .assign target value => by
    intro levels few
    have kinds : (assign target value).kinds =
        kindsOf [target.word] ++ .symbol .assign :: value.kinds := by
      have word := kindsOf_append [target.word] (.blank :: .symbol .assign :: .blank :: value.words)
      simpa [Tree.kinds, words] using word
    refine ⟨?_, fun tight => absurd (show 8 ≤ 7 from tight) (by decide)⟩
    rw [kinds] at few ⊢
    rw [List.length_append, List.length_cons] at few
    exact .assign target ((readable value).reads (by omega)) value.starts
  | .getter receiver x => .of_reached (Nat.zero_le 7) fun levels few => by
    have kinds : (getter receiver x).kinds =
        kindsOf (within 0 receiver.rank receiver.words) ++ [.symbol .dot, .name x.text] := by
      simp [Tree.kinds, words]
    rw [kinds] at few ⊢
    rw [List.length_append] at few
    exact .getter x.text ((readable receiver).within (by omega) (by omega))
  | .call receiver x args => .of_reached (Nat.zero_le 7) fun levels few => by
    have kinds : (call receiver x args).kinds =
        kindsOf (within 0 receiver.rank receiver.words) ++ .symbol .dot :: .name x.text ::
          .symbol .leftParen :: (treesKinds args ++ [.symbol .rightParen]) := by
      simp [Tree.kinds, words, treesKinds]
    rw [kinds] at few ⊢
    simp only [List.length_cons, List.length_append] at few
    exact .call x.text ((readable receiver).within (by omega) (by omega))
      (reads_items (readableAll args) (by omega))
  | .ownCall x args => .of_reached (Nat.zero_le 7) fun levels few => by
    have kinds : (ownCall x args).kinds =
        .name x.text :: .symbol .leftParen :: (treesKinds args ++ [.symbol .rightParen]) := by
      simp [Tree.kinds, words, treesKinds]
    rw [kinds] at few ⊢
    simp only [List.length_cons, List.length_append] at few
    exact .ownCall x.text (reads_items (readableAll args) (by omega))
  | .subscript receiver index => .of_reached (Nat.zero_le 7) fun levels few => by
    have kinds : (subscript receiver index).kinds =
        kindsOf (within 0 receiver.rank receiver.words) ++ .symbol .leftBracket ::
          (index.kinds ++ [.symbol .rightBracket]) := by
      simp [Tree.kinds, words]
    rw [kinds] at few ⊢
    simp only [List.length_cons, List.length_append] at few
    exact .subscript ((readable receiver).within (by omega) (by omega))
      ((readable index).reads (by omega)) index.starts

theorem readableAll : ∀ ts : List Tree, ∀ t ∈ ts, t.Readable
  | [], _, there => absurd there List.not_mem_nil
  | t :: ts, u, there => by
    rcases List.mem_cons.mp there with same | there
    · exact same ▸ readable t
    · exact readableAll ts u there

end

end Tree

/-! ### Scripts -/

theorem statementOver_run {readers : Parse.Nested} (start : c.kind.startsTree)
    (run : readers.expression c = .ok e d) : statementOver readers c = .ok (.expr e) d := by
  have first : peek c = .ok c.kind c := rfl
  have statement : (do return Stmt.expr (← readers.expression)) c = .ok (.expr e) d := by
    rw [bind_run run]
    rfl
  rw [statementOver, bind_run first]
  generalize c.kind = kind at start ⊢
  split <;> first | cases start | exact statement

/-- What begins like an expression is a statement of an expression. -/
theorem declarationOver_run {readers : Parse.Nested} (start : c.kind.startsTree)
    (run : readers.expression c = .ok e d) : declarationOver readers c = .ok (.expr e) d := by
  have first : peek c = .ok c.kind c := rfl
  have statement := statementOver_run start run
  rw [declarationOver, bind_run first]
  generalize c.kind = kind at start ⊢
  split <;> first | cases start | exact statement

theorem terminator_end (ends : c.kind = .endOfInput) : terminator c = .ok () c := by
  have first : peek c = .ok .endOfInput c := by rw [peek, ends]
  rw [terminator, bind_run first]
  rfl

/-- An expression that is alone on its line is an item. -/
theorem item_run {levels : Nat} (start : c.kind.startsTree)
    (run : expressionUpTo (levels + 1) c = .ok e d) (ends : d.kind = .endOfInput) :
    Parse.item (levels + 1) c = .ok (.expr e) d := by
  have here : (nestedUpTo (expressionUpTo (levels + 1)) levels).expression c = .ok e d := by
    cases levels <;> exact run
  have declaration : (nestedUpTo (expressionUpTo (levels + 1)) (levels + 1)).declaration c =
      .ok (.expr e) d := declarationOver_run start here
  rw [Parse.item, bind_run declaration, bind_run (terminator_end ends)]
  rfl

/-- An expression that is all there is, is the only item. -/
theorem itemsUpTo_expression {fuel : List Token} (here : c.kinds = k :: ks) (start : k.startsTree)
    (run : expressionUpTo (levels + 1) c = .ok e d) (left : d.kinds = [.endOfInput])
    (some_ : fuel ≠ []) : c.itemsUpTo (levels + 1) fuel = [.ok (.expr e)] := by
  have kind := Cursor.kind_of_kinds here
  have ends := Cursor.kind_of_kinds left
  have noLine {c : Cursor} {k : TokenKind} {ks : List TokenKind} (here : c.kinds = k :: ks)
      (other : k.isNewline = false) : Cursor.skipNewlines c.tokens c.last = c :=
    (EStateM.Result.ok.inj (skipNewlines_none here other)).2
  have first : c.item? (levels + 1) = some (.ok (.expr e), d) := by
    rw [Cursor.item?_eq_ok_iff, noLine here (TokenKind.isNewline_of_startsTree start), kind]
    refine ⟨?_, item_run (kind ▸ start) run ends⟩
    cases k <;> first | rfl | cases start
  have second : d.item? (levels + 1) = none := by
    rw [Cursor.item?_eq_none_iff, noLine left rfl, ends]
    rfl
  obtain ⟨u, fuel, rfl⟩ := List.exists_cons_of_ne_nil some_
  rw [Cursor.itemsUpTo, first]
  exact congrArg (_ :: ·) (Cursor.itemsUpTo_none second)

theorem length_lt_nestingBound (us : List Token) : us.length < nestingBound us := by
  induction us with
  | nil => exact Nat.one_pos
  | cons u us ih =>
    have := u.kind.nesting_pos
    rw [List.length_cons, nestingBound_cons]
    omega

/-- The text of a tree is a script of one statement, and that is the tree, up to its places. -/
theorem parseModule_text (t : Tree) :
    ∃ e, parseModule t.text = .ok [.expr e] ∧ e.unplaced = t.expr := by
  have kinds : (Cursor.start (tokens t.text)).kinds = t.kinds ++ [.endOfInput] := t.kinds_tokens
  have length := Cursor.length_kinds (Cursor.start (tokens t.text))
  have few : t.kinds.length ≤ nestingBound (tokens t.text) := by
    have fits : (Cursor.start (tokens t.text)).tokens.length < _ := length_lt_nestingBound _
    rw [kinds, List.length_append] at length
    exact Nat.le_of_lt (Nat.lt_of_le_of_lt (by omega) fits)
  obtain ⟨e, d, run, left, same⟩ := t.readable.reads few kinds (by decide)
  refine ⟨e, parseModule_eq_ok_iff.mpr ?_, same⟩
  obtain ⟨k, ks, first, start⟩ := t.starts
  rw [first, List.cons_append] at kinds
  obtain ⟨levels, bound⟩ : ∃ levels, nestingBound (tokens t.text) = levels + 1 := ⟨_, rfl⟩
  have some_ : tokens t.text ≠ [] := by
    intro none_
    rw [Cursor.start, none_] at kinds
    cases kinds
  rw [bound] at run
  rw [items, bound]
  exact itemsUpTo_expression kinds start run left some_

example (a b c : Identifier) :
    (Tree.operator (.binary .subtract) (.variable a)
      (.unary .negate (.operator (.binary .add) (.variable b) (.variable c)))).words =
    [.name a, .blank, .symbol (.binary .subtract), .blank, .symbol (.binary .subtract),
      .symbol .leftParen, .name b, .blank, .symbol (.binary .add), .blank, .name c,
      .symbol .rightParen] := rfl

end ScriptHost
