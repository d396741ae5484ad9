import ScriptHost.Proofs.Rendering.Ranks
import ScriptHost.Proofs.Rendering.Words

/-! The readers of what binds tightest: literals, names, parentheses, lists, calls, subscripts. -/

namespace ScriptHost

/-! ### First tokens -/

/-- Whether an expression can begin with a token. -/
def TokenKind.startsTree : TokenKind → Bool
  | .number _ | .string _ | .name _ | .field _ => true
  | .keyword k => [.true, .false, .null, .this].contains k
  | .symbol s => [.leftParen, .leftBracket, .bang, .binary .subtract].contains s
  | _ => false

/-- Tokens that an expression can begin with. -/
def Starts (ks : List TokenKind) : Prop := ∃ k ls, ks = k :: ls ∧ k.startsTree

theorem Starts.cons {k : TokenKind} (start : k.startsTree) (ks : List TokenKind) :
    Starts (k :: ks) := ⟨k, ks, rfl, start⟩

theorem Starts.append {ks : List TokenKind} (h : Starts ks) (more : List TokenKind) :
    Starts (ks ++ more) := by
  obtain ⟨k, ls, rfl, start⟩ := h
  exact .cons start _

theorem TokenKind.isNewline_of_startsTree {k : TokenKind} (h : k.startsTree) :
    k.isNewline = false := by
  cases k <;> first | rfl | cases h

theorem TokenKind.isSymbol_of_startsTree {k : TokenKind} {s : Symbol} (h : k.startsTree)
    (other : (TokenKind.symbol s).startsTree = false) : k.isSymbol s = false := by
  cases k with
  | symbol t =>
    refine beq_eq_false_iff_ne.mpr ?_
    rintro rfl
    rw [h] at other
    cases other
  | _ => rfl

theorem Starts.within {ws : List Word} (h : Starts (kindsOf ws)) (position rank : Nat) :
    Starts (kindsOf (within position rank ws)) := by
  unfold ScriptHost.within
  split
  · exact h
  · exact .cons rfl _

theorem Tree.starts : ∀ t : Tree, Starts t.kinds
  | .number _ _ | .string _ | .bool true | .bool false | .null | .this | .variable _ | .field _
  | .list _ | .ownCall _ _ | .assign (.variable _) _ | .assign (.field _) _ => .cons rfl _
  | .unary .negate _ | .unary .not _ => .cons rfl _
  | .operator op lhs rhs => by
    rw [kinds, words, kindsOf_append]
    exact ((Tree.starts lhs).within _ _).append _
  | .getter receiver x => by
    rw [kinds, words, kindsOf_append]
    exact ((Tree.starts receiver).within _ _).append _
  | .call receiver x args => by
    rw [kinds, words, kindsOf_append]
    exact ((Tree.starts receiver).within _ _).append _
  | .subscript receiver index => by
    rw [kinds, words, kindsOf_append]
    exact ((Tree.starts receiver).within _ _).append _

namespace Parse

variable {nested : Parse Expr} {c d : Cursor} {e : Expr} {k : TokenKind} {ks ls : List TokenKind}

/-! ### Expressions without operators -/

theorem Reached.of_primary (h : Reads (primary nested) 0 ks e) : Reached nested 0 ks e := by
  intro c k rest here stop
  obtain ⟨e', d, run, left, same⟩ := h here stop
  exact ⟨e', d, ⟨e', d, run, .refl⟩, left, same⟩

theorem primary_run (here : c.kinds = k :: ks) :
    peekSpan c = .ok c.span c ∧ peek c = .ok k c ∧ advance c = .ok c.span c.next := by
  refine ⟨rfl, ?_, rfl⟩
  rw [peek, Cursor.kind_of_kinds here]

/-- The expression that a token is by itself. -/
def leaf? : TokenKind → Option (Span → Expr)
  | .number x => some (.number · x)
  | .string [.literal text] => some (.string · text)
  | .keyword .true => some (.bool · true)
  | .keyword .false => some (.bool · false)
  | .keyword .null => some .null
  | .keyword .this => some .this
  | .field name => some (.field · name)
  | _ => none

theorem Reached.leaf {f : Span → Expr} (leaf : leaf? k = some f) :
    Reached nested 0 [k] (f default).unplaced := by
  refine .of_primary fun c k' rest here _ => ?_
  obtain ⟨span, first, advance⟩ := primary_run here
  refine ⟨f c.span, c.next, ?_, Cursor.kinds_next here, ?_⟩
  · rw [primary, bind_run span, bind_run first]
    unfold leaf? at leaf
    split at leaf <;> cases leaf <;> rfl
  · unfold leaf? at leaf
    split at leaf <;> cases leaf <;> rfl

/-- An expression in parentheses. -/
theorem Reached.parens (h : Reads nested 9 ks e) (starts : Starts ks) :
    Reached nested 0 (.symbol .leftParen :: (ks ++ [.symbol .rightParen])) e := by
  refine .of_primary fun c k rest here _ => ?_
  obtain ⟨span, first, advance⟩ := primary_run here
  simp only [List.cons_append, List.append_assoc, List.nil_append] at here
  have inside := Cursor.kinds_next here
  obtain ⟨e', d, run, left, same⟩ := h inside (by decide)
  obtain ⟨l, ls, rfl, start⟩ := starts
  have noLine := skipNewlines_none inside (TokenKind.isNewline_of_startsTree start)
  refine ⟨e', d.next, ?_, Cursor.kinds_next left, same⟩
  rw [primary, bind_run span, bind_run first]
  dsimp only
  rw [bind_run advance, bind_run noLine, bind_run (thenNewlines_run run left rfl),
    bind_run (require_run left rfl)]
  rfl

/-! ### Lists and arguments -/

/-- A step of the reader of items behind commas. -/
def itemStep {α : Type} (item : Parse α) (stop : Parse Bool) (items : List α) :
    Parse (Option (List α)) := do
  if ← acceptSymbol .comma then
    skipNewlines
    if ← stop then return none
    return some ((← item) :: items)
  else return none

/-- The kinds of the tokens of trees with commas between them. -/
def treesKinds (ts : List Tree) : List TokenKind := kindsOf (Tree.wordsAll ts)

/-- The kinds of the tokens of more trees, each behind a comma. -/
def moreKinds (ts : List Tree) : List TokenKind := kindsOf (Tree.wordsMore ts)

theorem treesKinds_cons (t : Tree) (ts : List Tree) :
    treesKinds (t :: ts) = t.kinds ++ moreKinds ts := by
  rw [treesKinds, Tree.wordsAll, kindsOf_append]
  rfl

theorem moreKinds_cons (t : Tree) (ts : List Tree) :
    moreKinds (t :: ts) = .symbol .comma :: (t.kinds ++ moreKinds ts) := by
  rw [moreKinds, Tree.wordsMore, kindsOf_symbol, kindsOf_blank, kindsOf_append]
  rfl

/-- A token behind an item of a list: a comma, or what closes the list. -/
inductive EndsItem : TokenKind → Prop
  | comma : EndsItem (.symbol .comma)
  | paren : EndsItem (.symbol .rightParen)
  | bracket : EndsItem (.symbol .rightBracket)

theorem EndsItem.grip (h : EndsItem k) : 9 < k.grip := by
  cases h <;> decide

theorem EndsItem.noLine (h : EndsItem k) : k.isNewline = false := by
  cases h <;> rfl

variable {stop : Parse Bool} {rest : List TokenKind} {t : Tree} {ts : List Tree}

/-- What stands behind an item ends it. -/
theorem moreKinds_ends (ts : List Tree) (closes : EndsItem k) (rest : List TokenKind) :
    ∃ l ls, moreKinds ts ++ k :: rest = l :: ls ∧ EndsItem l := by
  cases ts with
  | nil => exact ⟨k, rest, rfl, closes⟩
  | cons t ts => exact ⟨_, _, by rw [moreKinds_cons]; rfl, .comma⟩

/-- One item of a list, with the newlines behind it. -/
theorem item_run (reads : Reads nested 9 t.kinds t.expr) (closes : EndsItem k)
    (here : c.kinds = t.kinds ++ (moreKinds ts ++ k :: rest)) :
    ∃ e d, thenNewlines nested c = .ok e d ∧ d.kinds = moreKinds ts ++ k :: rest ∧
      e.unplaced = t.expr := by
  obtain ⟨l, ls, behind, ends⟩ := moreKinds_ends ts closes rest
  rw [behind] at here ⊢
  obtain ⟨e, d, run, left, same⟩ := reads here ends.grip
  exact ⟨e, d, thenNewlines_run run left ends.noLine, left, same⟩

theorem items_steps (closes : EndsItem k) (more : ∀ ⦃c l ls⦄, c.kinds = l :: ls → l.startsTree →
    stop c = .ok false c) (reads : ∀ t ∈ ts, Reads nested 9 t.kinds t.expr) (acc : List Expr)
    (here : c.kinds = moreKinds ts ++ k :: rest) :
    ∃ es d, Steps (itemStep (thenNewlines nested) stop) acc c (es.reverse ++ acc) d ∧
      d.kinds = k :: rest ∧ Expr.unplacedAll es = Tree.exprs ts := by
  induction ts generalizing c acc with
  | nil => exact ⟨[], c, .refl, here, rfl⟩
  | cons t ts ih =>
    rw [List.forall_mem_cons] at reads
    rw [moreKinds_cons, List.cons_append, List.append_assoc] at here
    have inside := Cursor.kinds_next here
    obtain ⟨e, d, run, left, same⟩ := item_run reads.1 closes inside
    obtain ⟨es, d', steps, rest', same'⟩ := ih reads.2 (e :: acc) left
    have step : itemStep (thenNewlines nested) stop acc c = .ok (some (e :: acc)) d := by
      obtain ⟨l, ls, first, start⟩ := t.starts
      rw [first, List.cons_append] at inside
      have noLine := skipNewlines_none inside (TokenKind.isNewline_of_startsTree start)
      rw [itemStep, bind_run (acceptSymbol_hit here), if_pos rfl, bind_run noLine,
        bind_run (more inside start), if_neg Bool.false_ne_true, bind_run run]
      rfl
    refine ⟨e :: es, d', ?_, rest', ?_⟩
    · have less : d.tokens.length < c.tokens.length := by
        rw [← d.length_kinds, ← c.length_kinds, left, here]
        simp only [List.length_cons, List.length_append]
        omega
      rw [List.reverse_cons, List.append_assoc]
      exact .head step less steps
    · rw [Expr.unplacedAll, Tree.exprs, same, same']

theorem itemStep_stop {item : Parse Expr} {items : List Expr}
    (here : c.kinds = k :: rest) (other : k.isSymbol .comma = false) :
    itemStep item stop items c = .ok none c := by
  have miss : c.kind.isSymbol .comma = false := by rw [Cursor.kind_of_kinds here, other]
  rw [itemStep, bind_run (acceptSymbol_miss miss), if_neg Bool.false_ne_true]
  rfl

/-- Some trees with commas between them. -/
theorem separated_run (stop : Parse Bool) (closes : EndsItem k)
    (noComma : k.isSymbol .comma = false)
    (more : ∀ ⦃c l ls⦄, c.kinds = l :: ls → l.startsTree → stop c = .ok false c)
    (reads : ∀ u ∈ t :: ts, Reads nested 9 u.kinds u.expr)
    (here : c.kinds = treesKinds (t :: ts) ++ k :: rest) :
    ∃ es d, separated (thenNewlines nested) stop c = .ok es d ∧ d.kinds = k :: rest ∧
      Expr.unplacedAll es = Tree.exprs (t :: ts) := by
  rw [List.forall_mem_cons] at reads
  rw [treesKinds_cons, List.append_assoc] at here
  obtain ⟨e, d, run, left, same⟩ := item_run reads.1 closes here
  obtain ⟨es, d', steps, rest', same'⟩ := items_steps closes more reads.2 [e] left
  refine ⟨e :: es, d', ?_, rest', ?_⟩
  · have all : loop (itemStep (thenNewlines nested) stop) [e] d = .ok (es.reverse ++ [e]) d' :=
      steps.loop (itemStep_stop rest' noComma)
    change (thenNewlines nested >>= _) c = _
    rw [bind_run run]
    change (loop (itemStep (thenNewlines nested) stop) [e] >>= _) d = _
    rw [bind_run all]
    change EStateM.Result.ok _ _ = _
    rw [List.reverse_append, List.reverse_reverse, List.reverse_singleton, List.singleton_append]
  · rw [Expr.unplacedAll, Tree.exprs, same, same']

theorem treesKinds_starts (t : Tree) (ts : List Tree) : Starts (treesKinds (t :: ts)) := by
  rw [treesKinds_cons]
  exact t.starts.append _

/-- Arguments in parentheses. -/
theorem arguments_run (reads : ∀ t ∈ ts, Reads nested 9 t.kinds t.expr)
    (here : c.kinds = .symbol .leftParen :: (treesKinds ts ++ .symbol .rightParen :: rest)) :
    ∃ es d, arguments nested c = .ok (some es) d ∧ d.kinds = rest ∧
      Expr.unplacedAll es = Tree.exprs ts := by
  have inside := Cursor.kinds_next here
  rw [arguments, bind_run (acceptSymbol_hit here), if_pos rfl]
  cases ts with
  | nil =>
    have close : require .afterArguments c.next = .ok _ c.next.next := require_run inside rfl
    refine ⟨[], c.next.next, ?_, Cursor.kinds_next inside, rfl⟩
    rw [bind_run (skipNewlines_none inside rfl), bind_run (atSymbol_run _ inside)]
    change (require .afterArguments >>= _) c.next = _
    rw [bind_run close]
    rfl
  | cons t ts =>
    obtain ⟨es, d, run, left, same⟩ := separated_run (pure false) .paren rfl
      (fun c l ls _ _ => rfl) reads inside
    have close : require .afterArguments d = .ok _ d.next := require_run left rfl
    obtain ⟨l, ls, first, start⟩ := treesKinds_starts t ts
    rw [first, List.cons_append] at inside
    have noLine := skipNewlines_none inside (TokenKind.isNewline_of_startsTree start)
    have noParen : l.isSymbol .rightParen = false := TokenKind.isSymbol_of_startsTree start rfl
    refine ⟨es, d.next, ?_, Cursor.kinds_next left, same⟩
    rw [bind_run noLine, bind_run (atSymbol_run _ inside), noParen]
    dsimp only
    rw [if_neg Bool.false_ne_true, bind_run run, bind_run close]
    rfl

theorem arguments_none (here : c.kind.isSymbol .leftParen = false) :
    arguments nested c = .ok none c := by
  rw [arguments, bind_run (acceptSymbol_miss here), if_neg Bool.false_ne_true]
  rfl

/-- A list. -/
theorem Reached.list (reads : ∀ t ∈ ts, Reads nested 9 t.kinds t.expr) :
    Reached nested 0 (.symbol .leftBracket :: (treesKinds ts ++ [.symbol .rightBracket]))
      (.list default (Tree.exprs ts)) := by
  refine .of_primary fun c k rest here _ => ?_
  obtain ⟨span, first, advance⟩ := primary_run here
  simp only [List.cons_append, List.append_assoc, List.nil_append] at here
  have inside := Cursor.kinds_next here
  rw [primary, bind_run span, bind_run first]
  dsimp only
  rw [bind_run advance]
  cases ts with
  | nil =>
    have close : require .afterListElements c.next = .ok _ c.next.next := require_run inside rfl
    refine ⟨.list (c.span.merge c.next.span) [], c.next.next, ?_, Cursor.kinds_next inside, rfl⟩
    rw [bind_run (skipNewlines_none inside rfl), bind_run (atSymbol_run _ inside)]
    change (require .afterListElements >>= _) c.next = _
    rw [bind_run close]
    rfl
  | cons t ts =>
    obtain ⟨es, d, run, left, same⟩ := separated_run (atSymbol .rightBracket) .bracket rfl
      (fun c l ls here start => by
        rw [atSymbol_run _ here, TokenKind.isSymbol_of_startsTree start rfl]) reads inside
    have close : require .afterListElements d = .ok _ d.next := require_run left rfl
    obtain ⟨l, ls, begins, start⟩ := treesKinds_starts t ts
    rw [begins, List.cons_append] at inside
    have noLine := skipNewlines_none inside (TokenKind.isNewline_of_startsTree start)
    have noBracket : l.isSymbol .rightBracket = false := TokenKind.isSymbol_of_startsTree start rfl
    refine ⟨.list (c.span.merge d.span) es, d.next, ?_, Cursor.kinds_next left, ?_⟩
    · rw [bind_run noLine, bind_run (atSymbol_run _ inside), noBracket,
        if_neg Bool.false_ne_true, bind_run run, bind_run close]
      rfl
    · rw [Expr.unplaced, same]

/-! ### Names, members and subscripts -/

/-- A name that no parenthesis follows. -/
theorem Reached.variable (word : String) :
    Reached nested 0 [.name word] (.variable default word) := by
  refine .of_primary fun c k rest here stop => ?_
  obtain ⟨span, first, advance⟩ := primary_run here
  have left := Cursor.kinds_next here
  have noParen : c.next.kind.isSymbol .leftParen = false := by
    rw [Cursor.kind_of_kinds left]
    exact TokenKind.isSymbol_eq_false (Nat.ne_of_gt stop)
  refine ⟨.variable c.span word, c.next, ?_, left, rfl⟩
  rw [primary, bind_run span, bind_run first]
  dsimp only
  rw [bind_run advance, bind_run (arguments_none noParen)]
  rfl

/-- A name with arguments is a call whose receiver is not written. -/
theorem Reached.ownCall (word : String) (reads : ∀ t ∈ ts, Reads nested 9 t.kinds t.expr) :
    Reached nested 0 (.name word :: .symbol .leftParen :: (treesKinds ts ++ [.symbol .rightParen]))
      (.call default (.this default) word (Tree.exprs ts)) := by
  refine .of_primary fun c k rest here stop => ?_
  obtain ⟨span, first, advance⟩ := primary_run here
  simp only [List.cons_append, List.append_assoc, List.nil_append] at here
  obtain ⟨es, d, run, left, same⟩ := arguments_run reads (Cursor.kinds_next here)
  refine ⟨.call (c.span.merge d.last) (.this (c.span.merge d.last)) word es, d, ?_, left, ?_⟩
  · rw [primary, bind_run span, bind_run first]
    dsimp only
    rw [bind_run advance, bind_run run]
    rfl
  · rw [Expr.unplaced, same]
    rfl

/-- One more member or subscript behind an expression. -/
theorem Reached.select {l : TokenKind} {e' : Expr} (h : Reached nested 0 ks e) (grips : 0 < l.grip)
    (step : ∀ ⦃f d k rest⦄, d.kinds = l :: (ls ++ k :: rest) → 0 < k.grip → f.unplaced = e →
      ∃ f' d', selector nested f d = .ok (some f') d' ∧ d'.kinds = k :: rest ∧ f'.unplaced = e') :
    Reached nested 0 (ks ++ l :: ls) e' := by
  intro c k rest here stop
  rw [List.append_assoc, List.cons_append] at here
  obtain ⟨f, d, ⟨first, c', run, steps⟩, left, same⟩ := h here grips
  obtain ⟨f', d', further, rest', same'⟩ := step left stop same
  refine ⟨f', d', ⟨first, c', run, steps.snoc further ?_⟩, rest', same'⟩
  rw [← d.length_kinds, ← d'.length_kinds, left, rest']
  simp only [List.length_cons, List.length_append]
  omega

theorem Reached.getter (word : String) (h : Reached nested 0 ks e) :
    Reached nested 0 (ks ++ [.symbol .dot, .name word]) (.getter default e word) := by
  refine h.select (by decide) fun f d k rest here stop same => ?_
  have inside := Cursor.kinds_next here
  have left := Cursor.kinds_next inside
  have noParen : d.next.next.kind.isSymbol .leftParen = false := by
    rw [Cursor.kind_of_kinds left]
    exact TokenKind.isSymbol_eq_false (Nat.ne_of_gt stop)
  refine ⟨.getter ((f.span.merge d.next.span).merge d.next.next.last) f word, d.next.next, ?_, left,
    ?_⟩
  · rw [selector, bind_run (acceptSymbol_hit here), if_pos rfl, bind_run (name_run inside)]
    change (arguments nested >>= _) d.next.next = _
    rw [bind_run (arguments_none noParen)]
    rfl
  · rw [Expr.unplaced, same]

theorem Reached.call (word : String) (h : Reached nested 0 ks e)
    (reads : ∀ t ∈ ts, Reads nested 9 t.kinds t.expr) :
    Reached nested 0
      (ks ++ .symbol .dot :: .name word :: .symbol .leftParen ::
        (treesKinds ts ++ [.symbol .rightParen]))
      (.call default e word (Tree.exprs ts)) := by
  refine h.select (by decide) fun f d k rest here stop same => ?_
  simp only [List.cons_append, List.append_assoc, List.nil_append] at here
  have inside := Cursor.kinds_next here
  obtain ⟨es, d', run, left, same'⟩ := arguments_run reads (Cursor.kinds_next inside)
  refine ⟨.call ((f.span.merge d.next.span).merge d'.last) f word es, d', ?_, left, ?_⟩
  · rw [selector, bind_run (acceptSymbol_hit here), if_pos rfl, bind_run (name_run inside)]
    change (arguments nested >>= _) d.next.next = _
    rw [bind_run run]
    rfl
  · rw [Expr.unplaced, same, same']

theorem Reached.subscript {index : Expr} (h : Reached nested 0 ks e)
    (reads : Reads nested 9 ls index) (starts : Starts ls) :
    Reached nested 0 (ks ++ .symbol .leftBracket :: (ls ++ [.symbol .rightBracket]))
      (.subscript default e index) := by
  refine h.select (by decide) fun f d k rest here stop same => ?_
  simp only [List.append_assoc, List.cons_append, List.nil_append] at here
  have inside := Cursor.kinds_next here
  obtain ⟨i, d', run, left, same'⟩ := reads inside (by decide)
  obtain ⟨l, ls, rfl, start⟩ := starts
  have noLine := skipNewlines_none inside (TokenKind.isNewline_of_startsTree start)
  have noDot : d.kind.isSymbol .dot = false := by
    rw [Cursor.kind_of_kinds here]
    rfl
  have close : require .afterSubscript d' = .ok _ d'.next := require_run left rfl
  refine ⟨.subscript (f.span.merge d'.span) f i, d'.next, ?_, Cursor.kinds_next left, ?_⟩
  · rw [selector, bind_run (acceptSymbol_miss noDot), if_neg Bool.false_ne_true,
      bind_run (acceptSymbol_hit here), if_pos rfl, bind_run noLine,
      bind_run (thenNewlines_run run left rfl), bind_run close]
    rfl
  · rw [Expr.unplaced, same, same']

end Parse
end ScriptHost
