import ScriptHost.Proofs.Sequence.Keeps
import ScriptHost.Proofs.Rendering.Tree

/-! Readers on tokens whose kinds are known. What a reader does depends on the kinds of the tokens
in front of it, and it leaves those that it has not read. A reader of expressions stops in front of
a token that binds looser than the operators that it reads; in front of one that does not, it is on
its way through a loop, and goes on from there. -/

namespace ScriptHost

/-! ### Tokens ahead -/

section

variable {c d e : Cursor} {k : TokenKind} {ks : List TokenKind} {s : Symbol}

/-- The kinds of the tokens that are left. -/
def Cursor.kinds (c : Cursor) : List TokenKind := c.tokens.map Token.kind

namespace Cursor

theorem kind_of_kinds (here : c.kinds = k :: ks) : c.kind = k := by
  obtain ⟨_ | ⟨t, rest⟩, last⟩ := c
  · cases here
  · exact (List.cons.inj here).1

theorem kinds_next (here : c.kinds = k :: ks) : c.next.kinds = ks := by
  obtain ⟨_ | ⟨t, rest⟩, last⟩ := c
  · cases here
  · exact (List.cons.inj here).2

theorem length_kinds (c : Cursor) : c.kinds.length = c.tokens.length := by
  rw [kinds, List.length_map]

end Cursor

namespace Parse

variable {α β : Type} {x : Parse α} {f : α → Parse β} {a : α}

theorem bind_run (first : x c = .ok a d) (f : α → Parse β) : (x >>= f) c = f a d := by
  change EStateM.bind x f c = _
  unfold EStateM.bind
  rw [first]

theorem acceptSymbol_hit (here : c.kinds = .symbol s :: ks) :
    acceptSymbol s c = .ok true c.next := by
  have passes : c.kind.isSymbol s = true := by
    rw [Cursor.kind_of_kinds here]
    exact beq_self_eq_true s
  exact if_pos passes

theorem acceptSymbol_miss (other : c.kind.isSymbol s = false) :
    acceptSymbol s c = .ok false c :=
  if_neg (by simp [other])

theorem skipNewlines_none (here : c.kinds = k :: ks) (other : k.isNewline = false) :
    skipNewlines c = .ok () c := by
  obtain ⟨_ | ⟨t, rest⟩, last⟩ := c
  · cases here
  · have noLine : t.kind.isNewline = false := (List.cons.inj here).1 ▸ other
    simp [skipNewlines, Cursor.skipNewlines, noLine]

theorem thenNewlines_run (run : x c = .ok a d) (here : d.kinds = k :: ks)
    (other : k.isNewline = false) : thenNewlines x c = .ok a d := by
  rw [thenNewlines, bind_run run, bind_run (skipNewlines_none here other)]
  rfl

theorem require_run {place : Place} (here : c.kinds = k :: ks) (fits : place.fits k) :
    require place c = .ok c.span c.next := by
  have first : peek c = .ok k c := by rw [peek, Cursor.kind_of_kinds here]
  rw [require, bind_run first, if_pos fits]
  rfl

theorem name_run {word : String} {role : NameRole} (here : c.kinds = .name word :: ks) :
    name role c = .ok (word, c.span) c.next := by
  have first : peek c = .ok (.name word) c := by rw [peek, Cursor.kind_of_kinds here]
  rw [name, bind_run first]
  rfl

theorem atSymbol_run (s : Symbol) (here : c.kinds = k :: ks) :
    atSymbol s c = .ok (k.isSymbol s) c := by
  rw [← Cursor.kind_of_kinds here]
  rfl

/-! ### Loops -/

/-- Steps of a loop, each of which goes on and reads a token. -/
inductive Steps (step : α → Parse (Option α)) : α → Cursor → α → Cursor → Prop
  | refl {a : α} {c : Cursor} : Steps step a c a c
  | head {a b a' : α} {c d e : Cursor} : step a c = .ok (some b) d →
    d.tokens.length < c.tokens.length → Steps step b d a' e → Steps step a c a' e

variable {step : α → Parse (Option α)} {b : α}

theorem Steps.trans {a' : α} (h : Steps step a c b d) (h' : Steps step b d a' e) :
    Steps step a c a' e := by
  induction h with
  | refl => exact h'
  | head run less _ ih => exact .head run less (ih h')

theorem Steps.snoc {a' : α} (h : Steps step a c b d) (run : step b d = .ok (some a') e)
    (less : e.tokens.length < d.tokens.length) : Steps step a c a' e :=
  h.trans (.head run less .refl)

theorem Steps.iterate {fuel : List Token} (h : Steps step a c b d) (stop : step b d = .ok none e)
    (few : c.tokens.length ≤ fuel.length) : Parse.iterate step fuel a c = .ok b e := by
  induction h generalizing fuel with
  | refl => exact Seam.iterate_stop fuel stop
  | @head a b a' c d' _ run less _ ih =>
    cases fuel with
    | nil => exact absurd few (by rw [List.length_nil]; omega)
    | cons t fuel =>
      rw [Seam.iterate_next t fuel run]
      exact ih stop (by rw [List.length_cons] at few; omega)

/-- A loop takes its steps until one stops. -/
theorem Steps.loop (h : Steps step a c b d) (stop : step b d = .ok none e) :
    Parse.loop step a c = .ok b e :=
  h.iterate stop (Nat.le_refl _)

end Parse
end

/-! ### Ranks -/

/-- The level of an operator in the reader is the next lower number than its rank. -/
theorem InfixOp.rank_eq (op : InfixOp) : op.rank = op.level + 1 := by
  obtain op | op := op <;> cases op <;> rfl

theorem InfixOp.rank_le (op : InfixOp) : op.rank ≤ 7 := by
  obtain op | op := op <;> cases op <;> decide

theorem InfixOp.ofKind?_symbol (op : InfixOp) : InfixOp.ofKind? (.symbol op.symbol) = some op := by
  obtain op | op := op
  · cases op <;> rfl
  · rfl

theorem UnaryOp.ofKind?_symbol (op : UnaryOp) : UnaryOp.ofKind? (.symbol op.symbol) = some op := by
  cases op <;> rfl

/-- How loose a token binds what stands in front of it: one more than the rank of the reader that
goes on with it. -/
def TokenKind.grip : TokenKind → Nat
  | .symbol .leftParen => 0
  | .symbol .dot | .symbol .leftBracket => 1
  | .symbol .assign => 9
  | kind => match InfixOp.ofKind? kind with
    | some op => op.rank + 1
    | none => 10

theorem InfixOp.grip_symbol (op : InfixOp) : (TokenKind.symbol op.symbol).grip = op.rank + 1 := by
  obtain op | op := op <;> cases op <;> rfl

theorem TokenKind.grip_of_ofKind? {kind : TokenKind} {op : InfixOp}
    (found : InfixOp.ofKind? kind = some op) : kind.grip = op.rank + 1 := by
  unfold InfixOp.ofKind? at found
  split at found
  · cases found
    rfl
  · cases found
    rfl
  · cases found
    exact InfixOp.grip_symbol (.binary _)
  · cases found

theorem TokenKind.isSymbol_eq_false {kind : TokenKind} {s : Symbol}
    (other : kind.grip ≠ (TokenKind.symbol s).grip) : kind.isSymbol s = false := by
  cases kind with
  | symbol t =>
    refine beq_eq_false_iff_ne.mpr ?_
    rintro rfl
    exact other rfl
  | _ => rfl

namespace Parse

variable {nested : Parse Expr} {c d : Cursor} {e : Expr} {p : Nat}

/-- The reader of what binds as tight as a rank. -/
def readAt (nested : Parse Expr) : Nat → Parse Expr
  | 0 => postfixed nested
  | n + 1 => operands nested n

/-- A step of the reader of operators in front of an operand. -/
def unaryStep (ops : List (UnaryOp × Span)) : Parse (Option (List (UnaryOp × Span))) := do
  match UnaryOp.ofKind? (← peek) with
  | some op => return some ((op, ← advance) :: ops)
  | none => return none

/-- The reader of a rank gets as far as an expression, be it through or not. -/
def Reach (nested : Parse Expr) : Nat → Cursor → Expr → Cursor → Prop
  | 0, c, e, d => ∃ first c', primary nested c = .ok first c' ∧
    Steps (selector nested) first c' e d
  | 1, c, e, d => ∃ ops c' operand, Steps unaryStep [] c ops c' ∧ UnaryOp.ofKind? c'.kind = none ∧
    postfixed nested c' = .ok operand d ∧ e = ops.foldl applyUnary operand
  | n + 2, c, e, d => ∃ first c', operands nested n c = .ok first c' ∧
    Steps (infixed (operands nested n) (n + 1)) first c' e d

/-! ### Where readers stop -/

theorem selector_stop (stop : 1 < d.kind.grip) : selector nested e d = .ok none d := by
  have noDot : d.kind.isSymbol .dot = false := TokenKind.isSymbol_eq_false (Nat.ne_of_gt stop)
  have noBracket : d.kind.isSymbol .leftBracket = false :=
    TokenKind.isSymbol_eq_false (Nat.ne_of_gt stop)
  rw [selector, bind_run (acceptSymbol_miss noDot), if_neg Bool.false_ne_true,
    bind_run (acceptSymbol_miss noBracket), if_neg Bool.false_ne_true]
  rfl

theorem unaryStep_stop {ops : List (UnaryOp × Span)} (stop : UnaryOp.ofKind? d.kind = none) :
    unaryStep ops d = .ok none d := by
  have first : peek d = .ok d.kind d := rfl
  rw [unaryStep, bind_run first, stop]
  rfl

theorem infixed_stop {n : Nat} {operand : Parse Expr} (stop : n + 2 < d.kind.grip) :
    infixed operand n e d = .ok none d := by
  have other : InfixOp.atLevel? n d.kind = none := by
    refine Option.filter_eq_none_iff.mpr fun op found same => ?_
    rw [TokenKind.grip_of_ofKind? found, op.rank_eq, beq_iff_eq.mp same] at stop
    omega
  have first : peek d = .ok d.kind d := rfl
  rw [infixed, bind_run first, other]
  rfl

/-- What the reader of a rank has got as far as is what it reads, if no token goes on with it. -/
theorem Reach.finish (h : Reach nested p c e d) (stop : p + 1 < d.kind.grip) :
    readAt nested p c = .ok e d := by
  obtain _ | _ | n := p
  · obtain ⟨first, c', run, steps⟩ := h
    rw [readAt, postfixed, bind_run run]
    exact steps.loop (selector_stop stop)
  · obtain ⟨ops, c', operand, steps, noOp, run, rfl⟩ := h
    have read : unaryOps c = .ok ops c' := steps.loop (unaryStep_stop noOp)
    rw [readAt, operands, unary, bind_run read, bind_run run]
    rfl
  · obtain ⟨first, c', run, steps⟩ := h
    rw [readAt, operands, bind_run run]
    exact steps.loop (infixed_stop stop)

/-- No expression without operators begins with one. -/
theorem primary_noUnary (run : primary nested c = .ok e d) : UnaryOp.ofKind? c.kind = none := by
  have span : peekSpan c = .ok c.span c := rfl
  have first : peek c = .ok c.kind c := rfl
  rw [primary, bind_run span, bind_run first] at run
  generalize c.kind = kind at run ⊢
  unfold UnaryOp.ofKind?
  split
  · cases run
  · cases run
  · rfl

/-- The reader of the next rank gets as far. -/
theorem Reach.succ (h : Reach nested p c e d) (stop : p + 1 < d.kind.grip) :
    Reach nested (p + 1) c e d := by
  have run := h.finish stop
  obtain _ | p := p
  · obtain ⟨first, c', begun, steps⟩ := h
    exact ⟨[], c, e, .refl, primary_noUnary begun, run, rfl⟩
  · exact ⟨e, d, run, .refl⟩

/-- The readers of all looser ranks get as far, up to the one that goes on. -/
theorem Reach.lift {q : Nat} (h : Reach nested p c e d) (le : p ≤ q) (stop : q < d.kind.grip) :
    Reach nested q c e d := by
  induction q, le using Nat.le_induction with
  | base => exact h
  | succ q _ ih => exact (ih (by omega)).succ stop

/-! ### What is read -/

/-- A reader reads tokens of some kinds as an expression, up to its places, wherever the next token
is not one that it goes on with. -/
def Reads (x : Parse Expr) (p : Nat) (ks : List TokenKind) (e : Expr) : Prop :=
  ∀ ⦃c k rest⦄, c.kinds = ks ++ k :: rest → p < k.grip →
    ∃ e' d, x c = .ok e' d ∧ d.kinds = k :: rest ∧ e'.unplaced = e

/-- The reader of a rank gets as far as an expression, over tokens of some kinds. -/
def Reached (nested : Parse Expr) (p : Nat) (ks : List TokenKind) (e : Expr) : Prop :=
  ∀ ⦃c k rest⦄, c.kinds = ks ++ k :: rest → p < k.grip →
    ∃ e' d, Reach nested p c e' d ∧ d.kinds = k :: rest ∧ e'.unplaced = e

variable {ks ls : List TokenKind} {q : Nat}

theorem Reached.lift (h : Reached nested p ks e) (le : p ≤ q) : Reached nested q ks e := by
  intro c k rest here stop
  obtain ⟨e', d, reach, left, same⟩ := h here (Nat.lt_of_le_of_lt le stop)
  refine ⟨e', d, reach.lift le ?_, left, same⟩
  rw [Cursor.kind_of_kinds left]
  exact stop

theorem Reached.reads (h : Reached nested p ks e) : Reads (readAt nested p) (p + 1) ks e := by
  intro c k rest here stop
  obtain ⟨e', d, reach, left, same⟩ := h here (by omega)
  refine ⟨e', d, reach.finish ?_, left, same⟩
  rw [Cursor.kind_of_kinds left]
  exact stop

/-! ### Operators -/

theorem unaryStep_go {op : UnaryOp} {ops : List (UnaryOp × Span)}
    (found : UnaryOp.ofKind? c.kind = some op) :
    unaryStep ops c = .ok (some ((op, c.span) :: ops)) c.next := by
  have first : peek c = .ok c.kind c := rfl
  rw [unaryStep, bind_run first, found]
  rfl

/-- The operators that are already read do not matter. -/
theorem Steps.unary_append {ops ops' : List (UnaryOp × Span)}
    (h : Steps unaryStep ops c ops' d) (more : List (UnaryOp × Span)) :
    Steps unaryStep (ops ++ more) c (ops' ++ more) d := by
  induction h with
  | refl => exact .refl
  | @head a b a' c d e run less _ ih =>
    cases found : UnaryOp.ofKind? c.kind with
    | none =>
      rw [unaryStep_stop found] at run
      cases run
    | some op =>
      rw [unaryStep_go found] at run
      cases run
      exact .head (unaryStep_go found) less ih

theorem Cursor.length_next (here : c.kinds = k :: ks) :
    c.next.tokens.length < c.tokens.length := by
  rw [← c.length_kinds, ← c.next.length_kinds, here, c.kinds_next here, List.length_cons]
  exact Nat.lt_succ_self _

/-- An operator in front of an operand. -/
theorem Reached.unary (op : UnaryOp) (h : Reached nested 1 ks e) :
    Reached nested 1 (.symbol op.symbol :: ks) (.unary default op e) := by
  intro c k rest here stop
  rw [List.cons_append] at here
  have found : UnaryOp.ofKind? c.kind = some op := by
    rw [Cursor.kind_of_kinds here, op.ofKind?_symbol]
  obtain ⟨_, d, ⟨ops, c', operand, steps, noOp, run, rfl⟩, left, rfl⟩ :=
    h (Cursor.kinds_next here) stop
  have all : Steps unaryStep [] c (ops ++ [(op, c.span)]) c' :=
    .head (unaryStep_go found) (Cursor.length_next here) (steps.unary_append _)
  refine ⟨_, d, ⟨_, c', operand, all, noOp, run, rfl⟩, left, ?_⟩
  rw [List.foldl_append]
  rfl

theorem InfixOp.unplaced_apply (op : InfixOp) (lhs rhs : Expr) :
    (op.apply lhs rhs).unplaced = op.expr lhs.unplaced rhs.unplaced := by
  cases op <;> rfl

/-- An operator between operands. The operand on its right binds tighter. -/
theorem Reached.operator (op : InfixOp) {lhs rhs : Expr} {l : TokenKind}
    (left : Reached nested op.rank ks lhs) (right : Reached nested (op.rank - 1) (l :: ls) rhs)
    (noLine : l.isNewline = false) :
    Reached nested op.rank (ks ++ .symbol op.symbol :: l :: ls) (op.expr lhs rhs) := by
  obtain ⟨n, level⟩ : ∃ n, op.level = n + 1 := by
    obtain op | op := op <;> cases op <;> exact ⟨_, rfl⟩
  have rank : op.rank = n + 2 := by rw [op.rank_eq, level]
  have grip := op.grip_symbol
  rw [rank] at left right grip ⊢
  intro c k rest here stop
  rw [List.append_assoc, List.cons_append, List.cons_append] at here
  obtain ⟨lhs', d, ⟨first, c', run, steps⟩, rest', rfl⟩ := left here (by omega)
  have inside : d.next.kinds = (l :: ls) ++ k :: rest := Cursor.kinds_next rest'
  obtain ⟨rhs', d', run', rest'', rfl⟩ := right.reads inside stop
  have found : InfixOp.atLevel? (n + 1) d.kind = some op := by
    rw [Cursor.kind_of_kinds rest', InfixOp.atLevel?, op.ofKind?_symbol, Option.filter_some, level,
      beq_self_eq_true, if_pos rfl]
  have further :
      infixed (operands nested n) (n + 1) lhs' d = .ok (some (op.apply lhs' rhs')) d' := by
    have kind : peek d = .ok d.kind d := rfl
    have advance : advance d = .ok d.span d.next := rfl
    have operand : operands nested n d.next = .ok rhs' d' := run'
    rw [infixed, bind_run kind, found]
    dsimp only
    rw [bind_run advance, bind_run (skipNewlines_none inside noLine), bind_run operand]
    rfl
  refine ⟨_, d', ⟨first, c', run, steps.snoc further ?_⟩, rest'', InfixOp.unplaced_apply ..⟩
  rw [← d.length_kinds, ← d'.length_kinds, rest', rest'']
  simp only [List.length_cons, List.length_append]
  omega

end Parse
end ScriptHost
