import ScriptHost.Proofs.Reading.Statements

/-! The items of a script, in the common part of two texts. A text that stands behind another one
has the items that it has alone, moved. -/

namespace ScriptHost

/-- An item of a fragment, moved onto the text that encloses it. -/
def rebaseItem (base : Position) : Except SyntaxError Stmt → Except SyntaxError Stmt
  | .ok s => .ok (s.rebase base)
  | .error e => .error (e.rebase base)

theorem Cursor.recover_suffix (depth : Nat) (tokens : List Token) (last : Span) :
    (Cursor.recover depth tokens last).tokens <:+ tokens := by
  induction tokens generalizing depth last with
  | nil => exact List.suffix_rfl
  | cons t rest ih =>
    unfold Cursor.recover
    split
    · exact List.suffix_rfl
    · split
      · exact (ih _ _).trans (List.suffix_cons t rest)
      · split
        · exact (ih _ _).trans (List.suffix_cons t rest)
        · exact (ih _ _).trans (List.suffix_cons t rest)

/-- Recovery in front of a token that ends nothing goes past it. -/
theorem Cursor.recover_lt {t : Token} {rest : List Token} (last : Span)
    (inside : t.kind.isEnd = false) (line : t.kind.isNewline = false) :
    (Cursor.recover 0 (t :: rest) last).tokens.length < (t :: rest).length := by
  unfold Cursor.recover
  rw [inside, line]
  simp only [Bool.false_and, Bool.or_self, Bool.false_eq_true, if_false]
  have le (depth : Nat) := (Cursor.recover_suffix depth rest t.span).length_le
  split
  · exact Nat.lt_succ_of_le (le _)
  · split
    · exact Nat.lt_succ_of_le (le _)
    · exact Nat.lt_succ_of_le (le _)

/-- Recovery from a fault in front of such a token goes past it, too. -/
theorem Cursor.recover_shorter {c d : Cursor} (inside : c.kind.isEnd = false)
    (line : c.kind.isNewline = false) (read : d.tokens <:+ c.tokens) :
    (Cursor.recover 0 d.tokens d.last).tokens.length < c.tokens.length := by
  obtain equal | fewer := Nat.eq_or_lt_of_le read.length_le
  · -- The fault is at the token where the item starts.
    rw [read.eq_of_length equal]
    obtain ⟨_ | ⟨t, rest⟩, last⟩ := c
    · cases inside
    · exact Cursor.recover_lt d.last inside line
  · exact Nat.lt_of_le_of_lt (Cursor.recover_suffix _ _ _).length_le fewer

theorem Cursor.skipNewlines_kind (tokens : List Token) (last : Span) :
    (Cursor.skipNewlines tokens last).kind.isNewline = false := by
  induction tokens generalizing last with
  | nil => rfl
  | cons t rest ih =>
    unfold Cursor.skipNewlines
    split
    · exact ih t.span
    · rename_i plain
      exact Bool.eq_false_iff.mpr plain

theorem Cursor.skipNewlines_self {c : Cursor} (plain : c.kind.isNewline = false) :
    Cursor.skipNewlines c.tokens c.last = c := by
  obtain ⟨ts, last⟩ := c
  cases ts with
  | nil => rfl
  | cons t rest =>
    rw [Cursor.skipNewlines, if_neg]
    exact Bool.eq_false_iff.mp plain

/-- After a fault in an item, what is broken is skipped. -/
theorem Cursor.item?_error {levels : Nat} {c d : Cursor} {e : SyntaxError}
    (plain : c.kind.isNewline = false) (goes : c.kind.isEnd = false)
    (run : Parse.item levels c = .error e d) :
    c.item? levels = some (.error e, Cursor.recover 0 d.tokens d.last) := by
  unfold Cursor.item?
  rw [Cursor.skipNewlines_self plain]
  dsimp only
  rw [goes, run]
  rfl

namespace Tails

variable {w : Tails} {m n : Nat}

theorem recovered {xs : List Token} (shared : w.Shared n xs) (depth : Nat) (a b : Span) :
    w.Escaped (Cursor.recover depth (xs ++ w.first) a) ∨
      w.Alike n (Cursor.recover depth (xs ++ w.first) a)
        (Cursor.recover depth (xs.map (Token.rebase w.base) ++ w.second) b) := by
  induction xs generalizing depth a b with
  | nil => exact absurd rfl shared.some
  | cons t xs ih =>
    simp only [List.cons_append, List.map_cons, Cursor.recover, Token.rebase_kind,
      TokenKind.isNewline_rebase, TokenKind.isEnd_rebase, TokenKind.isSymbol_rebase]
    split
    · exact .inr ⟨t :: xs, shared, rfl, rfl⟩
    · rename_i goes
      have inside : t.kind.isEnd = false := by
        rw [Bool.or_eq_true, not_or] at goes
        exact Bool.eq_false_iff.mpr goes.1
      obtain more | ⟨rfl, follows⟩ := shared.tail inside
      · have next (depth : Nat) :
            w.Escaped (Cursor.recover depth (xs ++ w.first) t.span) ∨
              w.Alike n (Cursor.recover depth (xs ++ w.first) t.span)
                (Cursor.recover depth (xs.map (Token.rebase w.base) ++ w.second)
                  (t.span.rebase w.base)) :=
          ih (more.mono (Nat.sub_le n 1)) depth t.span (t.span.rebase w.base)
        split
        · exact next _
        · split
          · exact next _
          · exact next _
      · have left (depth : Nat) : w.Escaped (Cursor.recover depth ([] ++ w.first) t.span) :=
          ⟨follows, (Cursor.recover_suffix _ _ _).length_le⟩
        split
        · exact .inl (left _)
        · split
          · exact .inl (left _)
          · exact .inl (left _)

/-- What is left of a common part needs no more levels than the whole of it. -/
theorem Alike.of_suffix {l : Nat} {c d c' d' : Cursor} (h : w.Alike n c' d') (whole : w.Alike l c d)
    (back : c'.tokens <:+ c.tokens) (le : l ≤ m) : w.Alike m c' d' := by
  obtain ⟨ys, more, rest, rest'⟩ := h
  obtain ⟨xs, shared, first, -⟩ := whole
  rw [rest, first] at back
  have fewer := nestingBound_le_of_suffix (suffix_of_append_suffix back)
  refine ⟨ys, { more with bound := ?_ }, rest, rest'⟩
  exact Nat.le_trans fewer (Nat.le_trans shared.bound le)

/-- A reading that uses up nesting uses up tokens. -/
theorem Alike.shorter {c c' d' : Cursor} {xs : List Token} (first : c.tokens = xs ++ w.first)
    (h : w.Alike (nestingBound xs - 1) c' d') (read : c'.tokens <:+ c.tokens) :
    c'.tokens.length < c.tokens.length := by
  obtain ⟨ys, fewer, rest, -⟩ := h
  rw [rest, first] at read
  have shorter := length_lt_of_nestingBound (suffix_of_append_suffix read) fewer.bound
  rw [rest, first, List.length_append, List.length_append]
  exact Nat.add_lt_add_right shorter _

/-! ### Items -/

section

variable {levels levels' : Nat} {c d : Cursor} (whole : w.first = [])
include whole

theorem not_escaped (c : Cursor) : ¬ w.Escaped c := fun escaped => escaped.1 whole

theorem Alike.skipNewlines (alike : w.Alike m c d) :
    w.Alike m (Cursor.skipNewlines c.tokens c.last) (Cursor.skipNewlines d.tokens d.last) := by
  obtain ⟨xs, shared, first, second⟩ := alike
  rw [first, second]
  obtain escaped | ⟨ys, shared', first', second', -⟩ := Sim.skipped shared c.last d.last
  · exact absurd escaped (not_escaped whole _)
  · exact ⟨ys, shared', first', second'⟩

theorem Alike.recover {k : Nat} (alike : w.Alike k c d) :
    w.Alike k (Cursor.recover 0 c.tokens c.last) (Cursor.recover 0 d.tokens d.last) := by
  obtain ⟨ys, shared, first, second⟩ := alike
  rw [first, second]
  exact (recovered shared 0 c.last d.last).resolve_left (not_escaped whole _)

/-- The next item of two texts, the first of which ends with the common part. -/
theorem item?_agree (alike : w.Alike m c d) (le : m ≤ levels) (le' : m ≤ levels') :
    (c.item? levels = none ∧ d.item? levels' = none) ∨
      ∃ found c' d', c.item? levels = some (found, c') ∧
        d.item? levels' = some (rebaseItem w.base found, d') ∧ w.Alike m c' d' ∧
        c'.tokens.length < c.tokens.length := by
  have back := (Cursor.skipNewlines_suffix c.tokens c.last).length_le
  have line := Cursor.skipNewlines_kind c.tokens c.last
  have start := alike.skipNewlines whole
  unfold Cursor.item?
  dsimp only
  generalize Cursor.skipNewlines c.tokens c.last = c₁ at start line back
  generalize Cursor.skipNewlines d.tokens d.last = d₁ at start
  rw [start.kind, TokenKind.isEnd_rebase]
  cases inside : c₁.kind.isEnd with
  | true => exact .inl ⟨rfl, rfl⟩
  | false =>
    right
    obtain ⟨xs, shared, first, second⟩ := start
    have tight : w.Alike (nestingBound xs) c₁ d₁ := ⟨xs, shared.tight, first, second⟩
    have bound : nestingBound xs ≤ m := shared.bound
    have reads := Sim.item (w := w) (Nat.le_trans bound le) (Nat.le_trans bound le')
    have found := reads.agree c₁ d₁ tight
    have read := reads.forward c₁
    cases run : Parse.item levels c₁ with
    | ok s c' =>
      rw [run] at found read
      obtain escaped | ⟨d', same, begun⟩ := found
      · exact absurd escaped (not_escaped whole _)
      rw [same]
      refine ⟨.ok s, c', d', rfl, rfl, ?_, ?_⟩
      · exact begun.alike.mono (Nat.le_trans (Nat.sub_le _ 1) bound)
      · exact Nat.lt_of_lt_of_le (begun.alike.shorter first read) back
    | error e c' =>
      rw [run] at found read
      obtain escaped | ⟨d', same, k, alike'⟩ := found
      · exact absurd escaped (not_escaped whole _)
      rw [same]
      refine ⟨.error e, _, _, rfl, rfl, ?_, ?_⟩
      · have skipped := Cursor.recover_suffix 0 c'.tokens c'.last
        exact (alike'.recover whole).of_suffix tight (skipped.trans read) bound
      · exact Nat.lt_of_lt_of_le (Cursor.recover_shorter inside line read) back

/-- The items of two texts, the first of which ends with the common part. -/
theorem itemsUpTo_rebase {fuel fuel' : List Token} (alike : w.Alike m c d) (le : m ≤ levels)
    (le' : m ≤ levels') (enough : c.tokens.length ≤ fuel.length)
    (enough' : c.tokens.length ≤ fuel'.length) :
    d.itemsUpTo levels' fuel' = (c.itemsUpTo levels fuel).map (rebaseItem w.base) := by
  induction fuel generalizing fuel' c d with
  | nil =>
    obtain ⟨t, xs, -, first, -⟩ := alike.uncons
    rw [first] at enough
    cases enough
  | cons u fuel ih =>
    obtain _ | ⟨u', fuel'⟩ := fuel'
    · obtain ⟨t, xs, -, first, -⟩ := alike.uncons
      rw [first] at enough'
      cases enough'
    obtain ⟨first, second⟩ | ⟨found, c', d', first, second, alike', shorter⟩ :=
      item?_agree whole alike le le'
    · unfold Cursor.itemsUpTo
      rw [first, second]
      rfl
    · unfold Cursor.itemsUpTo
      rw [first, second]
      dsimp only
      rw [List.map_cons, ih alike' (Nat.le_of_lt_succ (Nat.lt_of_lt_of_le shorter enough))
        (Nat.le_of_lt_succ (Nat.lt_of_lt_of_le shorter enough'))]

end

end Tails
end ScriptHost
