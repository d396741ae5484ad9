import ScriptHost.Proofs.Lexing.Displaced
import ScriptHost.Proofs.Reading.Displacement
import ScriptHost.Source.Cursor

/-! Two readings of tokens with a part in common. The part stands at the start of the first tokens,
and moved by `base` at the start of the second ones; behind it, each goes on as it likes. As long as
the first reading is inside the common part, the second one does the same and finds the same, moved.
-/

namespace ScriptHost

open Parse

/-- Where the common part stands in the second text, and what follows it in each of the two. -/
structure Tails where
  base : Position
  proper : base.Proper
  first : List Token
  second : List Token

namespace Tails

variable (w : Tails)

/-- Tokens that can still be read in common, needing less than `n` levels. If nothing follows them
in the first text, the end of input is the last of them. -/
structure Shared (n : Nat) (xs : List Token) : Prop where
  some : xs ≠ []
  proper : ∀ t ∈ xs, t.Proper
  bound : nestingBound xs ≤ n
  ended : w.first = [] → ∃ t ∈ xs.getLast?, t.kind.isEnd

/-- Two cursors in the common part. -/
def Alike (n : Nat) (c d : Cursor) : Prop :=
  ∃ xs, w.Shared n xs ∧ c.tokens = xs ++ w.first ∧
    d.tokens = xs.map (Token.rebase w.base) ++ w.second

/-- Two cursors in the common part that have read the same token last. -/
structure Begun (n : Nat) (c d : Cursor) : Prop where
  alike : w.Alike n c d
  last : d.last = c.last.rebase w.base

/-- The first cursor is past the common part. -/
def Escaped (c : Cursor) : Prop := w.first ≠ [] ∧ c.tokens.length ≤ w.first.length

/-- Two cursors of a relation, with the kind of the next token of the first. -/
structure Facing (P : Cursor → Cursor → Prop) (kind : TokenKind) (c d : Cursor) : Prop where
  rel : P c d
  kind : c.kind = kind

/-- Relations of cursors in the common part, which can be told apart by the levels that it needs. -/
class Near (P : Cursor → Cursor → Prop) (n : outParam Nat) : Prop where
  alike : ∀ {c d}, P c d → w.Alike n c d

instance (n : Nat) : w.Near (w.Alike n) n := ⟨id⟩

instance (n : Nat) : w.Near (w.Begun n) n := ⟨Begun.alike⟩

instance {P : Cursor → Cursor → Prop} {n : Nat} [w.Near P n] (kind : TokenKind) :
    w.Near (Facing P kind) n := ⟨fun h => Near.alike h.rel⟩

variable {w}

theorem Shared.mono {m n : Nat} {xs : List Token} (h : w.Shared m xs) (le : m ≤ n) :
    w.Shared n xs :=
  { h with bound := Nat.le_trans h.bound le }

theorem Shared.tight {n : Nat} {xs : List Token} (h : w.Shared n xs) :
    w.Shared (nestingBound xs) xs :=
  { h with bound := Nat.le_refl _ }

theorem Alike.mono {m n : Nat} {c d : Cursor} (h : w.Alike m c d) (le : m ≤ n) : w.Alike n c d := by
  obtain ⟨xs, shared, first, second⟩ := h
  exact ⟨xs, shared.mono le, first, second⟩

theorem Begun.mono {m n : Nat} {c d : Cursor} (h : w.Begun m c d) (le : m ≤ n) : w.Begun n c d :=
  ⟨h.alike.mono le, h.last⟩

/-- Behind a token that is not the end of input, the common part goes on, or it is left. -/
theorem Shared.tail {n : Nat} {t : Token} {xs : List Token} (h : w.Shared n (t :: xs))
    (inside : t.kind.isEnd = false) : w.Shared (n - 1) xs ∨ xs = [] ∧ w.first ≠ [] := by
  by_cases more : xs = []
  · subst more
    refine .inr ⟨rfl, fun nothing => ?_⟩
    obtain ⟨u, last, end_⟩ := h.ended nothing
    cases last
    rw [List.getLast_singleton, inside] at end_
    cases end_
  · refine .inl ⟨more, fun u there => h.proper u (List.mem_cons_of_mem _ there), ?_, ?_⟩
    · have bound := h.bound
      have := t.kind.nesting_pos
      rw [nestingBound_cons] at bound
      omega
    · intro nothing
      obtain ⟨u, last, end_⟩ := h.ended nothing
      rw [List.getLast?_cons_of_ne_nil more] at last
      exact ⟨u, last, end_⟩

/-- The next tokens of two cursors in the common part. -/
theorem Alike.uncons {n : Nat} {c d : Cursor} (h : w.Alike n c d) :
    ∃ t xs, w.Shared n (t :: xs) ∧ c.tokens = t :: (xs ++ w.first) ∧
      d.tokens = t.rebase w.base :: (xs.map (Token.rebase w.base) ++ w.second) := by
  obtain ⟨xs, shared, first, second⟩ := h
  match xs with
  | [] => exact absurd rfl shared.some
  | t :: xs => exact ⟨t, xs, shared, first, second⟩

theorem Alike.kind {n : Nat} {c d : Cursor} (h : w.Alike n c d) :
    d.kind = c.kind.rebase w.base := by
  obtain ⟨t, xs, -, first, second⟩ := h.uncons
  rw [Cursor.kind, Cursor.kind, first, second]
  rfl

theorem Alike.span {n : Nat} {c d : Cursor} (h : w.Alike n c d) :
    d.span = c.span.rebase w.base := by
  obtain ⟨t, xs, -, first, second⟩ := h.uncons
  rw [Cursor.span, Cursor.span, first, second]
  rfl

/-- Reading on keeps two cursors in the common part, or leaves it. -/
theorem Alike.next {n : Nat} {c d : Cursor} (h : w.Alike n c d) (inside : c.kind.isEnd = false) :
    w.Escaped c.next ∨ w.Begun (n - 1) c.next d.next := by
  obtain ⟨t, xs, shared, first, second⟩ := h.uncons
  have kind : t.kind.isEnd = false := by
    rw [Cursor.kind, first] at inside
    exact inside
  rw [Cursor.next, Cursor.next, first, second]
  obtain more | ⟨rfl, follows⟩ := shared.tail kind
  · exact .inr ⟨⟨xs, more, rfl, rfl⟩, rfl⟩
  · exact .inl ⟨follows, Nat.le_refl _⟩

theorem Escaped.of_suffix {c c' : Cursor} (h : w.Escaped c) (back : c'.tokens <:+ c.tokens) :
    w.Escaped c' :=
  ⟨h.1, Nat.le_trans back.length_le h.2⟩

end Tails

/-- The cursor after an action. -/
def Parse.rest {α : Type} : EStateM.Result SyntaxError Cursor α → Cursor
  | .ok _ c => c
  | .error _ c => c

theorem Cursor.next_suffix (c : Cursor) : c.next.tokens <:+ c.tokens := by
  unfold Cursor.next
  split
  · rename_i none
    exact List.suffix_rfl
  · rename_i t rest some
    rw [some]
    exact List.suffix_cons t rest

theorem Cursor.skipNewlines_suffix (tokens : List Token) (last : Span) :
    (Cursor.skipNewlines tokens last).tokens <:+ tokens := by
  induction tokens generalizing last with
  | nil => exact List.suffix_rfl
  | cons t rest ih =>
    unfold Cursor.skipNewlines
    split
    · exact (ih t.span).trans (List.suffix_cons t rest)
    · exact List.suffix_rfl

namespace Tails

variable (w : Tails) {α β γ δ : Type}

/-- What is found in the two texts: the same, moved, and the cursors after it as `Q` says. -/
def Agree (f : α → β) (Q : α → Cursor → Cursor → Prop) :
    EStateM.Result SyntaxError Cursor α → EStateM.Result SyntaxError Cursor β → Prop
  | .ok a c, r => w.Escaped c ∨ ∃ d, r = .ok (f a) d ∧ Q a c d
  | .error e c, r => w.Escaped c ∨ ∃ d, r = .error (e.rebase w.base) d ∧ ∃ n, w.Alike n c d

/-- Two actions that do the same in the common part of two texts: `f` tells what the second one
finds from what the first one finds. -/
structure Sim (P : Cursor → Cursor → Prop) (x : Parse α) (y : Parse β) (f : α → β)
    (Q : α → Cursor → Cursor → Prop) : Prop where
  forward : ∀ c, (rest (x c)).tokens <:+ c.tokens
  agree : ∀ c d, P c d → w.Agree f Q (x c) (y d)

namespace Sim

variable {w} {P P' : Cursor → Cursor → Prop} {x : Parse α} {y : Parse β} {f : α → β} {g : γ → δ}
  {Q Q' : α → Cursor → Cursor → Prop} {n : Nat}

/-! ### Rules -/

theorem weaken (h : w.Sim P x y f Q) (pre : ∀ c d, P' c d → P c d)
    (post : ∀ a c d, Q a c d → Q' a c d) : w.Sim P' x y f Q' where
  forward := h.forward
  agree c d rel := by
    have found := h.agree c d (pre c d rel)
    cases run : x c with
    | ok a c' =>
      rw [run] at found
      obtain escaped | ⟨d', same, rel'⟩ := found
      · exact .inl escaped
      · exact .inr ⟨d', same, post a c' d' rel'⟩
    | error e c' =>
      rw [run] at found
      exact found

theorem pre (h : w.Sim P x y f Q) (pre : ∀ c d, P' c d → P c d) : w.Sim P' x y f Q :=
  h.weaken pre fun _ _ _ => id

theorem post (h : w.Sim P x y f Q) (post : ∀ a c d, Q a c d → Q' a c d) : w.Sim P x y f Q' :=
  h.weaken (fun _ _ => id) post

theorem pure {a : α} {b : β} (same : b = f a) (h : ∀ c d, P c d → Q a c d) :
    w.Sim P (pure a) (pure b) f Q where
  forward _ := List.suffix_rfl
  agree c d rel := by
    subst same
    exact .inr ⟨d, rfl, h c d rel⟩

theorem bind {k : α → Parse γ} {l : β → Parse δ} {R : γ → Cursor → Cursor → Prop}
    (first : w.Sim P x y f Q) (second : ∀ a, w.Sim (Q a) (k a) (l (f a)) g R) :
    w.Sim P (x >>= k) (y >>= l) g R where
  forward c := by
    have back := first.forward c
    change (rest (EStateM.bind x k c)).tokens <:+ c.tokens
    unfold EStateM.bind
    cases run : x c with
    | ok a c' =>
      rw [run] at back
      exact ((second a).forward c').trans back
    | error e c' =>
      rw [run] at back
      exact back
  agree c d rel := by
    have found := first.agree c d rel
    change w.Agree g R (EStateM.bind x k c) (EStateM.bind y l d)
    unfold EStateM.bind
    cases run : x c with
    | ok a c' =>
      rw [run] at found
      obtain escaped | ⟨d', same, rel'⟩ := found
      · -- The common part is left; what follows does not lead back into it.
        have left := escaped.of_suffix ((second a).forward c')
        dsimp only
        cases run' : k a c' with
        | ok b c'' =>
          rw [run'] at left
          exact .inl left
        | error e c'' =>
          rw [run'] at left
          exact .inl left
      · rw [same]
        exact (second a).agree c' d' rel'
    | error e c' =>
      rw [run] at found
      obtain escaped | ⟨d', same, rel'⟩ := found
      · exact .inl escaped
      · rw [same]
        exact .inr ⟨d', rfl, rel'⟩

theorem map {h : α → γ} {k : β → δ} {R : γ → Cursor → Cursor → Prop} (first : w.Sim P x y f Q)
    (same : ∀ a, k (f a) = g (h a)) (post : ∀ a c d, Q a c d → R (h a) c d) :
    w.Sim P (h <$> x) (k <$> y) g R := by
  rw [map_eq_pure_bind, map_eq_pure_bind]
  exact first.bind fun a => .pure (same a) (post a)

/-! ### Actions -/

theorem peek [w.Near P n] :
    w.Sim P peek peek (TokenKind.rebase w.base) (fun kind => Facing P kind) where
  forward _ := List.suffix_rfl
  agree c d rel := by
    have kind := (Near.alike rel : w.Alike n c d).kind
    refine .inr ⟨d, ?_, rel, rfl⟩
    unfold Parse.peek
    rw [kind]

theorem peekSpan [w.Near P n] :
    w.Sim P peekSpan peekSpan (Span.rebase w.base) (fun _ => P) where
  forward _ := List.suffix_rfl
  agree c d rel := by
    have span := (Near.alike rel : w.Alike n c d).span
    refine .inr ⟨d, ?_, rel⟩
    unfold Parse.peekSpan
    rw [span]

theorem lastSpan :
    w.Sim (w.Begun n) lastSpan lastSpan (Span.rebase w.base) (fun _ => w.Begun n) where
  forward _ := List.suffix_rfl
  agree c d rel := by
    refine .inr ⟨d, ?_, rel⟩
    unfold Parse.lastSpan
    rw [rel.last]

theorem advance [w.Near P n] {kind : TokenKind} (inside : kind.isEnd = false) :
    w.Sim (Facing P kind) advance advance (Span.rebase w.base) (fun _ => w.Begun (n - 1)) where
  forward c := c.next_suffix
  agree c d rel := by
    have alike : w.Alike n c d := Near.alike rel.rel
    have span := alike.span
    obtain escaped | begun := alike.next (by rw [rel.kind, inside])
    · exact .inl escaped
    · refine .inr ⟨d.next, ?_, begun⟩
      unfold Parse.advance
      rw [span]

theorem fail [w.Near P n] (fault : SyntaxFault) : w.Sim P (fail fault) (fail fault) f Q where
  forward _ := List.suffix_rfl
  agree c d rel := by
    have alike : w.Alike n c d := Near.alike rel
    refine .inr ⟨d, ?_, n, alike⟩
    unfold Parse.fail SyntaxError.rebase
    rw [alike.kind, alike.span]
    cases c.kind <;> rfl

theorem throw [w.Near P n] (fault : SyntaxFault) (span : Span) :
    w.Sim P (throw ⟨fault, span⟩) (throw ⟨fault, span.rebase w.base⟩) f Q where
  forward _ := List.suffix_rfl
  agree _ d rel := .inr ⟨d, rfl, n, Near.alike rel⟩

theorem accept [w.Near P n] {test : TokenKind → Bool}
    (same : ∀ kind, test (kind.rebase w.base) = test kind)
    (inside : ∀ kind, test kind → kind.isEnd = false) :
    w.Sim P (accept test) (accept test) id
      (fun found => if found then w.Begun (n - 1) else P) where
  forward c := by
    change (rest (if test c.kind then _ else _)).tokens <:+ c.tokens
    split
    · exact c.next_suffix
    · exact List.suffix_rfl
  agree c d rel := by
    have alike : w.Alike n c d := Near.alike rel
    have kind := alike.kind
    unfold Parse.accept
    rw [kind, same]
    split
    · rename_i fits
      obtain escaped | begun := alike.next (inside _ fits)
      · exact .inl escaped
      · exact .inr ⟨d.next, rfl, begun⟩
    · exact .inr ⟨d, rfl, rel⟩

theorem acceptSymbol [w.Near P n] (s : Symbol) :
    w.Sim P (acceptSymbol s) (acceptSymbol s) id
      (fun found => if found then w.Begun (n - 1) else P) :=
  accept (fun kind => kind.isSymbol_rebase w.base s) fun _ => TokenKind.isEnd_of_isSymbol

theorem acceptKeyword [w.Near P n] (k : Keyword) :
    w.Sim P (acceptKeyword k) (acceptKeyword k) id
      (fun found => if found then w.Begun (n - 1) else P) :=
  accept (fun kind => kind.isKeyword_rebase w.base k) fun _ => TokenKind.isEnd_of_isKeyword

theorem atSymbol [w.Near P n] (s : Symbol) :
    w.Sim P (atSymbol s) (atSymbol s) id (fun _ => P) :=
  peek.bind fun kind => .pure (kind.isSymbol_rebase w.base s) fun _ _ facing => facing.rel

/-- The same with what is known of the next token. -/
theorem atSymbol_facing [w.Near P n] {s : Symbol} :
    w.Sim P (Parse.atSymbol s) (Parse.atSymbol s) id
      (fun found => if found then Facing P (.symbol s) else P) := by
  refine peek.bind fun kind => .pure (kind.isSymbol_rebase w.base s) fun c d facing => ?_
  split
  · rename_i found
    refine ⟨facing.rel, facing.kind.trans ?_⟩
    cases kind with
    | symbol t => rw [eq_of_beq found]
    | _ => cases found
  · exact facing.rel

theorem require [w.Near P n] (place : Place) :
    w.Sim P (require place) (require place) (Span.rebase w.base) (fun _ => w.Begun (n - 1)) := by
  have same (kind : TokenKind) : place.fits (kind.rebase w.base) = place.fits kind := by
    unfold Place.fits
    split <;> simp
  refine peek.bind fun kind => ?_
  rw [same]
  split
  · rename_i fits
    exact advance (Place.isEnd_of_fits fits)
  · exact fail _

theorem require_inner (place : Place) :
    w.Sim (w.Begun n) (Parse.require place) (Parse.require place) (Span.rebase w.base)
      (fun _ => w.Begun n) :=
  (require place).post fun _ _ _ begun => begun.mono (Nat.sub_le n 1)

theorem name [w.Near P n] (role : NameRole) :
    w.Sim P (name role) (name role) (fun found => (found.1, found.2.rebase w.base))
      (fun _ => w.Begun (n - 1)) := by
  refine peek.bind fun kind => ?_
  cases kind with
  | name word => exact (advance rfl).bind fun span => .pure rfl fun _ _ => id
  | _ => exact fail _

theorem name_inner (role : NameRole) :
    w.Sim (w.Begun n) (Parse.name role) (Parse.name role)
      (fun found => (found.1, found.2.rebase w.base)) (fun _ => w.Begun n) :=
  (name role).post fun _ _ _ begun => begun.mono (Nat.sub_le n 1)

theorem skipped {xs : List Token} (shared : w.Shared n xs) (a b : Span) :
    w.Escaped (Cursor.skipNewlines (xs ++ w.first) a) ∨
      ∃ ys, w.Shared n ys ∧ (Cursor.skipNewlines (xs ++ w.first) a).tokens = ys ++ w.first ∧
        (Cursor.skipNewlines (xs.map (Token.rebase w.base) ++ w.second) b).tokens =
          ys.map (Token.rebase w.base) ++ w.second ∧
        (b = a.rebase w.base → (Cursor.skipNewlines (xs.map (Token.rebase w.base) ++ w.second)
          b).last = (Cursor.skipNewlines (xs ++ w.first) a).last.rebase w.base) := by
  induction xs generalizing a b with
  | nil => exact absurd rfl shared.some
  | cons t xs ih =>
    simp only [List.cons_append, List.map_cons, Cursor.skipNewlines, Token.rebase_kind,
      TokenKind.isNewline_rebase]
    split
    · rename_i newline
      have inside := TokenKind.isEnd_of_isNewline newline
      obtain more | ⟨rfl, follows⟩ := shared.tail inside
      · obtain escaped | ⟨ys, shared', first, second, last⟩ :=
          ih (more.mono (Nat.sub_le n 1)) t.span (t.span.rebase w.base)
        · exact .inl escaped
        · exact .inr ⟨ys, shared', first, second, fun _ => last rfl⟩
      · exact .inl ⟨follows, (Cursor.skipNewlines_suffix _ _).length_le⟩
    · exact .inr ⟨t :: xs, shared, rfl, rfl, id⟩

theorem skipNewlines : w.Sim (w.Begun n) skipNewlines skipNewlines id (fun _ => w.Begun n) where
  forward c := Cursor.skipNewlines_suffix c.tokens c.last
  agree c d rel := by
    obtain ⟨⟨xs, shared, first, second⟩, last⟩ := rel
    have skip := skipped shared c.last d.last
    rw [← first, ← second] at skip
    obtain escaped | ⟨ys, shared', first', second', last'⟩ := skip
    · exact .inl escaped
    · exact .inr ⟨_, rfl, ⟨ys, shared', first', second'⟩, last' last⟩

/-- The same for two cursors that have nothing read in common yet. -/
theorem skipNewlines_first :
    w.Sim (w.Alike n) Parse.skipNewlines Parse.skipNewlines id (fun _ => w.Alike n) where
  forward c := Cursor.skipNewlines_suffix c.tokens c.last
  agree c d rel := by
    obtain ⟨xs, shared, first, second⟩ := rel
    have skip := skipped shared c.last d.last
    rw [← first, ← second] at skip
    obtain escaped | ⟨ys, shared', first', second', -⟩ := skip
    · exact .inl escaped
    · exact .inr ⟨_, rfl, ys, shared', first', second'⟩

theorem thenNewlines (h : w.Sim P x y f fun _ => w.Begun n) :
    w.Sim P (thenNewlines x) (thenNewlines y) f fun _ => w.Begun n :=
  h.bind fun _ => skipNewlines.bind fun _ => .pure rfl fun _ _ => id

end Sim

/-! ### Repetition -/

/-- Relations of cursors in the common part, one for each number of levels. -/
structure Graded (w : Tails) (I : Nat → Cursor → Cursor → Prop) : Prop where
  alike : ∀ {n c d}, I n c d → w.Alike n c d
  level : ∀ {m n c d}, I m c d → w.Alike n c d → I n c d

theorem graded_alike (w : Tails) : w.Graded w.Alike := ⟨id, fun _ => id⟩

theorem graded_begun (w : Tails) : w.Graded w.Begun :=
  ⟨Begun.alike, fun h alike => ⟨alike, h.last⟩⟩

/-- How a repeated step leaves the cursors: if it goes on, it has read a token. -/
def Stepped (I : Nat → Cursor → Cursor → Prop) (n : Nat) : Option α → Cursor → Cursor → Prop
  | some _ => I (n - 1)
  | none => I n

theorem suffix_of_append_suffix {xs ys zs : List Token} (h : ys ++ zs <:+ xs ++ zs) :
    ys <:+ xs := by
  obtain ⟨before, whole⟩ := h
  rw [← List.append_assoc] at whole
  exact ⟨before, List.append_cancel_right whole⟩

/-- The rest of some tokens that needs fewer levels is shorter. -/
theorem length_lt_of_nestingBound {xs ys : List Token} (suffix : ys <:+ xs)
    (fewer : nestingBound ys ≤ nestingBound xs - 1) : ys.length < xs.length := by
  refine Nat.lt_of_le_of_ne suffix.length_le fun equal => ?_
  have positive : 1 ≤ nestingBound xs := Nat.le_add_left _ _
  rw [suffix.eq_of_length equal] at fewer
  omega

namespace Sim

variable {w} {I : Nat → Cursor → Cursor → Prop} {step : α → Parse (Option α)}
  {step' : β → Parse (Option β)} {f : α → β} {n : Nat}

theorem iterate_forward (steps : ∀ a c, (rest (step a c)).tokens <:+ c.tokens) (fuel : List Token)
    (a : α) (c : Cursor) : (rest (Parse.iterate step fuel a c)).tokens <:+ c.tokens := by
  induction fuel generalizing a c with
  | nil =>
    have back := steps a c
    change (rest (EStateM.bind (step a) _ c)).tokens <:+ c.tokens
    unfold EStateM.bind
    cases run : step a c with
    | error e c' =>
      rw [run] at back
      exact back
    | ok next c' =>
      rw [run] at back
      cases next <;> exact back
  | cons t fuel ih =>
    have back := steps a c
    change (rest (EStateM.bind (step a) _ c)).tokens <:+ c.tokens
    unfold EStateM.bind
    cases run : step a c with
    | error e c' =>
      rw [run] at back
      exact back
    | ok next c' =>
      rw [run] at back
      cases next with
      | none => exact back
      | some b => exact (ih b c').trans back

/-- The common part is a bound of the steps in both texts: each one that goes on uses up a token. -/
theorem iterate (graded : w.Graded I)
    (steps : ∀ m ≤ n, ∀ a, w.Sim (I m) (step a) (step' (f a)) (Option.map f) (Stepped I m))
    {fuel fuel' xs : List Token} {a : α} {c d : Cursor} {m : Nat} (le : m ≤ n) (rel : I m c d)
    (shared : w.Shared m xs) (first : c.tokens = xs ++ w.first) (enough : xs.length ≤ fuel.length)
    (enough' : xs.length ≤ fuel'.length) :
    w.Agree f (fun _ => I n) (Parse.iterate step fuel a c)
      (Parse.iterate step' fuel' (f a) d) := by
  have forward (a : α) (c : Cursor) : (rest (step a c)).tokens <:+ c.tokens :=
    (steps m le a).forward c
  induction fuel generalizing fuel' xs a c d m with
  | nil => exact absurd (List.length_eq_zero_iff.mp (Nat.le_zero.mp enough)) shared.some
  | cons t fuel ih =>
    obtain _ | ⟨t', fuel'⟩ := fuel'
    · exact absurd (List.length_eq_zero_iff.mp (Nat.le_zero.mp enough')) shared.some
    have tight : I (nestingBound xs) c d := by
      obtain ⟨ys, shared', first', second⟩ := graded.alike rel
      rw [first] at first'
      cases List.append_cancel_right first'
      exact graded.level rel ⟨xs, shared.tight, first, second⟩
    have bound := Nat.le_trans shared.bound le
    have found := (steps _ bound a).agree c d tight
    have back := forward a c
    change w.Agree f _ (EStateM.bind (step a) _ c) (EStateM.bind (step' (f a)) _ d)
    unfold EStateM.bind
    cases run : step a c with
    | error e c' =>
      rw [run] at found
      obtain escaped | ⟨d', same, rel'⟩ := found
      · exact .inl escaped
      · rw [same]
        exact .inr ⟨d', rfl, rel'⟩
    | ok next c' =>
      rw [run] at found back
      cases next with
      | none =>
        obtain escaped | ⟨d', same, rel'⟩ := found
        · exact .inl escaped
        · rw [same]
          exact .inr ⟨d', rfl, graded.level rel' ((graded.alike rel').mono bound)⟩
      | some b =>
        obtain escaped | ⟨d', same, rel'⟩ := found
        · have left := escaped.of_suffix (iterate_forward forward fuel b c')
          dsimp only
          cases run' : Parse.iterate step fuel b c' with
          | ok _ c'' =>
            rw [run'] at left
            exact .inl left
          | error _ c'' =>
            rw [run'] at left
            exact .inl left
        · rw [same]
          obtain ⟨ys, shared', first', second'⟩ := graded.alike rel'
          rw [rest, first, first'] at back
          have shorter := length_lt_of_nestingBound (suffix_of_append_suffix back) shared'.bound
          exact ih (m := nestingBound xs - 1) (Nat.le_trans (Nat.sub_le _ 1) bound) rel' shared'
            first' (Nat.le_of_lt_succ (Nat.lt_of_lt_of_le shorter enough))
            (Nat.le_of_lt_succ (Nat.lt_of_lt_of_le shorter enough'))

theorem loop (graded : w.Graded I)
    (steps : ∀ m ≤ n, ∀ a, w.Sim (I m) (step a) (step' (f a)) (Option.map f) (Stepped I m))
    {a : α} {b : β} (same : b = f a) :
    w.Sim (I n) (loop step a) (loop step' b) f (fun _ => I n) where
  forward c := iterate_forward (fun a c => (steps n (Nat.le_refl n) a).forward c) c.tokens a c
  agree c d rel := by
    subst same
    obtain ⟨xs, shared, first, second⟩ := graded.alike rel
    refine iterate graded steps (Nat.le_refl n) rel shared first ?_ ?_
    · rw [first, List.length_append]
      exact Nat.le_add_right _ _
    · rw [second, List.length_append, List.length_map]
      exact Nat.le_add_right _ _

/-- One item, and another after each comma. -/
theorem separated {item : Parse α} {item' : Parse β} {stop stop' : Parse Bool}
    (items : ∀ m ≤ n, w.Sim (w.Begun m) item item' f fun _ => w.Begun m)
    (stops : ∀ m ≤ n, w.Sim (w.Begun m) stop stop' id fun _ => w.Begun m) :
    w.Sim (w.Begun n) (separated item stop) (separated item' stop') (List.map f)
      fun _ => w.Begun n := by
  refine (items n (Nat.le_refl n)).bind fun first => ?_
  refine bind (loop (f := List.map f) w.graded_begun (fun m le found => ?_) rfl) fun reversed =>
    .pure List.map_reverse.symm fun _ _ => id
  refine (acceptSymbol .comma).bind fun comma => ?_
  cases comma with
  | false => exact .pure rfl fun _ _ => id
  | true =>
    refine skipNewlines.bind fun _ => ?_
    have less : m - 1 ≤ n := Nat.le_trans (Nat.sub_le m 1) le
    refine (stops _ less).bind fun stopped => ?_
    cases stopped with
    | true => exact .pure rfl fun _ _ begun => begun.mono (Nat.sub_le m 1)
    | false => exact (items _ less).bind fun next => .pure rfl fun _ _ => id

end Sim
end Tails
end ScriptHost
