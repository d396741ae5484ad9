import ScriptHost.Proofs.Lexing.Displaced
import ScriptHost.Source.Cursor

/-! Two readings of the same tokens. One ends behind them; in the other one a line ends there, and
more lines follow. What the first reading finds, the second one finds, too, except where newlines
may be skipped: then the first reading may be at its end while the second one has gone on to the
lines behind. It does not matter, since nothing can be read at the end: a rule that needs another
token fails there. -/

namespace ScriptHost

open Parse

variable {α β : Type}

/-- Where a text ends: with the end of input if it stands alone, with a newline if lines follow. -/
structure Seam where
  stop : Token
  ends : stop.kind = .endOfInput
  line : Token
  breaks : line.kind = .newline
  behind : List Token

namespace Seam

variable (w : Seam)

/-- Two cursors in front of the same tokens. -/
def Together (c d : Cursor) : Prop :=
  ∃ xs, c.tokens = xs ++ [w.stop] ∧ d.tokens = xs ++ w.line :: w.behind ∧ d.last = c.last ∧
    ∀ t ∈ xs, t.kind.isEnd = false

/-- A cursor at the end of the text that stands alone. -/
def Spent (c : Cursor) : Prop := c.tokens = [w.stop]

/-- What the first reading finds, the second one finds, too, and both go on together; or the first
one is at the end, if that is allowed. -/
def Agree (firm : α → Bool) :
    EStateM.Result SyntaxError Cursor α → EStateM.Result SyntaxError Cursor α → Prop
  | .ok a c, r => (∃ d, r = .ok a d ∧ w.Together c d) ∨ firm a = false ∧ w.Spent c
  | .error _ _, _ => True

/-- The first reading stays at the end, if that is allowed, or fails. -/
def Stays (firm : α → Bool) : EStateM.Result SyntaxError Cursor α → Prop
  | .ok a c => firm a = false ∧ w.Spent c
  | .error _ _ => True

/-- An action that finds the same in two readings that are together. Where it is `firm`, they are
still together afterwards; otherwise the first one may be at its end. Unless `tight`, the action may
also start at the end. -/
structure Keeps (tight : Bool) (x : Parse α) (firm : α → Bool) : Prop where
  agree : ∀ c d, w.Together c d → w.Agree firm (x c) (x d)
  stays : tight = false → ∀ c, w.Spent c → w.Stays firm (x c)

/-- The same in front of a token of a kind, which is no end. -/
def KeepsAt (kind : TokenKind) (x : Parse α) (firm : α → Bool) : Prop :=
  kind.isEnd = false → ∀ c d, w.Together c d → c.kind = kind → w.Agree firm (x c) (x d)

/-- An action that is a fault at the end. -/
def Fails (x : Parse α) : Prop := ∀ c, c.kind = .endOfInput → ∃ e d, x c = .error e d

variable {w} {c d : Cursor}

/-! ### Cursors -/

theorem Spent.kind (h : w.Spent c) : c.kind = .endOfInput := by
  rw [Cursor.kind, h]
  exact w.ends

/-- Two cursors together are in front of the same token, or the first one is at the end and the
second one at the end of the line. -/
theorem Together.cases (h : w.Together c d) :
    c.kind.isEnd = false ∧ d.kind = c.kind ∧ d.span = c.span ∧ w.Together c.next d.next ∨
      w.Spent c ∧ d = ⟨w.line :: w.behind, c.last⟩ := by
  obtain ⟨c, last⟩ := c
  obtain ⟨d, last'⟩ := d
  obtain ⟨xs, first, second, same, inside⟩ := h
  dsimp only at first second same
  subst first second same
  cases xs with
  | nil => exact .inr ⟨rfl, rfl⟩
  | cons t xs =>
    obtain ⟨goes, rest⟩ := List.forall_mem_cons.mp inside
    exact .inl ⟨goes, rfl, rfl, xs, rfl, rfl, rfl, rest⟩

theorem Together.skipNewlines (h : w.Together c d) :
    w.Together (Cursor.skipNewlines c.tokens c.last) (Cursor.skipNewlines d.tokens d.last) ∨
      w.Spent (Cursor.skipNewlines c.tokens c.last) ∧
        Cursor.skipNewlines d.tokens d.last = Cursor.skipNewlines w.behind w.line.span := by
  obtain ⟨xs, first, second, same, inside⟩ := h
  rw [first, second, same]
  clear first second same
  generalize c.last = last
  induction xs generalizing last with
  | nil =>
    have ends : w.stop.kind.isNewline = false := by rw [w.ends]; rfl
    have breaks : w.line.kind.isNewline = true := by rw [w.breaks]; rfl
    refine .inr ⟨?_, ?_⟩
    · rw [List.nil_append, Cursor.skipNewlines, ends]
      rfl
    · rw [List.nil_append, Cursor.skipNewlines, if_pos breaks]
  | cons t xs ih =>
    obtain ⟨goes, rest⟩ := List.forall_mem_cons.mp inside
    rw [List.cons_append, List.cons_append, Cursor.skipNewlines, Cursor.skipNewlines]
    split
    · exact ih rest t.span
    · exact .inl ⟨t :: xs, rfl, rfl, rfl, inside⟩

theorem Spent.skipNewlines (h : w.Spent c) :
    w.Spent (Cursor.skipNewlines c.tokens c.last) := by
  have ends : w.stop.kind.isNewline = false := by rw [w.ends]; rfl
  rw [h, Cursor.skipNewlines, ends]
  rfl

/-! ### Rules -/

section

variable {x : Parse α} {f : α → Parse β} {p q : Bool} {firm firm' : α → Bool} {firm₂ : β → Bool}

theorem Agree.mono {r s : EStateM.Result SyntaxError Cursor α} (h : w.Agree firm r s)
    (looser : ∀ a, firm a = false → firm' a = false) : w.Agree firm' r s := by
  cases r with
  | ok a c => exact h.imp_right fun spent => ⟨looser a spent.1, spent.2⟩
  | error e c => trivial

theorem Stays.mono {r : EStateM.Result SyntaxError Cursor α} (h : w.Stays firm r)
    (looser : ∀ a, firm a = false → firm' a = false) : w.Stays firm' r := by
  cases r with
  | ok a c => exact ⟨looser a h.1, h.2⟩
  | error e c => trivial

/-- At the end, the second reading does not matter. -/
theorem Stays.agree {r s : EStateM.Result SyntaxError Cursor α} (h : w.Stays firm r) :
    w.Agree firm r s := by
  cases r with
  | ok a c => exact .inr h
  | error e c => trivial

theorem Fails.stays (h : Fails x) (spent : w.Spent c) : w.Stays firm (x c) := by
  obtain ⟨e, d, run⟩ := h c spent.kind
  rw [run]
  trivial

theorem Fails.fail (fault : SyntaxFault) : Fails (Parse.fail fault : Parse α) :=
  fun _ _ => ⟨_, _, rfl⟩

theorem Fails.peek {f : TokenKind → Parse β} (h : Fails (f .endOfInput)) :
    Fails (Parse.peek >>= f) := by
  intro c ends
  change ∃ e d, f c.kind c = .error e d
  rw [ends]
  exact h c ends

theorem Fails.peekSpan {f : Span → Parse β} (h : ∀ span, Fails (f span)) :
    Fails (Parse.peekSpan >>= f) := fun c => h c.span c

theorem Agree.bind (h : w.Agree firm (x c) (x d)) (next : ∀ a, w.Keeps (firm a) (f a) firm₂) :
    w.Agree firm₂ ((x >>= f) c) ((x >>= f) d) := by
  change w.Agree firm₂ (EStateM.bind x f c) (EStateM.bind x f d)
  unfold EStateM.bind
  cases run : x c with
  | ok a c' =>
    rw [run] at h
    obtain ⟨d', same, together⟩ | ⟨loose, spent⟩ := h
    · rw [same]
      exact (next a).agree c' d' together
    · exact ((next a).stays loose c' spent).agree
  | error e c' => trivial

theorem Keeps.bind (h : w.Keeps p x firm) (next : ∀ a, w.Keeps (firm a) (f a) firm₂) :
    w.Keeps p (x >>= f) firm₂ where
  agree c d together := (h.agree c d together).bind next
  stays loose c spent := by
    have stays := h.stays loose c spent
    change w.Stays firm₂ (EStateM.bind x f c)
    unfold EStateM.bind
    cases run : x c with
    | ok a c' =>
      rw [run] at stays
      exact (next a).stays stays.1 c' stays.2
    | error e c' => trivial

theorem KeepsAt.bind {kind : TokenKind} (h : w.KeepsAt kind x firm)
    (next : ∀ a, w.Keeps (firm a) (f a) firm₂) : w.KeepsAt kind (x >>= f) firm₂ :=
  fun goes c d together same => (h goes c d together same).bind next

theorem Keeps.mono (h : w.Keeps p x firm) (looser : ∀ a, firm a = false → firm' a = false) :
    w.Keeps p x firm' where
  agree c d together := (h.agree c d together).mono looser
  stays loose c spent := (h.stays loose c spent).mono looser

/-- What may start at the end may start anywhere. -/
theorem Keeps.tighten (h : w.Keeps false x firm) : w.Keeps p x firm where
  agree := h.agree
  stays _ := h.stays rfl

theorem Keeps.at (h : w.Keeps p x firm) (kind : TokenKind) : w.KeepsAt kind x firm :=
  fun _ c d together _ => h.agree c d together

theorem Keeps.pure {a : α} (loose : p = false → firm a = false) :
    w.Keeps p (Pure.pure a) firm where
  agree _ d together := .inl ⟨d, rfl, together⟩
  stays free _ spent := ⟨loose free, spent⟩

theorem Keeps.map {h : α → β} (first : w.Keeps p x firm)
    (looser : ∀ a, firm a = false → firm₂ (h a) = false) : w.Keeps p (h <$> x) firm₂ := by
  rw [map_eq_pure_bind]
  exact first.bind fun a => .pure (looser a)

/-- A rule that needs a token is judged by the kind of it. -/
theorem Keeps.of_kinds (fails : Fails x) (kinds : ∀ kind, w.KeepsAt kind x firm) :
    w.Keeps p x firm where
  agree c d together := by
    obtain ⟨goes, -, -, -⟩ | ⟨spent, -⟩ := together.cases
    · exact kinds c.kind goes c d together rfl
    · exact (fails.stays spent).agree
  stays _ c spent := fails.stays spent

end

/-! ### Actions -/

section

variable {p : Bool} {firm : α → Bool} {kind : TokenKind}

/-- The kind of the next token decides. At the end, the second reading is at the end of its line. -/
theorem Keeps.peek {f : TokenKind → Parse α} (kinds : ∀ kind, w.KeepsAt kind (f kind) firm)
    (last : ∀ c, w.Spent c →
      w.Agree firm (f .endOfInput c) (f .newline ⟨w.line :: w.behind, c.last⟩))
    (stays : p = false → ∀ c, w.Spent c → w.Stays firm (f .endOfInput c)) :
    w.Keeps p (Parse.peek >>= f) firm where
  agree c d together := by
    change w.Agree firm (f c.kind c) (f d.kind d)
    obtain ⟨goes, same, -, -⟩ | ⟨spent, rfl⟩ := together.cases
    · rw [same]
      exact kinds c.kind goes c d together rfl
    · have breaks : Cursor.kind ⟨w.line :: w.behind, c.last⟩ = .newline := w.breaks
      rw [spent.kind, breaks]
      exact last c spent
  stays free c spent := by
    change w.Stays firm (f c.kind c)
    rw [spent.kind]
    exact stays free c spent

/-- The same where the end is a fault. -/
theorem Keeps.peek_token {f : TokenKind → Parse α} (fails : Fails (f .endOfInput))
    (kinds : ∀ kind, w.KeepsAt kind (f kind) firm) : w.Keeps p (Parse.peek >>= f) firm :=
  .peek kinds (fun _ spent => (fails.stays spent).agree) fun _ _ => fails.stays

theorem KeepsAt.peek {f : TokenKind → Parse α} (h : w.KeepsAt kind (f kind) firm) :
    w.KeepsAt kind (Parse.peek >>= f) firm := by
  intro goes c d together same
  obtain ⟨-, also, -, -⟩ | ⟨spent, -⟩ := together.cases
  · change w.Agree firm (f c.kind c) (f d.kind d)
    rw [also, same]
    exact h goes c d together same
  · rw [← same, spent.kind] at goes
    cases goes

theorem KeepsAt.peekSpan {f : Span → Parse α} (h : ∀ span, w.KeepsAt kind (f span) firm) :
    w.KeepsAt kind (Parse.peekSpan >>= f) firm := by
  intro goes c d together same
  obtain ⟨-, -, also, -⟩ | ⟨spent, -⟩ := together.cases
  · change w.Agree firm (f c.span c) (f d.span d)
    rw [also]
    exact h c.span goes c d together same
  · rw [← same, spent.kind] at goes
    cases goes

theorem KeepsAt.advance : w.KeepsAt kind Parse.advance fun _ => true := by
  intro goes c d together same
  obtain ⟨-, -, also, next⟩ | ⟨spent, -⟩ := together.cases
  · refine .inl ⟨d.next, ?_, next⟩
    rw [Parse.advance, also]
  · rw [← same, spent.kind] at goes
    cases goes

theorem Keeps.lastSpan : w.Keeps p Parse.lastSpan fun _ => p where
  agree c d together := by
    obtain ⟨xs, first, second, same, inside⟩ := together
    refine .inl ⟨d, ?_, xs, first, second, same, inside⟩
    rw [Parse.lastSpan, same]
  stays free c spent := ⟨free, spent⟩

theorem Keeps.fail (fault : SyntaxFault) : w.Keeps p (Parse.fail fault) firm where
  agree _ _ _ := trivial
  stays _ _ _ := trivial

/-- Behind a fault, nothing is read. -/
theorem Keeps.fail_bind {fault : SyntaxFault} {f : β → Parse α} :
    w.Keeps p (Parse.fail fault >>= f) firm where
  agree _ _ _ := trivial
  stays _ _ _ := trivial

theorem Keeps.throw (e : SyntaxError) : w.Keeps p (throw e) firm where
  agree _ _ _ := trivial
  stays _ _ _ := trivial

/-- A token that has been found is no end. -/
theorem Keeps.accept {test : TokenKind → Bool} (ends : test .endOfInput = false)
    (breaks : test .newline = false) :
    w.Keeps p (Parse.accept test) fun found => found || p where
  agree c d together := by
    unfold Parse.accept
    obtain ⟨-, same, -, next⟩ | ⟨spent, rfl⟩ := together.cases
    · rw [same]
      split
      · exact .inl ⟨d.next, rfl, next⟩
      · exact .inl ⟨d, rfl, together⟩
    · have second : Cursor.kind ⟨w.line :: w.behind, c.last⟩ = .newline := w.breaks
      rw [spent.kind, second, ends, breaks]
      exact .inl ⟨_, rfl, together⟩
  stays free c spent := by
    unfold Parse.accept
    rw [spent.kind, ends]
    exact ⟨free, spent⟩

theorem Keeps.acceptSymbol (s : Symbol) :
    w.Keeps p (Parse.acceptSymbol s) fun found => found || p := .accept rfl rfl

theorem Keeps.acceptKeyword (k : Keyword) :
    w.Keeps p (Parse.acceptKeyword k) fun found => found || p := .accept rfl rfl

theorem Keeps.atSymbol (s : Symbol) :
    w.Keeps p (Parse.atSymbol s) fun found => found || p := by
  refine .peek (fun kind goes c d together same => .inl ⟨d, rfl, together⟩) (fun c spent => ?_)
    fun free c spent => ⟨free, spent⟩
  exact .inl ⟨_, rfl, [], spent, rfl, rfl, nofun⟩

/-- The symbol is looked at and may be read afterwards. -/
theorem Keeps.atSymbol_then {s : Symbol} {f : Bool → Parse α}
    (h : w.Keeps p (Parse.peek >>= fun kind => f (kind.isSymbol s)) firm) :
    w.Keeps p (Parse.atSymbol s >>= f) firm := h

theorem Keeps.require (place : Place) : w.Keeps p (Parse.require place) fun _ => true := by
  refine .peek_token (fun c _ => ?_) fun kind => ?_
  · rw [if_neg (by cases place <;> exact Bool.false_ne_true)]
    exact ⟨_, _, rfl⟩
  · split
    · exact .advance
    · exact (Keeps.fail (p := true) _).at kind

theorem Keeps.name (role : NameRole) : w.Keeps p (Parse.name role) fun _ => true := by
  refine .peek_token (.fail _) fun kind => ?_
  cases kind with
  | name word => exact KeepsAt.advance.bind fun _ => .pure id
  | _ => exact (Keeps.fail (p := true) _).at _

/-- Newlines may be skipped up to the end. -/
theorem Keeps.skipNewlines : w.Keeps p Parse.skipNewlines fun _ => false where
  agree c d together := by
    obtain further | ⟨spent, -⟩ := together.skipNewlines
    · exact .inl ⟨_, rfl, further⟩
    · exact .inr ⟨rfl, spent⟩
  stays _ c spent := ⟨rfl, spent.skipNewlines⟩

theorem Keeps.thenNewlines {x : Parse α} (h : w.Keeps p x firm) :
    w.Keeps p (Parse.thenNewlines x) fun _ => false :=
  h.bind fun _ => Keeps.skipNewlines.bind fun _ => .pure fun _ => rfl

end

/-! ### Repetition -/

section

variable {step : α → Parse (Option α)} {firm : α → Bool} {last : Bool}

/-- A step that stops ends the repetition, and one that fails fails it. -/
theorem iterate_stop {a : α} (fuel : List Token) (run : step a c = .ok none d) :
    Parse.iterate step fuel a c = .ok a d := by
  cases fuel with
  | nil =>
    change EStateM.bind (step a) _ c = _
    rw [EStateM.bind, run]
    rfl
  | cons t fuel =>
    change EStateM.bind (step a) _ c = _
    rw [EStateM.bind, run]
    rfl

theorem iterate_error {a : α} {e : SyntaxError} (fuel : List Token) (run : step a c = .error e d) :
    Parse.iterate step fuel a c = .error e d := by
  cases fuel with
  | nil =>
    change EStateM.bind (step a) _ c = _
    rw [EStateM.bind, run]
  | cons t fuel =>
    change EStateM.bind (step a) _ c = _
    rw [EStateM.bind, run]

theorem iterate_next {a b : α} (t : Token) (fuel : List Token) (run : step a c = .ok (some b) d) :
    Parse.iterate step (t :: fuel) a c = Parse.iterate step fuel b d := by
  change EStateM.bind (step a) _ c = _
  rw [EStateM.bind, run]

theorem iterate_nil {a b : α} (run : step a c = .ok (some b) d) :
    Parse.iterate step [] a c = Parse.fail .nesting d := by
  change EStateM.bind (step a) _ c = _
  rw [EStateM.bind, run]

theorem Keeps.iterate_stays
    (steps : ∀ a, w.Keeps (firm a) (step a) fun next => next.elim last firm) {fuel : List Token}
    {a : α} (loose : firm a = false) (spent : w.Spent c) :
    w.Stays (fun _ => last) (Parse.iterate step fuel a c) := by
  induction fuel generalizing a c with
  | nil =>
    have found := (steps a).stays loose c spent
    cases run : step a c with
    | error e d =>
      rw [iterate_error _ run]
      trivial
    | ok next d =>
      rw [run] at found
      cases next with
      | none =>
        rw [iterate_stop _ run]
        exact found
      | some b =>
        rw [iterate_nil run]
        trivial
  | cons t fuel ih =>
    have found := (steps a).stays loose c spent
    cases run : step a c with
    | error e d =>
      rw [iterate_error _ run]
      trivial
    | ok next d =>
      rw [run] at found
      cases next with
      | none =>
        rw [iterate_stop _ run]
        exact found
      | some b =>
        rw [iterate_next t fuel run]
        exact ih found.1 found.2

/-- The second reading has more tokens, so that it may go on as often. -/
theorem Keeps.iterate_agree
    (steps : ∀ a, w.Keeps (firm a) (step a) fun next => next.elim last firm)
    {fuel fuel' : List Token} (more : fuel.length ≤ fuel'.length) {a : α}
    (together : w.Together c d) :
    w.Agree (fun _ => last) (Parse.iterate step fuel a c) (Parse.iterate step fuel' a d) := by
  induction fuel generalizing fuel' a c d with
  | nil =>
    have found := (steps a).agree c d together
    cases run : step a c with
    | error e c' =>
      rw [iterate_error _ run]
      trivial
    | ok next c' =>
      rw [run] at found
      cases next with
      | none =>
        rw [iterate_stop _ run]
        exact found.imp_left fun ⟨d', same, further⟩ => ⟨d', iterate_stop fuel' same, further⟩
      | some b =>
        rw [iterate_nil run]
        trivial
  | cons t fuel ih =>
    obtain _ | ⟨t', fuel'⟩ := fuel'
    · cases more
    have found := (steps a).agree c d together
    cases run : step a c with
    | error e c' =>
      rw [iterate_error _ run]
      trivial
    | ok next c' =>
      rw [run] at found
      cases next with
      | none =>
        rw [iterate_stop _ run]
        exact found.imp_left fun ⟨d', same, further⟩ => ⟨d', iterate_stop _ same, further⟩
      | some b =>
        rw [iterate_next t fuel run]
        obtain ⟨d', same, further⟩ | ⟨loose, spent⟩ := found
        · rw [iterate_next t' fuel' same]
          exact ih (Nat.le_of_succ_le_succ more) further
        · exact (iterate_stays steps loose spent).agree

theorem Keeps.loop (firm : α → Bool) (last : Bool)
    (steps : ∀ a, w.Keeps (firm a) (step a) fun next => next.elim last firm) (a : α) :
    w.Keeps (firm a) (Parse.loop step a) fun _ => last where
  agree c d together := by
    refine iterate_agree steps ?_ together
    obtain ⟨xs, first, second, -⟩ := together
    rw [first, second, List.length_append, List.length_append, List.length_singleton,
      List.length_cons]
    omega
  stays loose c spent := iterate_stays steps loose spent

/-- Items between commas: behind a comma, newlines are skipped. -/
theorem Keeps.separated {p q : Bool} {item : Parse α} {stop : Parse Bool}
    (items : w.Keeps false item fun _ => q) (stops : w.Keeps false stop id) :
    w.Keeps p (Parse.separated item stop) fun _ => q := by
  refine items.tighten.bind fun first => ?_
  refine (Keeps.loop (fun _ => q) q (fun found => ?_) [first]).bind fun reversed => .pure id
  refine (Keeps.acceptSymbol .comma).bind fun comma => ?_
  cases comma with
  | false => exact .pure id
  | true =>
    refine Keeps.skipNewlines.bind fun _ => stops.bind fun stopped => ?_
    cases stopped with
    | true => exact .pure nofun
    | false => exact items.bind fun next => .pure id

end

end Seam
end ScriptHost
