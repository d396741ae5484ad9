import ScriptHost.Proofs.Lexing.Displaced
import ScriptHost.Source.Cursor

/-! What the actions of a reader use up. Each of them reads tokens from left to right, and none of
the tokens that it reads is the end of input or a fault. Beside it stands the same action made for
another number of levels: as long as both numbers are enough, the two find the same, and neither of
them runs out of levels. -/

namespace ScriptHost

open Parse

variable {α β : Type}

/-- Whether a token can be read: neither the end of input nor a fault can. -/
def TokenKind.isReadable : TokenKind → Bool
  | endOfInput | invalid _ => false
  | _ => true

namespace TokenKind

theorem isEnd_of_isReadable {kind : TokenKind} (h : kind.isReadable) : kind.isEnd = false := by
  cases kind <;> first | rfl | cases h

theorem isReadable_of_isNewline {kind : TokenKind} (h : kind.isNewline) : kind.isReadable := by
  cases kind <;> first | rfl | cases h

theorem isReadable_of_isSymbol {kind : TokenKind} {s : Symbol} (h : kind.isSymbol s) :
    kind.isReadable := by
  cases kind <;> first | rfl | cases h

theorem isReadable_of_isKeyword {kind : TokenKind} {k : Keyword} (h : kind.isKeyword k) :
    kind.isReadable := by
  cases kind <;> first | rfl | cases h

theorem isReadable_of_ofKind? {kind : TokenKind} {op : UnaryOp}
    (h : UnaryOp.ofKind? kind = some op) : kind.isReadable := by
  cases kind <;> first | rfl | cases h

theorem isReadable_of_atLevel? {n : Nat} {kind : TokenKind} {op : InfixOp}
    (h : InfixOp.atLevel? n kind = some op) : kind.isReadable := by
  cases kind <;> first | rfl | cases h

end TokenKind

theorem Place.isReadable_of_fits {place : Place} {kind : TokenKind} (h : place.fits kind) :
    kind.isReadable := by
  cases kind with
  | endOfInput => cases place <;> cases h
  | invalid fault => cases place <;> cases h
  | _ => rfl

/-! ### The way of a cursor -/

/-- The tokens from one cursor to a later one: there are at least `k`, and each of them can be read.
-/
def Cursor.Leads (k : Nat) (b c : Cursor) : Prop :=
  ∃ xs, b.tokens = xs ++ c.tokens ∧ k ≤ xs.length ∧ ∀ t ∈ xs, t.kind.isReadable

namespace Cursor.Leads

variable {b c d : Cursor} {j k : Nat}

theorem refl (c : Cursor) : c.Leads 0 c := ⟨[], rfl, Nat.le_refl 0, by simp⟩

theorem mono (h : b.Leads k c) (le : j ≤ k) : b.Leads j c := by
  obtain ⟨xs, split, count, readable⟩ := h
  exact ⟨xs, split, Nat.le_trans le count, readable⟩

theorem trans (h : b.Leads j c) (h' : c.Leads k d) : b.Leads (j + k) d := by
  obtain ⟨xs, split, count, readable⟩ := h
  obtain ⟨ys, split', count', readable'⟩ := h'
  refine ⟨xs ++ ys, ?_, ?_, ?_⟩
  · rw [split, split', List.append_assoc]
  · rw [List.length_append]
    exact Nat.add_le_add count count'
  · intro t there
    obtain left | right := List.mem_append.mp there
    · exact readable t left
    · exact readable' t right

theorem suffix (h : b.Leads k c) : c.tokens <:+ b.tokens := by
  obtain ⟨xs, split, -, -⟩ := h
  exact ⟨xs, split.symm⟩

theorem length (h : b.Leads k c) : c.tokens.length + k ≤ b.tokens.length := by
  obtain ⟨xs, split, count, -⟩ := h
  rw [split, List.length_append]
  omega

/-- Each token on the way uses up a level. -/
theorem nesting (h : b.Leads k c) : nestingBound c.tokens + k ≤ nestingBound b.tokens := by
  obtain ⟨xs, split, count, -⟩ := h
  rw [split]
  clear split
  induction xs generalizing k with
  | nil => exact Nat.add_le_add_left count _
  | cons t xs ih =>
    have own := t.kind.nesting_pos
    have rest := ih (Nat.le_refl xs.length)
    rw [List.length_cons] at count
    rw [List.cons_append, nestingBound_cons]
    omega

theorem next (readable : c.kind.isReadable) : c.Leads 1 c.next := by
  obtain ⟨_ | ⟨t, rest⟩, last⟩ := c
  · cases readable
  · exact ⟨[t], rfl, Nat.le_refl 1, List.forall_mem_singleton.mpr readable⟩

theorem skipNewlines (tokens : List Token) (last : Span) :
    Leads 0 ⟨tokens, last⟩ (Cursor.skipNewlines tokens last) := by
  induction tokens generalizing last with
  | nil => exact refl _
  | cons t rest ih =>
    unfold Cursor.skipNewlines
    split
    · rename_i newline
      have first : Leads 1 ⟨t :: rest, last⟩ ⟨rest, t.span⟩ :=
        next (TokenKind.isReadable_of_isNewline newline)
      exact (first.trans (ih t.span)).mono (Nat.zero_le _)
    · exact refl _

end Cursor.Leads

/-! ### Actions side by side -/

/-- From the cursor `c`, two actions do the same: they find the same result or the same fault, which
is not the lack of levels. Since the cursor `b`, at least `k a` tokens have been read when `a` is
found. -/
def Proceeds (b : Cursor) (x y : Parse α) (c : Cursor) (k : α → Nat) : Prop :=
  match x c with
  | .ok a d => y c = .ok a d ∧ b.Leads (k a) d
  | .error e d => y c = .error e d ∧ e.fault ≠ .nesting ∧ b.Leads 0 d

namespace Proceeds

variable {b c : Cursor} {j : Nat} {x y : Parse α} {f g : α → Parse β} {k k' : α → Nat} {l : β → Nat}

/-! ### Rules -/

theorem mono (h : Proceeds b x y c k) (le : ∀ a, k' a ≤ k a) : Proceeds b x y c k' := by
  unfold Proceeds at h ⊢
  split at h
  · exact ⟨h.1, h.2.mono (le _)⟩
  · exact h

theorem pure {a : α} (along : b.Leads (k a) c) : Proceeds b (pure a) (pure a) c k := ⟨rfl, along⟩

theorem bind (first : Proceeds b x y c k)
    (second : ∀ a d, b.Leads (k a) d → Proceeds b (f a) (g a) d l) :
    Proceeds b (x >>= f) (y >>= g) c l := by
  unfold Proceeds at first
  change match EStateM.bind x f c with
    | .ok a d => EStateM.bind y g c = .ok a d ∧ b.Leads (l a) d
    | .error e d => EStateM.bind y g c = .error e d ∧ e.fault ≠ .nesting ∧ b.Leads 0 d
  unfold EStateM.bind
  split at first
  · rename_i a d run
    rw [run, first.1]
    exact second a d first.2
  · rename_i e d run
    rw [run, first.1]
    exact ⟨rfl, first.2⟩

theorem map {h : α → β} (first : Proceeds b x y c k) (le : ∀ a, l (h a) ≤ k a) :
    Proceeds b (h <$> x) (h <$> y) c l := by
  rw [map_eq_pure_bind, map_eq_pure_bind]
  exact first.bind fun a d along => pure (along.mono (le a))

/-- The way up to `c` belongs to the way of the action. -/
theorem further (h : Proceeds c x y c k) (along : b.Leads j c) :
    Proceeds b x y c fun a => j + k a := by
  unfold Proceeds at h ⊢
  split at h
  · exact ⟨h.1, along.trans h.2⟩
  · exact ⟨h.1, h.2.1, (along.trans h.2.2).mono (Nat.zero_le _)⟩

/-! ### Actions -/

theorem peek {f g : TokenKind → Parse β} (h : Proceeds b (f c.kind) (g c.kind) c l) :
    Proceeds b (Parse.peek >>= f) (Parse.peek >>= g) c l := h

theorem peekSpan {f g : Span → Parse β} (h : Proceeds b (f c.span) (g c.span) c l) :
    Proceeds b (Parse.peekSpan >>= f) (Parse.peekSpan >>= g) c l := h

theorem lastSpan {f g : Span → Parse β} (h : Proceeds b (f c.last) (g c.last) c l) :
    Proceeds b (Parse.lastSpan >>= f) (Parse.lastSpan >>= g) c l := h

theorem atSymbol {s : Symbol} {f g : Bool → Parse β}
    (h : Proceeds b (f (c.kind.isSymbol s)) (g (c.kind.isSymbol s)) c l) :
    Proceeds b (Parse.atSymbol s >>= f) (Parse.atSymbol s >>= g) c l := h

theorem fail (along : b.Leads j c) {fault : SyntaxFault} (other : fault ≠ .nesting) :
    Proceeds b (fail fault) (fail fault) c k := by
  refine ⟨rfl, ?_, along.mono (Nat.zero_le j)⟩
  dsimp only
  split
  · exact SyntaxFault.noConfusion
  · exact other

theorem throw (along : b.Leads j c) {e : SyntaxError} (other : e.fault ≠ .nesting) :
    Proceeds b (throw e) (throw e) c k :=
  ⟨rfl, other, along.mono (Nat.zero_le j)⟩

theorem advance (along : b.Leads j c) (readable : c.kind.isReadable) :
    Proceeds b advance advance c fun _ => j + 1 :=
  ⟨rfl, along.trans (.next readable)⟩

theorem accept {test : TokenKind → Bool} (readable : ∀ kind, test kind → kind.isReadable)
    (along : b.Leads j c) :
    Proceeds b (accept test) (accept test) c fun found => if found then j + 1 else j := by
  unfold Proceeds Parse.accept
  cases fits : test c.kind with
  | true => exact ⟨rfl, along.trans (.next (readable _ fits))⟩
  | false => exact ⟨rfl, along⟩

theorem acceptSymbol (along : b.Leads j c) (s : Symbol) :
    Proceeds b (acceptSymbol s) (acceptSymbol s) c fun found => if found then j + 1 else j :=
  accept (fun _ => TokenKind.isReadable_of_isSymbol) along

theorem acceptKeyword (along : b.Leads j c) (k : Keyword) :
    Proceeds b (acceptKeyword k) (acceptKeyword k) c fun found => if found then j + 1 else j :=
  accept (fun _ => TokenKind.isReadable_of_isKeyword) along

theorem require (along : b.Leads j c) (place : Place) :
    Proceeds b (require place) (require place) c fun _ => j + 1 := by
  refine peek ?_
  split
  · rename_i fits
    exact advance along (Place.isReadable_of_fits fits)
  · exact fail along SyntaxFault.noConfusion

theorem name (along : b.Leads j c) (role : NameRole) :
    Proceeds b (name role) (name role) c fun _ => j + 1 := by
  refine peek ?_
  cases kind : c.kind with
  | name word =>
    exact (advance along (by rw [kind]; rfl)).bind fun _ _ along => pure along
  | _ => exact fail along SyntaxFault.noConfusion

theorem skipNewlines (along : b.Leads j c) :
    Proceeds b skipNewlines skipNewlines c fun _ => j :=
  ⟨rfl, along.trans (.skipNewlines c.tokens c.last)⟩

theorem thenNewlines (h : Proceeds b x y c fun _ => j) :
    Proceeds b (thenNewlines x) (thenNewlines y) c fun _ => j :=
  h.bind fun _ _ along => (skipNewlines along).bind fun _ _ along => pure along

/-! ### Repetition -/

section

variable {step step' : α → Parse (Option α)}

/-- Each step that goes on reads a token, so that the tokens that are left are enough of a bound. -/
theorem iterate {fuel : List Token} {a : α}
    (steps : ∀ a d, c.Leads 0 d →
      Proceeds d (step a) (step' a) d fun next => next.elim 0 fun _ => 1)
    (enough : c.tokens.length ≤ fuel.length) :
    Proceeds c (Parse.iterate step fuel a) (Parse.iterate step' fuel a) c fun _ => 0 := by
  induction fuel generalizing a c with
  | nil =>
    refine bind (steps a c (.refl c)) fun next d read => ?_
    cases next with
    | none => exact pure read
    | some a' =>
      -- No token is left that this step could have read.
      have shorter : d.tokens.length + 1 ≤ c.tokens.length := read.length
      rw [List.length_nil] at enough
      omega
  | cons t fuel ih =>
    refine bind (steps a c (.refl c)) fun next d read => ?_
    cases next with
    | none => exact pure read
    | some a' =>
      have shorter : d.tokens.length + 1 ≤ c.tokens.length := read.length
      rw [List.length_cons] at enough
      refine ((ih (fun a e more => ?_) (by omega)).further read).mono fun _ => Nat.zero_le _
      exact steps a e ((read.trans more).mono (Nat.zero_le _))

theorem loop {a : α} (along : b.Leads j c)
    (steps : ∀ a d, b.Leads j d →
      Proceeds d (step a) (step' a) d fun next => next.elim 0 fun _ => 1) :
    Proceeds b (loop step a) (loop step' a) c fun _ => j :=
  (iterate (fun a d more => steps a d (along.trans more)) (Nat.le_refl _)).further along

end

/-- One item, and another after each comma. -/
theorem separated {item item' : Parse α} {stop : Parse Bool} (along : b.Leads j c)
    (items : ∀ d, b.Leads j d → Proceeds d item item' d fun _ => 1)
    (stops : ∀ d, b.Leads j d → Proceeds d stop stop d fun _ => 0) :
    Proceeds b (separated item stop) (separated item' stop) c fun _ => j + 1 := by
  refine ((items c along).further along).bind fun first d along' => ?_
  refine (loop along' fun found e read => ?_).bind fun reversed e read => pure read
  refine (acceptSymbol (.refl e) .comma).bind fun comma f next => ?_
  cases comma with
  | false => exact pure next
  | true =>
    have from_ : b.Leads j e := read.mono (Nat.le_add_right j 1)
    have onward {k : Nat} {g : Cursor} (way : e.Leads k g) : b.Leads j g :=
      (from_.trans way).mono (Nat.le_add_right j k)
    refine (skipNewlines next).bind fun _ g next => ?_
    refine ((stops g (onward next)).further next).bind fun stopped h next => ?_
    cases stopped with
    | true => exact pure (next.mono (Nat.zero_le _))
    | false =>
      refine ((items h (onward next)).further next).bind fun a i next => pure ?_
      exact next.mono (Nat.le_add_left 1 _)

end Proceeds
end ScriptHost
