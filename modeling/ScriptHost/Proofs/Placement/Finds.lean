import ScriptHost.Proofs.Lexing.Rows
import ScriptHost.Source.Cursor

/-! Readers along a row of tokens. The span of the last token read is a true one, and reading on
moves it forward. What an action of a reader finds there is a result as a postcondition says, or a
fault at a true place; whatever is found, the tokens left are a row again. -/

namespace ScriptHost

/-! ### Cursors -/

namespace Cursor

variable {text : List UInt8} {top lo : Nat}

/-- The span of the last token read is true, and the tokens left are a row behind it. -/
structure Sound (text : List UInt8) (top : Nat) (c : Cursor) : Prop where
  last : c.last.TrueIn text
  row : Row text top c.last.stop.offset c.tokens

/-- The tokens left also start behind an offset of their own. -/
structure Ahead (text : List UInt8) (top lo : Nat) (c : Cursor) : Prop
    extends c.Sound text top where
  behind : Row text top lo c.tokens

/-- A token that starts behind an offset has been read. -/
structure Past (text : List UInt8) (top lo : Nat) (c : Cursor) : Prop extends c.Sound text top where
  begun : lo ≤ c.last.start.offset

/-- The cursor `d` is a later one than `c`, or the same. -/
structure After (text : List UInt8) (top : Nat) (c d : Cursor) : Prop extends d.Sound text top where
  start : c.last.start.offset ≤ d.last.start.offset
  stop : c.last.stop.offset ≤ d.last.stop.offset

variable {c d e : Cursor}

theorem Sound.ahead (h : c.Sound text top) : c.Ahead text top c.last.stop.offset := ⟨h, h.row⟩

theorem Sound.after (h : c.Sound text top) : c.After text top c :=
  ⟨h, Nat.le_refl _, Nat.le_refl _⟩

theorem Sound.le_top (h : c.Sound text top) : c.last.stop.offset ≤ top := h.row.le_top

theorem After.trans (h : c.After text top d) (k : d.After text top e) : c.After text top e :=
  ⟨k.toSound, Nat.le_trans h.start k.start, Nat.le_trans h.stop k.stop⟩

theorem Past.after (h : d.Past text top c.last.stop.offset) (sound : c.Sound text top) :
    c.After text top d :=
  ⟨h.toSound, Nat.le_trans sound.last.ordered h.begun, Nat.le_trans h.begun h.last.ordered⟩

theorem Past.of_after (h : c.Past text top lo) (k : c.After text top d) : d.Past text top lo :=
  ⟨k.toSound, Nat.le_trans h.begun k.start⟩

theorem Past.ahead (h : c.Past text top lo) : c.Ahead text top lo :=
  ⟨h.toSound, h.row.mono (Nat.le_trans h.begun h.last.ordered)⟩

/-- The tokens left start behind both offsets. -/
theorem Ahead.both (h : c.Ahead text top lo) : c.Ahead text top (max lo c.last.stop.offset) := by
  refine ⟨h.toSound, ?_⟩
  obtain le | le := Nat.le_total lo c.last.stop.offset
  · rw [Nat.max_eq_right le]
    exact h.row
  · rw [Nat.max_eq_left le]
    exact h.behind

/-- The first cursor of some tokens. -/
theorem ahead_start {ts : List Token} (h : Row text top lo ts) : (start ts).Ahead text top lo :=
  ⟨⟨⟨Position.trueIn_origin text, Position.trueIn_origin text, Nat.le_refl _⟩,
    h.mono (Nat.zero_le lo)⟩, h⟩

theorem Sound.span (h : c.Sound text top) : c.span.TrueIn text := by
  have row := h.row
  unfold Cursor.span
  split
  · exact h.last
  · rename_i t rest tokens
    rw [tokens] at row
    cases row with
    | cons _ sits _ => exact sits.span

/-- Source in the next token is where the token says. -/
theorem Sound.code (h : c.Sound text top) {source : String} {start : Position}
    (part : .code source start ∈ c.kind.parts) : SourceAt text c.span source start := by
  have row := h.row
  unfold Cursor.kind at part
  unfold Cursor.span
  split at part
  · cases part
  · rename_i t rest tokens
    rw [tokens] at row
    cases row with
    | cons _ sits _ => exact sits.code source start part

theorem Ahead.next (h : c.Ahead text top lo) (goes : c.kind.isEnd = false) :
    c.next.Past text top lo ∧ c.next.last = c.span := by
  have behind := h.behind
  unfold Cursor.next Cursor.span
  unfold Cursor.kind at goes
  split
  · rename_i none
    rw [none] at goes
    cases goes
  · rename_i t rest tokens
    rw [tokens] at behind
    cases behind with
    | cons start sits row => exact ⟨⟨⟨sits.span, row⟩, start⟩, rfl⟩

/-- Reading on never leaves the row, not even at its end. -/
theorem Sound.next (h : c.Sound text top) : c.next.Sound text top := by
  have row := h.row
  unfold Cursor.next
  split
  · exact h
  · rename_i t rest tokens
    rw [tokens] at row
    cases row with
    | cons _ sits row => exact ⟨sits.span, row⟩

theorem Ahead.skipNewlines (h : c.Ahead text top lo) :
    (Cursor.skipNewlines c.tokens c.last).Ahead text top lo ∧
      c.After text top (Cursor.skipNewlines c.tokens c.last) := by
  obtain ⟨ts, last⟩ := c
  induction ts generalizing last with
  | nil => exact ⟨h, h.after⟩
  | cons t rest ih =>
    unfold Cursor.skipNewlines
    split
    · rename_i line
      have goes := TokenKind.isEnd_of_isNewline line
      have past := (h.next goes).1
      obtain ⟨ahead, after⟩ := ih t.span past.ahead
      exact ⟨ahead, ((h.toSound.ahead.next goes).1.after h.toSound).trans after⟩
    · exact ⟨h, h.after⟩

theorem Sound.recover (h : c.Sound text top) (depth : Nat) :
    (Cursor.recover depth c.tokens c.last).Sound text top := by
  obtain ⟨ts, last⟩ := c
  induction ts generalizing last depth with
  | nil => exact h
  | cons t rest ih =>
    have next (depth : Nat) := ih depth t.span h.next
    unfold Cursor.recover
    split
    · exact h
    · split
      · exact next _
      · split
        · exact next _
        · exact next _

end Cursor

/-! ### Actions -/

open Parse

variable {text : List UInt8} {top lo : Nat} {α β : Type} {c d : Cursor}

/-- From the cursor `c`, the action finds a result and a cursor as `Q` says, or a fault at a true
place with a row of tokens left. -/
def Finds (text : List UInt8) (top : Nat) (x : Parse α) (c : Cursor) (Q : α → Cursor → Prop) :
    Prop :=
  match x c with
  | .ok a d => Q a d
  | .error e d => e.span.TrueIn text ∧ d.Sound text top

namespace Finds

variable {x : Parse α} {k : α → Parse β} {Q Q' : α → Cursor → Prop} {R : β → Cursor → Prop}

/-! ### Rules -/

theorem mono (h : Finds text top x c Q) (post : ∀ a d, Q a d → Q' a d) :
    Finds text top x c Q' := by
  unfold Finds at h ⊢
  split at h
  · exact post _ _ h
  · exact h

theorem pure {a : α} (h : Q a c) : Finds text top (pure a) c Q := h

theorem bind (first : Finds text top x c Q)
    (second : ∀ a d, Q a d → Finds text top (k a) d R) : Finds text top (x >>= k) c R := by
  unfold Finds at first
  change match EStateM.bind x k c with
    | .ok b d => R b d
    | .error e d => e.span.TrueIn text ∧ d.Sound text top
  unfold EStateM.bind
  split at first
  · rename_i a d run
    rw [run]
    exact second a d first
  · rename_i e d run
    rw [run]
    exact first

theorem map {f : α → β} (first : Finds text top x c Q) (post : ∀ a d, Q a d → R (f a) d) :
    Finds text top (f <$> x) c R := by
  rw [map_eq_pure_bind]
  exact first.bind fun a d found => pure (post a d found)

/-! ### Actions -/

theorem peek {k : TokenKind → Parse β} (h : Finds text top (k c.kind) c R) :
    Finds text top (Parse.peek >>= k) c R := h

theorem peekSpan {k : Span → Parse β} (h : Finds text top (k c.span) c R) :
    Finds text top (Parse.peekSpan >>= k) c R := h

theorem lastSpan {k : Span → Parse β} (h : Finds text top (k c.last) c R) :
    Finds text top (Parse.lastSpan >>= k) c R := h

theorem atSymbol {s : Symbol} {k : Bool → Parse β}
    (h : Finds text top (k (c.kind.isSymbol s)) c R) :
    Finds text top (Parse.atSymbol s >>= k) c R := h

theorem fail (sound : c.Sound text top) (fault : SyntaxFault) : Finds text top (fail fault) c Q :=
  ⟨sound.span, sound⟩

theorem advance (ahead : c.Ahead text top lo) (goes : c.kind.isEnd = false) :
    Finds text top advance c fun s d => s = d.last ∧ d.last = c.span ∧ d.Past text top lo := by
  obtain ⟨past, last⟩ := ahead.next goes
  exact ⟨last.symm, last, past⟩

theorem accept {test : TokenKind → Bool} (inside : ∀ kind, test kind → kind.isEnd = false)
    (sound : c.Sound text top) :
    Finds text top (accept test) c fun _ d => c.After text top d := by
  unfold Finds Parse.accept
  split
  · rename_i run
    split at run
    · rename_i fits
      cases run
      exact (sound.ahead.next (inside _ fits)).1.after sound
    · cases run
      exact sound.after
  · rename_i run
    split at run <;> cases run

theorem acceptSymbol (sound : c.Sound text top) (s : Symbol) :
    Finds text top (acceptSymbol s) c fun _ d => c.After text top d :=
  accept (fun _ => TokenKind.isEnd_of_isSymbol) sound

theorem acceptKeyword (sound : c.Sound text top) (k : Keyword) :
    Finds text top (acceptKeyword k) c fun _ d => c.After text top d :=
  accept (fun _ => TokenKind.isEnd_of_isKeyword) sound

theorem require (sound : c.Sound text top) (place : Place) :
    Finds text top (require place) c fun s d => s = d.last ∧ c.After text top d := by
  refine peek ?_
  split
  · rename_i fits
    exact (advance sound.ahead (Place.isEnd_of_fits fits)).mono fun _ _ ⟨last, _, past⟩ =>
      ⟨last, past.after sound⟩
  · exact fail sound _

theorem name (sound : c.Sound text top) (role : NameRole) :
    Finds text top (name role) c fun found d => found.2 = d.last ∧ c.After text top d := by
  refine peek ?_
  cases kind : c.kind with
  | name word =>
    exact (advance sound.ahead (by rw [kind]; rfl)).bind fun _ _ ⟨last, _, past⟩ =>
      pure ⟨last, past.after sound⟩
  | _ => exact fail sound _

theorem skipNewlines (sound : c.Sound text top) :
    Finds text top skipNewlines c fun _ d => c.After text top d := sound.ahead.skipNewlines.2

/-- The same in front of the first token. -/
theorem skipNewlines_first (ahead : c.Ahead text top lo) :
    Finds text top Parse.skipNewlines c fun _ d => d.Ahead text top lo := ahead.skipNewlines.1

/-! ### Repetition -/

/-- A repeated step keeps an invariant of what is found so far. -/
def Kept (I : α → Cursor → Prop) (a : α) : Option α → Cursor → Prop
  | some b => I b
  | none => I a

variable {I : α → Cursor → Prop} {step : α → Parse (Option α)}

theorem iterate (sound : ∀ a c, I a c → c.Sound text top)
    (steps : ∀ a c, I a c → Finds text top (step a) c (Kept I a)) (fuel : List Token) {a : α}
    (h : I a c) : Finds text top (Parse.iterate step fuel a) c I := by
  induction fuel generalizing a c with
  | nil =>
    refine (steps a c h).bind fun next d kept => ?_
    cases next with
    | none => exact pure kept
    | some b => exact fail (sound b d kept) _
  | cons t fuel ih =>
    refine (steps a c h).bind fun next d kept => ?_
    cases next with
    | none => exact pure kept
    | some b => exact ih kept

theorem loop (sound : ∀ a c, I a c → c.Sound text top)
    (steps : ∀ a c, I a c → Finds text top (step a) c (Kept I a)) {a : α} (h : I a c) :
    Finds text top (loop step a) c I := iterate sound steps c.tokens h

/-- What is true of each item where it has been read, and stays true, is true of all of them. -/
theorem separated {P : α → Nat → Prop} (stays : ∀ {a m n}, m ≤ n → P a m → P a n)
    {item : Parse α} {stop : Parse Bool} (sound : c.Sound text top)
    (items : ∀ d, c.After text top d →
      Finds text top item d fun a e => P a e.last.stop.offset ∧ d.After text top e)
    (stops : ∀ d, d.Sound text top → Finds text top stop d fun _ e => d.After text top e) :
    Finds text top (separated item stop) c fun found d =>
      (∀ a ∈ found, P a d.last.stop.offset) ∧ c.After text top d := by
  have more {a : α} {found : List α} {d e : Cursor} (here : P a e.last.stop.offset)
      (before : ∀ b ∈ found, P b d.last.stop.offset) (after : d.After text top e) :
      ∀ b ∈ a :: found, P b e.last.stop.offset :=
    List.forall_mem_cons.mpr ⟨here, fun b there => stays after.stop (before b there)⟩
  refine (items c sound.after).bind fun first d ⟨here, after⟩ => ?_
  refine (loop (I := fun found d => (∀ a ∈ found, P a d.last.stop.offset) ∧ c.After text top d)
    (fun _ _ kept => kept.2.toSound) (fun found d ⟨all, after⟩ => ?_)
    ⟨by simpa using here, after⟩).bind fun reversed e ⟨all, after⟩ =>
      pure ⟨by simpa using all, after⟩
  refine (acceptSymbol after.toSound .comma).bind fun comma e next => ?_
  cases comma with
  | false => exact pure ⟨fun a there => stays next.stop (all a there), after.trans next⟩
  | true =>
    refine (skipNewlines next.toSound).bind fun _ f skipped => ?_
    refine (stops f skipped.toSound).bind fun stopped g tried => ?_
    have along := (next.trans skipped).trans tried
    cases stopped with
    | true => exact pure ⟨fun a there => stays along.stop (all a there), after.trans along⟩
    | false =>
      refine (items g (after.trans along)).bind fun a h ⟨here, last⟩ => ?_
      exact pure ⟨more here all (along.trans last), (after.trans along).trans last⟩

theorem thenNewlines {P : α → Nat → Prop} (stays : ∀ {a m n}, m ≤ n → P a m → P a n)
    (h : Finds text top x c fun a d => P a d.last.stop.offset ∧ c.After text top d) :
    Finds text top (thenNewlines x) c fun a d =>
      P a d.last.stop.offset ∧ c.After text top d := by
  refine h.bind fun a d ⟨here, after⟩ => ?_
  refine (skipNewlines after.toSound).bind fun _ e skipped => ?_
  exact pure ⟨stays skipped.stop here, after.trans skipped⟩

end Finds
end ScriptHost
