import ScriptHost.Proofs.Account.Leaves
import ScriptHost.Proofs.Rendering.Ranks

/-! Which tokens an action of a reader takes. A postcondition speaks of what is found, of the tokens
taken for it, and of the cursor behind them; where a fault is found, nothing is said. -/

namespace ScriptHost

open Parse

variable {α β : Type} {c d : Cursor}

theorem TokenKind.eq_symbol {kind : TokenKind} {s : Symbol} (h : kind.isSymbol s) :
    kind = .symbol s := by
  cases kind with
  | symbol t => exact congrArg TokenKind.symbol (beq_iff_eq.mp h)
  | _ => cases h

theorem TokenKind.eq_keyword {kind : TokenKind} {k : Keyword} (h : kind.isKeyword k) :
    kind = .keyword k := by
  cases kind with
  | keyword l => exact congrArg TokenKind.keyword (beq_iff_eq.mp h)
  | _ => cases h

theorem TokenKind.eq_newline {kind : TokenKind} (h : kind.isNewline) : kind = .newline := by
  cases kind <;> first | rfl | cases h

/-- If the action finds something from the cursor `c`, then `Q` is true of it, of the kinds of the
tokens that are taken, and of the cursor that is left. -/
def Spends (x : Parse α) (c : Cursor) (Q : α → List TokenKind → Cursor → Prop) : Prop :=
  ∀ a d, x c = .ok a d → ∃ ts, c.kinds = ts ++ d.kinds ∧ Q a ts d

namespace Spends

variable {x : Parse α} {f : α → Parse β} {P P' : α → List TokenKind → Cursor → Prop}
  {Q : β → List TokenKind → Cursor → Prop}

/-! ### Rules -/

theorem mono (h : Spends x c P) (post : ∀ a ts d, P a ts d → P' a ts d) : Spends x c P' :=
  fun a d run =>
    let ⟨ts, split, found⟩ := h a d run
    ⟨ts, split, post a ts d found⟩

theorem pure {a : α} (h : P a [] c) : Spends (pure a) c P := by
  rintro _ _ ⟨⟩
  exact ⟨[], rfl, h⟩

/-- What is left for the second action is to find something that `Q` is true of, with the tokens of
the first action in front. -/
theorem bind (first : Spends x c P)
    (second : ∀ a ts d, P a ts d → Spends (f a) d fun b us e => Q b (ts ++ us) e) :
    Spends (x >>= f) c Q := by
  intro b e run
  change EStateM.bind x f c = .ok b e at run
  unfold EStateM.bind at run
  split at run
  · rename_i a d found
    obtain ⟨ts, split, here⟩ := first a d found
    obtain ⟨us, split', there⟩ := second a ts d here b e run
    exact ⟨ts ++ us, by rw [split, split', List.append_assoc], there⟩
  · cases run

theorem map {g : α → β} (h : Spends x c fun a ts d => Q (g a) ts d) : Spends (g <$> x) c Q := by
  rw [map_eq_pure_bind]
  refine h.bind fun a ts d found => pure ?_
  rwa [List.append_nil]

/-- An action that finds nothing, whatever follows. -/
theorem never (first : Spends x c fun _ _ _ => False) : Spends (x >>= f) c Q :=
  first.bind fun _ _ _ found => found.elim

theorem fail (fault : SyntaxFault) : Spends (fail fault) c P := nofun

theorem throw (e : SyntaxError) : Spends (throw e) c P := nofun

/-! ### Actions -/

theorem peek {f : TokenKind → Parse β} (h : Spends (f c.kind) c Q) :
    Spends (Parse.peek >>= f) c Q := h

theorem peekSpan {f : Span → Parse β} (h : Spends (f c.span) c Q) :
    Spends (Parse.peekSpan >>= f) c Q := h

theorem lastSpan {f : Span → Parse β} (h : Spends (f c.last) c Q) :
    Spends (Parse.lastSpan >>= f) c Q := h

theorem atSymbol {s : Symbol} {f : Bool → Parse β} (h : Spends (f (c.kind.isSymbol s)) c Q) :
    Spends (Parse.atSymbol s >>= f) c Q := h

theorem kinds_eq {kind : TokenKind} (here : c.kind = kind) (goes : kind.isEnd = false) :
    c.kinds = kind :: c.next.kinds := by
  obtain ⟨_ | ⟨t, rest⟩, last⟩ := c
  · cases here
    cases goes
  · exact congrArg (· :: rest.map Token.kind) here

theorem advance {kind : TokenKind} (here : c.kind = kind) (goes : kind.isEnd = false) :
    Spends advance c fun _ ts _ => ts = [kind] := by
  rintro _ _ ⟨⟩
  exact ⟨[kind], kinds_eq here goes, rfl⟩

/-- An action that goes on behind a token that passes a test, or without it. -/
theorem accept {test : TokenKind → Bool} {kind : TokenKind} {f : Bool → Parse β}
    (single : ∀ k, test k → k = kind) (goes : kind.isEnd = false)
    (yes : ∀ d, Spends (f true) d fun b us e => Q b ([kind] ++ us) e)
    (no : test c.kind = false → Spends (f false) c Q) : Spends (Parse.accept test >>= f) c Q := by
  intro b e run
  change EStateM.bind (Parse.accept test) f c = .ok b e at run
  unfold EStateM.bind Parse.accept at run
  cases fits : test c.kind with
  | true =>
    rw [fits] at run
    obtain ⟨us, split, found⟩ := yes c.next b e run
    exact ⟨[kind] ++ us, by rw [kinds_eq (single _ fits) goes, split]; rfl, found⟩
  | false =>
    rw [fits] at run
    exact no fits b e run

theorem acceptSymbol {s : Symbol} {f : Bool → Parse β}
    (yes : ∀ d, Spends (f true) d fun b us e => Q b ([.symbol s] ++ us) e)
    (no : c.kind.isSymbol s = false → Spends (f false) c Q) :
    Spends (Parse.acceptSymbol s >>= f) c Q := by
  exact accept (fun _ => TokenKind.eq_symbol) rfl yes no

theorem acceptKeyword {k : Keyword} {f : Bool → Parse β}
    (yes : ∀ d, Spends (f true) d fun b us e => Q b ([.keyword k] ++ us) e)
    (no : c.kind.isKeyword k = false → Spends (f false) c Q) :
    Spends (Parse.acceptKeyword k >>= f) c Q := by
  exact accept (fun _ => TokenKind.eq_keyword) rfl yes no

theorem fits_iff {place : Place} {kind : TokenKind} (h : place.fits kind) : kind = place.token := by
  unfold Place.fits at h
  cases place <;> cases kind <;> simp_all [Place.token, TokenKind.isKeyword, TokenKind.isSymbol,
    TokenKind.isNewline]

theorem require (place : Place) : Spends (require place) c fun _ ts _ => ts = [place.token] := by
  refine peek ?_
  split
  · rename_i fits
    exact advance (fits_iff fits) (fits_iff fits ▸ Place.isEnd_of_fits fits)
  · exact fail _

theorem name (role : NameRole) : Spends (name role) c fun found ts _ => ts = [.name found.1] := by
  refine peek ?_
  cases kind : c.kind with
  | name word => exact (advance kind rfl).bind fun _ _ _ taken => pure (by rw [taken]; rfl)
  | _ => exact fail _

theorem skipNewlines_kinds (tokens : List Token) (last : Span) :
    ∃ n, tokens.map Token.kind =
        List.replicate n .newline ++ (Cursor.skipNewlines tokens last).kinds ∧
      (n = 0 → Cursor.skipNewlines tokens last = ⟨tokens, last⟩) := by
  induction tokens generalizing last with
  | nil => exact ⟨0, rfl, fun _ => rfl⟩
  | cons t rest ih =>
    unfold Cursor.skipNewlines
    split
    · rename_i line
      obtain ⟨n, split, -⟩ := ih t.span
      refine ⟨n + 1, ?_, fun none => absurd none (Nat.succ_ne_zero n)⟩
      rw [List.map_cons, split, TokenKind.eq_newline line]
      rfl
    · exact ⟨0, rfl, fun _ => rfl⟩

theorem skipNewlines : Spends skipNewlines c fun _ ts d =>
    ∃ n, ts = List.replicate n .newline ∧ (n = 0 → d = c) := by
  rintro _ _ ⟨⟩
  obtain ⟨n, split, none⟩ := skipNewlines_kinds c.tokens c.last
  exact ⟨_, split, n, rfl, none⟩

/-- Newlines say nothing. -/
theorem skipped : Spends Parse.skipNewlines c fun _ ts _ => Carries ts [] :=
  skipNewlines.mono fun _ _ _ ⟨n, taken, _⟩ => taken ▸ .newlines n

theorem thenNewlines {l : α → List Leaf} (h : Spends x c fun a ts _ => Carries ts (l a)) :
    Spends (thenNewlines x) c fun a ts _ => Carries ts (l a) :=
  h.bind fun _ _ _ carried => skipped.bind fun _ _ _ lines =>
    pure (carried.before (lines.before .nil))

/-! ### Repetition -/

section

variable {step : α → Parse (Option α)} {I R : α → List TokenKind → Cursor → Prop}

theorem iterate
    (steps : ∀ a ts d, I a ts d → Spends (step a) d fun next us e =>
      next.elim (R a (ts ++ us) e) fun b => I b (ts ++ us) e)
    (fuel : List Token) {a : α} {ts : List TokenKind} (h : I a ts c) :
    Spends (Parse.iterate step fuel a) c fun b us e => R b (ts ++ us) e := by
  induction fuel generalizing a ts c with
  | nil =>
    refine (steps a ts c h).bind fun next us d kept => ?_
    cases next with
    | none => exact pure (by rwa [List.append_nil])
    | some b => exact fail _
  | cons _ fuel ih =>
    refine (steps a ts c h).bind fun next us d kept => ?_
    cases next with
    | none => exact pure (by rwa [List.append_nil])
    | some b => exact (ih kept).mono fun b' vs e found => by rwa [← List.append_assoc]

/-- A repeated step keeps an invariant of all the tokens that it takes, up to the one that stops. -/
theorem loop
    (steps : ∀ a ts d, I a ts d → Spends (step a) d fun next us e =>
      next.elim (R a (ts ++ us) e) fun b => I b (ts ++ us) e)
    {a : α} (h : I a [] c) : Spends (loop step a) c R :=
  iterate steps c.tokens h

end

/-- One item, and another after each comma. The first one stands in front. -/
theorem separated {l : α → List Leaf} {item : Parse α} {stop : Parse Bool}
    {R : α → List TokenKind → Prop} (carries : ∀ a ts, R a ts → Carries ts (l a))
    (items : ∀ d, Spends item d fun a ts _ => R a ts)
    (stops : ∀ d, Spends stop d fun _ ts _ => Carries ts []) :
    Spends (separated item stop) c fun found ts _ => ∃ first rest us vs,
      found = first :: rest ∧ ts = us ++ vs ∧ R first us ∧ Carries vs (rest.flatMap l) := by
  refine (items c).bind fun first us d here => ?_
  refine (loop (I := fun reversed vs _ => ∃ rest, reversed.reverse = first :: rest ∧
      Carries vs (rest.flatMap l)) (R := fun reversed vs _ => ∃ rest,
      reversed.reverse = first :: rest ∧ Carries vs (rest.flatMap l))
    (fun reversed vs d ⟨rest, order, carried⟩ => ?_) ⟨[], rfl, .nil⟩).bind
      fun reversed vs e ⟨rest, order, carried⟩ =>
        pure ⟨first, rest, us, vs, order, by rw [List.append_nil], here, carried⟩
  refine acceptSymbol (fun e => skipped.bind fun _ ws f lines => ?_) fun _ => pure ?_
  · refine (stops f).bind fun stopped xs g tried => ?_
    cases stopped with
    | true =>
      exact pure ⟨rest, order, carried.before <| .behind (.symbol _) <| lines.behind <|
        tried.behind .nil⟩
    | false =>
      refine (items g).bind fun a ys h found => pure ?_
      refine ⟨rest ++ [a], by rw [List.reverse_cons, order]; rfl, ?_⟩
      rw [List.flatMap_append, List.flatMap_singleton]
      exact carried.append <| .behind (.symbol _) <| lines.behind <| tried.behind <|
        (carries a ys found).before .nil
  · exact ⟨rest, order, carried.before .nil⟩

/-- The leaves of items between commas. -/
theorem separated_carries {l : α → List Leaf} {item : Parse α} {stop : Parse Bool}
    (items : ∀ d, Spends item d fun a ts _ => Carries ts (l a))
    (stops : ∀ d, Spends stop d fun _ ts _ => Carries ts []) :
    Spends (Parse.separated item stop) c fun found ts _ => Carries ts (found.flatMap l) := by
  refine (separated (fun _ _ carried => carried) items stops).mono ?_
  rintro _ _ _ ⟨first, rest, us, vs, rfl, rfl, here, behind⟩
  rw [List.flatMap_cons]
  exact here.append behind

end Spends
end ScriptHost
