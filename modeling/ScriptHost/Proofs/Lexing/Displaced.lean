import ScriptHost.Proofs.Lexing.Cut
import ScriptHost.Source.Tree.Expressions

/-! Tokens and displacement. A text that starts elsewhere has the same tokens, moved; and however
the tokens of a text are moved, reading them needs no more levels than its bytes allow. -/

namespace ScriptHost

-- Sums start from the core library's zero, as in the definition of the bound.
attribute [local instance (high)] Zero.ofOfNat0

variable {p base : Position} {bytes text : List UInt8} {t : Token} {ts : List Token}

/-! ### Proper tokens -/

/-- The places of a token are proper, also those of the source in it. -/
structure Token.Proper (t : Token) : Prop where
  start : t.span.start.Proper
  stop : t.span.stop.Proper
  code : ∀ {source here}, .code source here ∈ t.kind.parts → here.Proper

theorem Cut.proper (h : Cut p bytes ts) (hp : p.Proper) (there : t ∈ ts) : t.Proper := by
  obtain rfl | ⟨before, text, behind, -, worded, place⟩ := h.token_cases there
  · exact ⟨hp.after _, hp.after _, nofun⟩
  · refine ⟨?_, ?_, ?_⟩
    · rw [place]
      exact hp.after _
    · rw [place]
      exact (hp.after _).after _
    · intro source here part
      obtain ⟨front, -, -, -, -, rfl⟩ := worded.codeIn.found part
      exact (hp.after _).after _

theorem tokens_proper {source : String} (there : t ∈ tokens source) : t.Proper :=
  (tokensFrom_cut _ _).proper Position.proper_origin there

theorem Token.Proper.rebase (h : t.Proper) (hbase : base.Proper) : (t.rebase base).Proper where
  start := hbase.rebase h.start
  stop := hbase.rebase h.stop
  code := by
    intro source here part
    obtain ⟨kind, span⟩ := t
    cases kind with
    | string parts =>
      obtain ⟨inner, there, moved⟩ := List.mem_map.mp part
      cases inner with
      | literal => cases moved
      | code source inner =>
        cases moved
        exact hbase.rebase (h.code there)
    | _ => cases part

/-! ### Moving tokens -/

@[simp] theorem Token.rebase_kind (base : Position) (t : Token) :
    (t.rebase base).kind = t.kind.rebase base := rfl

@[simp] theorem Token.rebase_span (base : Position) (t : Token) :
    (t.rebase base).span = t.span.rebase base := rfl

@[simp] theorem TokenKind.isEnd_rebase (base : Position) (kind : TokenKind) :
    (kind.rebase base).isEnd = kind.isEnd := by
  cases kind <;> rfl

@[simp] theorem TokenKind.isNewline_rebase (base : Position) (kind : TokenKind) :
    (kind.rebase base).isNewline = kind.isNewline := by
  cases kind <;> rfl

@[simp] theorem TokenKind.isSymbol_rebase (base : Position) (kind : TokenKind) (s : Symbol) :
    (kind.rebase base).isSymbol s = kind.isSymbol s := by
  cases kind <;> rfl

@[simp] theorem TokenKind.isKeyword_rebase (base : Position) (kind : TokenKind) (k : Keyword) :
    (kind.rebase base).isKeyword k = kind.isKeyword k := by
  cases kind <;> rfl

/-- A fragment of a fragment can be moved at once or step by step. -/
theorem Token.rebase_rebase (h : t.Proper) (hp : p.Proper) (base : Position) :
    (t.rebase p).rebase base = t.rebase (base.rebase p) := by
  obtain ⟨kind, span⟩ := t
  have spans : (span.rebase p).rebase base = span.rebase (base.rebase p) := by
    unfold Span.rebase
    rw [Position.rebase_rebase hp h.start, Position.rebase_rebase hp h.stop]
  have kinds : (kind.rebase p).rebase base = kind.rebase (base.rebase p) := by
    cases kind with
    | string parts =>
      change TokenKind.string _ = TokenKind.string _
      rw [List.map_map]
      congr 1
      refine List.map_congr_left fun part there => ?_
      cases part with
      | literal => rfl
      | code source here =>
        change StringPart.code _ _ = StringPart.code _ _
        rw [Position.rebase_rebase hp (h.code there)]
    | _ => rfl
  unfold Token.rebase
  rw [spans, kinds]

@[simp] theorem Token.origin_rebase (t : Token) : t.rebase .origin = t := by
  obtain ⟨kind, span⟩ := t
  have kinds : kind.rebase .origin = kind := by
    cases kind with
    | string parts =>
      change TokenKind.string _ = TokenKind.string _
      congr 1
      refine (List.map_congr_left fun part _ => ?_).trans (List.map_id _)
      cases part with
      | literal => rfl
      | code source here =>
        change StringPart.code _ _ = StringPart.code _ _
        rw [Position.origin_rebase]
    | _ => rfl
  unfold Token.rebase
  rw [kinds, Span.origin_rebase]

theorem string_rebase (hp : p.Proper) (base : Position) (bytes : List UInt8) :
    string (base.rebase p) bytes = ((string p bytes).1.rebase base, (string p bytes).2) := by
  unfold string
  split
  · simp only [TokenKind.rebase, List.map_map, Prod.mk.injEq, TokenKind.string.injEq, and_true]
    refine List.map_congr_left fun part _ => ?_
    cases part with
    | literal => rfl
    | code code before =>
      change StringPart.code _ _ = StringPart.code _ _
      rw [Position.rebase_after hp]
  · rfl

/-- Only strings tell where they are. -/
theorem lexeme_rebase (hp : p.Proper) (base : Position) (b : UInt8) (rest : List UInt8) :
    lexeme (base.rebase p) b rest = ((lexeme p b rest).1.rebase base, (lexeme p b rest).2) := by
  unfold lexeme
  split
  · rfl
  · split
    · exact string_rebase hp base _
    · split
      · have plain : (number (b :: rest)).1.rebase base = (number (b :: rest)).1 := by
          unfold number hexNumber decimalNumber
          dsimp only
          split
          · split
            · split <;> rfl
            · rfl
          · rfl
        rw [plain]
      · split
        · have plain : (word (b :: rest)).1.rebase base = (word (b :: rest)).1 := by
            unfold word
            dsimp only
            split
            · rfl
            · split <;> rfl
          rw [plain]
        · have plain : (symbol (b :: rest)).1.rebase base = (symbol (b :: rest)).1 := by
            unfold symbol
            dsimp only
            split
            · rfl
            · split <;> rfl
          rw [plain]

theorem Lexed.rebase (h : Lexed p bytes ts) (hp : p.Proper) (base : Position) :
    Lexed (base.rebase p) bytes (ts.map (Token.rebase base)) := by
  induction h with
  | @stop p gap found =>
    have moved := Lexed.stop (p := base.rebase p) found
    rw [← Position.rebase_after hp] at moved
    exact moved
  | @openComment p text comment found mark open_ =>
    have moved := Lexed.openComment (p := base.rebase p) found mark open_
    rw [← Position.rebase_after hp, ← Position.rebase_after (hp.after text)] at moved
    exact moved
  | @token p gap b rest ts found stops _ ih =>
    have here : (p.after gap).Proper := hp.after gap
    have moved := ih (here.after _)
    rw [Position.rebase_after here, Position.rebase_after hp] at moved
    have lexemes := lexeme_rebase here base b rest
    have texts : lexemeText ((base.rebase p).after gap) b rest =
        lexemeText (p.after gap) b rest := by
      rw [lexemeText, lexemeText, ← Position.rebase_after hp, lexemes]
    have token : Lexed (base.rebase p) (gap ++ b :: rest) _ := .token found stops (by
      rw [texts, ← Position.rebase_after hp, lexemes, Position.rebase_after hp]
      exact moved)
    rw [texts, ← Position.rebase_after hp, lexemes, ← Position.rebase_after here] at token
    exact token

/-- A text that starts elsewhere has the same tokens, moved. -/
theorem tokensFrom_rebase (hp : p.Proper) (base : Position) (bytes : List UInt8) :
    tokensFrom (base.rebase p) bytes = (tokensFrom p bytes).map (Token.rebase base) :=
  ((tokensFrom_lexed p bytes).rebase hp base).eq_tokensFrom

/-! ### Tokens that are not the end of input -/

theorem TokenKind.isEnd_of_isNewline {kind : TokenKind} (h : kind.isNewline) :
    kind.isEnd = false := by
  cases kind <;> first | rfl | cases h

theorem TokenKind.isEnd_of_isSymbol {kind : TokenKind} {s : Symbol} (h : kind.isSymbol s) :
    kind.isEnd = false := by
  cases kind <;> first | rfl | cases h

theorem TokenKind.isEnd_of_isKeyword {kind : TokenKind} {k : Keyword} (h : kind.isKeyword k) :
    kind.isEnd = false := by
  cases kind <;> first | rfl | cases h

/-- The end of input fits no place of the grammar. -/
theorem Place.isEnd_of_fits {place : Place} {kind : TokenKind} (h : place.fits kind) :
    kind.isEnd = false := by
  cases kind with
  | endOfInput => cases place <;> cases h
  | _ => rfl

theorem UnaryOp.isEnd_of_ofKind? {kind : TokenKind} {op : UnaryOp}
    (h : UnaryOp.ofKind? kind = some op) : kind.isEnd = false := by
  cases kind <;> first | rfl | cases h

theorem InfixOp.isEnd_of_atLevel? {n : Nat} {kind : TokenKind} {op : InfixOp}
    (h : InfixOp.atLevel? n kind = some op) : kind.isEnd = false := by
  cases kind <;> first | rfl | cases h

/-! ### The nesting of tokens -/

@[simp] theorem nestingBound_nil : nestingBound [] = 1 := rfl

@[simp] theorem nestingBound_cons (t : Token) (ts : List Token) :
    nestingBound (t :: ts) = t.kind.nesting + nestingBound ts := by
  simp [nestingBound, Nat.add_assoc]

theorem TokenKind.nesting_pos (kind : TokenKind) : 1 ≤ kind.nesting := by
  cases kind <;> simp [TokenKind.nesting]

theorem TokenKind.nesting_rebase (base : Position) (kind : TokenKind) :
    (kind.rebase base).nesting = kind.nesting := by
  cases kind with
  | string parts =>
    simp only [TokenKind.rebase, TokenKind.nesting, List.map_map]
    congr 3
    funext part
    cases part <;> rfl
  | _ => rfl

@[simp] theorem nestingBound_rebase (base : Position) (ts : List Token) :
    nestingBound (ts.map (Token.rebase base)) = nestingBound ts := by
  induction ts with
  | nil => rfl
  | cons t ts ih => simp [ih, TokenKind.nesting_rebase]

theorem nestingBound_le_of_suffix {ts us : List Token} (h : ts <:+ us) :
    nestingBound ts ≤ nestingBound us := by
  obtain ⟨before, rfl⟩ := h
  induction before with
  | nil => exact Nat.le_refl _
  | cons t before ih =>
    rw [List.cons_append, nestingBound_cons]
    omega

/-- Interpolated source is shorter than its token can nest. -/
theorem TokenKind.size_lt_nesting {parts : List StringPart} {source : String} {here : Position}
    (part : .code source here ∈ parts) :
    source.utf8ByteSize + 2 ≤ (TokenKind.string parts).nesting := by
  induction parts with
  | nil => cases part
  | cons first parts ih =>
    simp only [TokenKind.nesting, List.map_cons, List.sum_cons] at ih ⊢
    obtain ⟨⟩ | ⟨_, part⟩ := part
    · simp only [StringPart.nesting]
      omega
    · have := ih part
      omega

theorem CodeIn.nesting_le {parts : List StringPart} (h : CodeIn p text parts) :
    (parts.map StringPart.nesting).sum ≤ text.length := by
  induction h with
  | nil => simp
  | literal _ ih => simpa [StringPart.nesting] using ih
  | @code p before code rest parts _ ih =>
    have := Utf8.size_textOf_le code
    simp only [List.map_cons, List.sum_cons, StringPart.nesting, List.length_append,
      List.length_cons]
    omega

theorem CodeIn.nesting_lt {parts : List StringPart} (h : CodeIn p text parts) (some_ : text ≠ []) :
    (parts.map StringPart.nesting).sum < text.length := by
  induction h with
  | nil => simpa using List.length_pos_iff.mpr some_
  | literal _ ih => simpa [StringPart.nesting] using ih some_
  | @code p before code rest parts inside _ =>
    have := inside.nesting_le
    have := Utf8.size_textOf_le code
    simp only [List.map_cons, List.sum_cons, StringPart.nesting, List.length_append,
      List.length_cons]
    omega

theorem Worded.nesting_le {kind : TokenKind} (h : Worded p kind text) :
    kind.nesting ≤ text.length := by
  have positive := List.length_pos_iff.mpr h.ne_nil
  cases h with
  | string some_ inside =>
    have := inside.nesting_lt some_
    simp only [TokenKind.nesting]
    omega
  | newline | invalid => exact positive
  | @word kind text word =>
    cases kind <;> first | exact positive | cases word

theorem Cut.nestingBound_le (h : Cut p bytes ts) : nestingBound ts ≤ bytes.length + 2 := by
  induction h with
  | stop => simp [TokenKind.nesting]
  | token _ worded _ ih =>
    have := worded.nesting_le
    rw [nestingBound_cons, List.length_append, List.length_append]
    dsimp only
    omega

theorem nestingBound_tokens_le (source : String) :
    nestingBound (tokens source) ≤ source.utf8ByteSize + 2 := by
  rw [← Utf8.length_encode]
  exact (tokensFrom_cut _ _).nestingBound_le

end ScriptHost
