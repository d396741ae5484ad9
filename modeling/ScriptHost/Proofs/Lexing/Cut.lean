import ScriptHost.Proofs.Lexing.Extent
import ScriptHost.Proofs.Lexing.Gaps
import ScriptHost.Proofs.Lexing.Strings

/-! How a script is cut into tokens. `Worded` says which bytes a token can have, and `Cut` puts gaps
and tokens together, from a place of the text to its end. The tokens of every text are a cut of it.
-/

namespace ScriptHost

open Position (newline)

/-- The parts of a string token. -/
def TokenKind.parts : TokenKind → List StringPart
  | string parts => parts
  | _ => []

/-- Whether a token is a word, a number or a symbol. -/
def TokenKind.isWord : TokenKind → Bool
  | number _ | name _ | field _ | keyword _ | symbol _ => true
  | _ => false

def TokenKind.isInvalid : TokenKind → Bool
  | invalid _ => true
  | _ => false

/-- The bytes of a token that starts at `p`. A newline is a token of its own; only strings and
faults have newlines among their bytes. -/
inductive Worded (p : Position) : TokenKind → List UInt8 → Prop
  | newline : Worded p .newline [newline]
  | word {kind text} : kind.isWord → text ≠ [] → newline ∉ text → Worded p kind text
  | string {parts text} : text ≠ [] → CodeIn p text parts → Worded p (.string parts) text
  | invalid {fault text} : text ≠ [] → Worded p (.invalid fault) text

/-- The bytes of a text from the place `p` on, cut into tokens. -/
inductive Cut : Position → List UInt8 → List Token → Prop
  | stop {p gap} : GapText [] gap → Cut p gap [⟨.endOfInput, .point (p.after gap)⟩]
  | token {p gap kind text rest ts} : GapText (text ++ rest) gap →
    Worded (p.after gap) kind text → Cut ((p.after gap).after text) rest ts →
    Cut p (gap ++ (text ++ rest)) (⟨kind, ⟨p.after gap, (p.after gap).after text⟩⟩ :: ts)

/-- The bytes of the token that starts with `b` at `p`. -/
def lexemeText (p : Position) (b : UInt8) (rest : List UInt8) : List UInt8 :=
  b :: rest.take ((lexeme p b rest).2 - 1)

variable {p : Position} {bytes text : List UInt8} {ts : List Token} {kind : TokenKind}

theorem Worded.ne_nil (h : Worded p kind text) : text ≠ [] := by
  cases h with
  | newline => exact List.cons_ne_nil _ _
  | word _ some_ | string some_ | invalid some_ => exact some_

theorem Worded.isEnd (h : Worded p kind text) : kind.isEnd = false := by
  cases h with
  | newline | string | invalid => rfl
  | @word kind text word =>
    cases kind <;> first | rfl | cases word

/-- Interpolated source stands in the bytes of its token. -/
theorem Worded.codeIn (h : Worded p kind text) : CodeIn p text kind.parts := by
  cases h with
  | newline | invalid => exact .nil
  | string _ inside => exact inside
  | @word kind text word =>
    cases kind <;> first | exact .nil | cases word

/-- The end of input is behind the bytes; every other token has bytes of its own. -/
theorem Cut.token_cases (h : Cut p bytes ts) {t : Token} (there : t ∈ ts) :
    t = ⟨.endOfInput, .point (p.after bytes)⟩ ∨
      ∃ before text behind, bytes = before ++ (text ++ behind) ∧
        Worded (p.after before) t.kind text ∧
        t.span = ⟨p.after before, (p.after before).after text⟩ := by
  induction h with
  | stop => exact .inl (List.mem_singleton.mp there)
  | @token p gap kind text rest ts _ worded _ ih =>
    obtain ⟨⟩ | ⟨_, there⟩ := there
    · exact .inr ⟨gap, text, rest, rfl, worded, rfl⟩
    · obtain end_ | ⟨before, text', behind, rfl, worded', place⟩ := ih there
      · exact .inl (by rw [end_, Position.after_append, Position.after_append])
      · refine .inr ⟨gap ++ (text ++ before), text', behind, by simp, ?_, ?_⟩
        · simpa using worded'
        · simpa using place

/-- The end of input is the last token, and no other one is; the others have bytes of their own. -/
theorem Cut.ends (h : Cut p bytes ts) :
    ∃ others, ts = others ++ [⟨.endOfInput, .point (p.after bytes)⟩] ∧
      ∀ t ∈ others, t.kind.isEnd = false ∧ t.span.start.offset < t.span.stop.offset := by
  induction h with
  | stop => exact ⟨[], rfl, nofun⟩
  | @token p gap kind text rest ts _ worded _ ih =>
    obtain ⟨others, rfl, covers⟩ := ih
    refine ⟨⟨kind, ⟨p.after gap, (p.after gap).after text⟩⟩ :: others, ?_, ?_⟩
    · rw [Position.after_append, Position.after_append]
      rfl
    · intro t there
      obtain ⟨⟩ | ⟨_, there⟩ := there
      · refine ⟨worded.isEnd, ?_⟩
        have length := List.length_pos_iff.mpr worded.ne_nil
        simp only [Position.after_offset _ text]
        omega
      · exact covers t there

/-! ### The tokens of a text -/

theorem Within.unbroken_lexeme {q : UInt8 → Bool} {b : UInt8} {rest : List UInt8} {n : Nat}
    (h : Within q (b :: rest) n) (plain : b ≠ newline) (other : q newline = false) :
    newline ∉ b :: rest.take (n - 1) := by
  have unbroken := h.lacks other
  cases n with
  | zero => simpa using plain.symm
  | succ n => exact unbroken

theorem worded_symbol (p : Position) {b : UInt8} {rest : List UInt8} (plain : b ≠ newline) :
    Worded p (symbol (b :: rest)).1 (b :: rest.take ((symbol (b :: rest)).2 - 1)) := by
  have unbroken := (within_symbol plain rest).unbroken_lexeme plain rfl
  revert unbroken
  unfold symbol
  dsimp only
  split
  · exact .word rfl (List.cons_ne_nil _ _)
  · split
    · exact .word rfl (List.cons_ne_nil _ _)
    · exact fun _ => .invalid (List.cons_ne_nil _ _)

theorem number_kind (bytes : List UInt8) :
    (∃ x, (number bytes).1 = .number x) ∨ (number bytes).1 = .invalid .hexLiteral := by
  unfold number hexNumber decimalNumber
  dsimp only
  split
  · split
    · split
      · exact .inr rfl
      · exact .inl ⟨_, rfl⟩
    · exact .inl ⟨_, rfl⟩
  · exact .inl ⟨_, rfl⟩

theorem worded_number (p : Position) {b : UInt8} {rest : List UInt8} (plain : b ≠ newline) :
    Worded p (number (b :: rest)).1 (b :: rest.take ((number (b :: rest)).2 - 1)) := by
  have unbroken := (within_number (b :: rest)).unbroken_lexeme plain rfl
  obtain ⟨x, kind⟩ | kind := number_kind (b :: rest)
  · rw [kind]
    exact .word rfl (List.cons_ne_nil _ _) unbroken
  · rw [kind]
    exact .invalid (List.cons_ne_nil _ _)

theorem worded_word (p : Position) {b : UInt8} {rest : List UInt8} (plain : b ≠ newline) :
    Worded p (word (b :: rest)).1 (b :: rest.take ((word (b :: rest)).2 - 1)) := by
  refine .word ?_ (List.cons_ne_nil _ _) ((within_word _).unbroken_lexeme plain rfl)
  unfold word
  dsimp only
  split
  · rfl
  · split <;> rfl

theorem worded_string (p : Position) (rest : List UInt8) :
    Worded p (string p (34 :: rest)).1 (34 :: rest.take ((string p (34 :: rest)).2 - 1)) := by
  obtain ⟨positive, -, ⟨parts, kind, inside⟩ | ⟨fault, kind⟩⟩ := string_extent p rest
  · rw [← Nat.succ_pred_eq_of_pos positive, List.take_succ_cons] at inside
    rw [kind]
    exact .string (List.cons_ne_nil _ _) inside
  · rw [kind]
    exact .invalid (List.cons_ne_nil _ _)

theorem lexeme_worded (p : Position) (b : UInt8) (rest : List UInt8) :
    Worded p (lexeme p b rest).1 (lexemeText p b rest) := by
  unfold lexemeText lexeme
  split
  · rename_i line
    rw [line]
    exact .newline
  · rename_i plain
    split
    · rename_i quote
      rw [quote]
      exact worded_string p rest
    · split
      · exact worded_number p plain
      · split
        · exact worded_word p plain
        · exact worded_symbol p plain

theorem lexemeText_append (p : Position) (b : UInt8) (rest : List UInt8) :
    lexemeText p b rest ++ rest.drop ((lexeme p b rest).2 - 1) = b :: rest := by
  rw [lexemeText, List.cons_append, List.take_append_drop]

/-! ### Where a text may be cut -/

theorem not_startsGap_take {b : UInt8} {rest more : List UInt8} (stops : ¬ StartsGap (b :: rest))
    (ends : AtBreak more) (n : Nat) : ¬ StartsGap (b :: (rest.take n ++ more)) := by
  have noMark : more.head? ≠ some 47 ∧ more.head? ≠ some 42 := by
    constructor <;>
      intro mark
    · exact absurd (ends 47 mark) (by decide)
    · exact absurd (ends 42 mark) (by decide)
  rintro (blank | ⟨slash, mark⟩)
  · exact stops (.inl blank)
  · match rest, n with
    | [], n =>
      rw [List.take_nil] at mark
      exact mark.elim noMark.1 noMark.2
    | c :: rest, 0 => exact mark.elim noMark.1 noMark.2
    | c :: rest, n + 1 => exact stops (.inr ⟨slash, mark⟩)

theorem lexeme_inside (p : Position) (b : UInt8) (rest : List UInt8) :
    (lexeme p b rest).2 - 1 ≤ rest.length := by
  have fits {n : Nat} (h : n ≤ (b :: rest).length) : n - 1 ≤ rest.length := Nat.sub_le_of_le_add h
  unfold lexeme
  split
  · exact Nat.zero_le _
  · rename_i plain
    split
    · rename_i quote
      rw [quote]
      exact Nat.sub_le_of_le_add (string_extent p rest).2.1
    · split
      · exact fits (within_number _).inside
      · split
        · exact fits (within_word _).inside
        · exact fits (within_symbol plain rest).inside

/-- Behind a token, the bytes may be cut off, and a break be put there. -/
theorem lexeme_take {p : Position} {b : UInt8} {rest more : List UInt8} {n : Nat}
    (enough : (lexeme p b rest).2 ≤ n + 1) (ends : AtBreak more)
    (valid : ∀ fault, (lexeme p b rest).1 ≠ .invalid fault) :
    lexeme p b (rest.take n ++ more) = lexeme p b rest := by
  unfold lexeme at enough valid ⊢
  split
  · rfl
  · rename_i plain
    rw [if_neg plain] at enough valid
    split
    · rename_i quote
      rw [if_pos quote] at enough valid
      rw [quote] at enough valid ⊢
      exact string_take more enough valid
    · rename_i noQuote
      rw [if_neg noQuote] at enough
      split
      · rename_i digit
        rw [if_pos digit] at enough
        exact number_take ends enough
      · rename_i noDigit
        rw [if_neg noDigit] at enough
        split
        · rename_i letter
          rw [if_pos letter] at enough
          exact word_take ends enough
        · rename_i noLetter
          rw [if_neg noLetter] at enough
          exact symbol_take ends enough

/-- The tokens of the bytes from the place `p` on, one rule for each way the reading goes on. -/
inductive Lexed : Position → List UInt8 → List Token → Prop
  | stop {p gap} : GapText [] gap → Lexed p gap [⟨.endOfInput, .point (p.after gap)⟩]
  | openComment {p text comment} : GapText comment text → OpensComment comment →
    gap .blanks 0 (text ++ comment) = .openComment text.length →
    Lexed p (text ++ comment)
      [⟨.invalid .openComment, ⟨p.after text, (p.after text).after comment⟩⟩,
        ⟨.endOfInput, .point ((p.after text).after comment)⟩]
  | token {p gap b rest ts} : GapText (b :: rest) gap → ¬ StartsGap (b :: rest) →
    Lexed ((p.after gap).after (lexemeText (p.after gap) b rest))
      (rest.drop ((lexeme (p.after gap) b rest).2 - 1)) ts →
    Lexed p (gap ++ b :: rest)
      (⟨(lexeme (p.after gap) b rest).1,
        ⟨p.after gap, (p.after gap).after (lexemeText (p.after gap) b rest)⟩⟩ :: ts)

theorem tokensFrom_stop {p : Position} {text : List UInt8} (h : GapText [] text) :
    tokensFrom p text = [⟨.endOfInput, .point (p.after text)⟩] := by
  have skipped := h.skipped id 0
  rw [List.append_nil, Nat.zero_add] at skipped
  rw [tokensFrom, skipped]
  dsimp only
  split
  · rw [List.take_length]
  · rename_i cut
    rw [List.drop_length] at cut
    cases cut

theorem tokensFrom_token {p : Position} {text : List UInt8} {b : UInt8} {rest : List UInt8}
    (h : GapText (b :: rest) text) (stops : ¬ StartsGap (b :: rest)) :
    tokensFrom p (text ++ b :: rest) =
      ⟨(lexeme (p.after text) b rest).1,
        ⟨p.after text, (p.after text).after (lexemeText (p.after text) b rest)⟩⟩ ::
      tokensFrom ((p.after text).after (lexemeText (p.after text) b rest))
        (rest.drop ((lexeme (p.after text) b rest).2 - 1)) := by
  have skipped := h.skipped stops 0
  rw [Nat.zero_add] at skipped
  rw [tokensFrom, skipped]
  dsimp only
  split
  · rename_i cut
    rw [List.drop_left] at cut
    cases cut
  · rename_i cut
    rw [List.drop_left, List.cons.injEq] at cut
    obtain ⟨rfl, rfl⟩ := cut
    rw [List.take_left]
    rfl

theorem tokensFrom_openComment {p : Position} {text comment : List UInt8}
    (h : gap .blanks 0 (text ++ comment) = .openComment text.length) :
    tokensFrom p (text ++ comment) =
      [⟨.invalid .openComment, ⟨p.after text, (p.after text).after comment⟩⟩,
        ⟨.endOfInput, .point ((p.after text).after comment)⟩] := by
  rw [tokensFrom, h]
  dsimp only
  rw [List.take_left, Position.after_append]

theorem Lexed.eq_tokensFrom {p : Position} {bytes : List UInt8} {ts : List Token}
    (h : Lexed p bytes ts) : tokensFrom p bytes = ts := by
  induction h with
  | stop found => exact tokensFrom_stop found
  | openComment _ _ open_ => exact tokensFrom_openComment open_
  | token found stops _ ih => rw [tokensFrom_token found stops, ih]

theorem tokensFrom_lexed (p : Position) (bytes : List UInt8) :
    Lexed p bytes (tokensFrom p bytes) := by
  induction length : bytes.length using Nat.strongRecOn generalizing p bytes with
  | ind n ih =>
    subst length
    obtain ⟨text, behind, rfl, found, ends⟩ := gap_blanks bytes
    generalize reached : gap .blanks 0 (text ++ behind) = r at ends
    obtain stops | mark := ends
    · match behind with
      | [] =>
        rw [List.append_nil, tokensFrom_stop found]
        exact .stop found
      | b :: rest =>
        rw [tokensFrom_token found stops]
        refine .token found stops (ih _ ?_ _ _ rfl)
        rw [List.length_append, List.length_cons, List.length_drop]
        omega
    · rw [tokensFrom_openComment reached]
      exact .openComment found mark reached

/-- A token is the end of input, a comment that nothing closes, or the token of the bytes behind its
start. -/
theorem Lexed.token_cases {p : Position} {bytes : List UInt8} {ts : List Token} {t : Token}
    (h : Lexed p bytes ts) (there : t ∈ ts) :
    t = ⟨.endOfInput, .point (p.after bytes)⟩ ∨
      (∃ before comment, bytes = before ++ comment ∧ OpensComment comment ∧
        t = ⟨.invalid .openComment, ⟨p.after before, (p.after before).after comment⟩⟩) ∨
      ∃ before b rest, bytes = before ++ b :: rest ∧ ¬ StartsGap (b :: rest) ∧
        t = ⟨(lexeme (p.after before) b rest).1,
          ⟨p.after before, (p.after before).after (lexemeText (p.after before) b rest)⟩⟩ := by
  induction h with
  | stop => exact .inl (List.mem_singleton.mp there)
  | @openComment p text comment _ mark _ =>
    obtain ⟨⟩ | ⟨_, there⟩ := there
    · exact .inr (.inl ⟨text, comment, rfl, mark, rfl⟩)
    · rw [List.mem_singleton.mp there, Position.after_append]
      exact .inl rfl
  | @token p gap b rest ts _ stops _ ih =>
    have bytes := lexemeText_append (p.after gap) b rest
    obtain ⟨⟩ | ⟨_, there⟩ := there
    · exact .inr (.inr ⟨gap, b, rest, rfl, stops, rfl⟩)
    · obtain last | ⟨before, comment, cut, mark, same⟩ | ⟨before, c, more, cut, stops', same⟩ :=
        ih there
      · rw [last, ← Position.after_append, bytes, ← Position.after_append]
        exact .inl rfl
      · refine .inr (.inl
          ⟨gap ++ (lexemeText (p.after gap) b rest ++ before), comment, ?_, mark, ?_⟩)
        · rw [← bytes, cut]
          simp
        · rw [same]
          simp
      · refine .inr (.inr
          ⟨gap ++ (lexemeText (p.after gap) b rest ++ before), c, more, ?_, stops', ?_⟩)
        · rw [← bytes, cut]
          simp
        · rw [same]
          simp

theorem Lexed.cut {p : Position} {bytes : List UInt8} {ts : List Token} (h : Lexed p bytes ts) :
    Cut p bytes ts := by
  induction h with
  | stop found => exact .stop found
  | @openComment p text comment found mark _ =>
    have some_ : comment ≠ [] := by
      obtain ⟨rest, rfl⟩ := mark
      exact List.cons_ne_nil _ _
    have last : Cut ((p.after text).after comment) []
        [⟨.endOfInput, .point ((p.after text).after comment)⟩] := .stop .nil
    have worded : Worded (p.after text) (.invalid .openComment) comment := .invalid some_
    have token := Cut.token (by rwa [List.append_nil]) worded last
    rwa [List.append_nil] at token
  | @token p gap b rest ts found _ _ ih =>
    have bytes := lexemeText_append (p.after gap) b rest
    rw [← bytes] at found ⊢
    exact .token found (lexeme_worded _ _ _) ih

/-- The tokens of every text are a cut of it. -/
theorem tokensFrom_cut (p : Position) (bytes : List UInt8) : Cut p bytes (tokensFrom p bytes) :=
  (tokensFrom_lexed p bytes).cut

/-! ### One text on the lines after another -/

/-- A gap can stand in front of any bytes that start as these do, or with a newline. -/
theorem GapText.infront {behind behind' : List UInt8} (h : GapText behind text)
    (same : ∀ b ∈ behind'.head?, b = newline ∨ b ∈ behind.head?) : GapText behind' text := by
  induction h with
  | nil => exact .nil
  | blank blank _ ih => exact .blank blank ih
  | @lineComment text rest unbroken lineEnd found ih =>
    cases found.lineEnd_nil lineEnd
    refine .lineComment unbroken (fun b there => ?_) .nil
    obtain line | there := same b there
    · exact line
    · exact lineEnd b there
  | blockComment comment _ ih => exact .blockComment comment ih

/-- The tokens of two texts, one on the lines after the other. A newline ends every token but
strings and faults. -/
theorem Lexed.lines (h : Lexed p bytes ts) (valid : ∀ t ∈ ts, ∀ fault, t.kind ≠ .invalid fault)
    (more : List UInt8) :
    tokensFrom p (bytes ++ newline :: more) = ts.dropLast ++
      ⟨.newline, ⟨p.after bytes, (p.after bytes).step newline⟩⟩ ::
        tokensFrom ((p.after bytes).step newline) more := by
  induction h with
  | @stop p gap found =>
    have line : GapText (newline :: more) gap := found.infront fun b there =>
      .inl (Option.some.inj there).symm
    rw [tokensFrom_token line (by simp [StartsGap, newline])]
    rfl
  | openComment => exact absurd rfl (valid _ List.mem_cons_self _)
  | @token p gap b rest ts found stops after ih =>
    rw [List.forall_mem_cons] at valid
    obtain ⟨own, others⟩ := valid
    have line : GapText (b :: (rest ++ newline :: more)) gap := found.infront fun b there =>
      .inr there
    have inside := lexeme_inside (p.after gap) b rest
    have ends : AtBreak (newline :: more) := .newline more
    have same : lexeme (p.after gap) b (rest ++ newline :: more) = lexeme (p.after gap) b rest := by
      have cut :=
        @lexeme_take (p.after gap) b rest (newline :: more) rest.length (by omega) ends own
      rwa [List.take_length] at cut
    have lineStops : ¬ StartsGap (b :: (rest ++ newline :: more)) := by
      have cut := not_startsGap_take stops ends rest.length
      rwa [List.take_length] at cut
    have texts : lexemeText (p.after gap) b (rest ++ newline :: more) =
        lexemeText (p.after gap) b rest := by
      rw [lexemeText, lexemeText, same, List.take_append_of_le_length inside]
    rw [List.append_assoc, List.cons_append, tokensFrom_token line lineStops, texts, same,
      List.drop_append_of_le_length inside, ih others]
    have some_ : ts ≠ [] := by
      obtain ⟨before, rfl, -⟩ := after.cut.ends
      simp
    have place : ((p.after gap).after (lexemeText (p.after gap) b rest)).after
        (rest.drop ((lexeme (p.after gap) b rest).2 - 1)) = p.after (gap ++ b :: rest) := by
      rw [← Position.after_append, lexemeText_append, ← Position.after_append]
    rw [place, List.dropLast_cons_of_ne_nil some_, List.cons_append]

end ScriptHost
