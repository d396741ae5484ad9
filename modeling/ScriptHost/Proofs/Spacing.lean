import Mathlib.Data.List.Forall2
import ScriptHost.Proofs.Encoding
import ScriptHost.Proofs.Lexing.Displaced

/-! Tokens and the blanks between them. A token is cut off in the same way whatever blank follows
it, so that the texts of the tokens of a script, with other blanks and comments between them, have
the same tokens, but for their places. -/

namespace ScriptHost

/-! ### Kinds without places -/

def StringPart.unplaced : StringPart → StringPart
  | literal text => .literal text
  | code source _ => .code source .origin

/-- What a token is, without the places of interpolated expressions. -/
def TokenKind.unplaced : TokenKind → TokenKind
  | string parts => .string (parts.map StringPart.unplaced)
  | kind => kind

theorem TokenKind.unplaced_rebase (base : Position) (kind : TokenKind) :
    (kind.rebase base).unplaced = kind.unplaced := by
  cases kind with
  | string parts =>
    rw [TokenKind.rebase, TokenKind.unplaced, TokenKind.unplaced, List.map_map]
    congr 1
    refine List.map_congr_left fun part _ => ?_
    cases part <;> rfl
  | _ => rfl

/-- The place of a token shows only in its interpolated expressions. -/
theorem lexeme_unplaced (p q : Position) (b : UInt8) (rest : List UInt8) :
    (lexeme p b rest).1.unplaced = (lexeme q b rest).1.unplaced ∧
      (lexeme p b rest).2 = (lexeme q b rest).2 := by
  have fromOrigin (p : Position) :
      (lexeme p b rest).1.unplaced = (lexeme .origin b rest).1.unplaced ∧
        (lexeme p b rest).2 = (lexeme .origin b rest).2 := by
    have moved := lexeme_rebase Position.proper_origin p b rest
    have here : p.rebase .origin = p := by simp [Position.rebase, Position.origin]
    rw [here] at moved
    rw [moved]
    exact ⟨TokenKind.unplaced_rebase _ _, rfl⟩
  exact ⟨(fromOrigin p).1.trans (fromOrigin q).1.symm, (fromOrigin p).2.trans (fromOrigin q).2.symm⟩

theorem TokenKind.unplaced_eq_invalid {kind : TokenKind} {fault : LexicalFault} :
    kind.unplaced = .invalid fault ↔ kind = .invalid fault := by
  cases kind <;> simp [TokenKind.unplaced]

/-! ### The texts of tokens -/

/-- The bytes that a token covers. -/
def Token.bytesIn (bytes : List UInt8) (t : Token) : List UInt8 :=
  (bytes.drop t.span.start.offset).take (t.span.stop.offset - t.span.start.offset)

/-- The text that a token covers. -/
def Token.textIn (source : String) (t : Token) : String :=
  Utf8.textOf (t.bytesIn (Utf8.encode source))

/-- The tokens of a script, but for the end of input. -/
def wordTokens (source : String) : List Token := (tokens source).filter (!·.kind.isEnd)

/-! ### Separators -/

/-- Blanks and closed block comments. -/
inductive Spacing : List UInt8 → Prop
  | nil : Spacing []
  | blank {b rest} : b = 32 ∨ b = 9 ∨ b = 13 → Spacing rest → Spacing (b :: rest)
  | comment {tail rest} : CommentTail tail → Spacing rest → Spacing (47 :: 42 :: (tail ++ rest))

/-- What can stand between two tokens on a line: a blank, and more blanks and closed comments. -/
structure Separator (s : String) : Prop where
  starts : startsWith (fun b => b == 32 || b == 9) (Utf8.encode s)
  spacing : Spacing (Utf8.encode s)

/-- `Joined texts s`: `s` is made of the texts, in order, with separators between them. One more may
stand at the end. -/
inductive Joined : List String → String → Prop
  | nil : Joined [] ""
  | last {t} : Joined [t] t
  | cons {t s ts rest} : Separator s → Joined ts rest → Joined (t :: ts) (t ++ (s ++ rest))

theorem Spacing.gapText {text : List UInt8} (h : Spacing text) (behind : List UInt8) :
    GapText behind text := by
  induction h with
  | nil => exact .nil
  | blank blank _ ih => exact .blank blank ih
  | comment comment _ ih => exact .blockComment comment ih

theorem Separator.atBreak {s : String} (h : Separator s) (more : List UInt8) :
    AtBreak (Utf8.encode s ++ more) := by
  have starts := h.starts
  generalize Utf8.encode s = bytes at starts
  cases bytes with
  | nil => cases starts
  | cons b rest =>
    rintro b ⟨⟩
    rw [isBreak, Bool.or_eq_true]
    exact .inl starts

/-! ### Texts that stand for themselves -/

/-- In front of a break, a text is one token of a kind, but for places. -/
def Stands (kind : TokenKind) (text : List UInt8) : Prop :=
  ∃ b rest, text = b :: rest ∧ ∀ more, AtBreak more → ¬ StartsGap (b :: (rest ++ more)) ∧
    ∀ p, (lexeme p b (rest ++ more)).1.unplaced = kind.unplaced ∧
      (lexeme p b (rest ++ more)).2 - 1 = rest.length

variable {kind : TokenKind} {text : List UInt8}

/-- The token is cut off behind any spacing. -/
theorem Stands.tokensFrom (h : Stands kind text) {gap more : List UInt8} (spacing : Spacing gap)
    (ends : AtBreak more) (p : Position) :
    ∃ q, (tokensFrom p (gap ++ (text ++ more))).map (·.kind.unplaced) =
      kind.unplaced :: (ScriptHost.tokensFrom q more).map (·.kind.unplaced) := by
  obtain ⟨b, rest, rfl, read⟩ := h
  obtain ⟨stops, lexed⟩ := read more ends
  obtain ⟨same, length⟩ := lexed (p.after gap)
  rw [List.cons_append, tokensFrom_token (spacing.gapText _) stops, List.map_cons, same, length,
    List.drop_left]
  exact ⟨_, rfl⟩

/-- Texts that stand for themselves, joined, have their tokens. -/
theorem Joined.tokensFrom {ts : List String} {s : String} (joined : Joined ts s)
    {kinds : List TokenKind}
    (stand : List.Forall₂ (fun t kind => Stands kind (Utf8.encode t)) ts kinds) {gap : List UInt8}
    (spacing : Spacing gap) (p : Position) :
    (tokensFrom p (gap ++ Utf8.encode s)).map (·.kind.unplaced) =
      kinds.map TokenKind.unplaced ++ [.endOfInput] := by
  induction joined generalizing kinds gap p with
  | nil =>
    cases stand
    have none : Utf8.encode "" = [] := rfl
    rw [none, List.append_nil, tokensFrom_stop (spacing.gapText [])]
    rfl
  | last =>
    obtain ⟨⟩ | ⟨here, ⟨⟩⟩ := stand
    obtain ⟨q, cut⟩ := here.tokensFrom spacing .nil p
    rw [List.append_nil] at cut
    rw [cut, tokensFrom_stop .nil]
    rfl
  | cons separator _ ih =>
    obtain ⟨⟩ | ⟨here, others⟩ := stand
    rw [Utf8.encode_append, Utf8.encode_append]
    obtain ⟨q, cut⟩ := here.tokensFrom spacing (separator.atBreak _) p
    rw [cut, ih others separator.spacing]
    rfl

/-! ### The tokens of a script -/

theorem lexeme_stands (p : Position) {b : UInt8} {rest : List UInt8}
    (stops : ¬ StartsGap (b :: rest)) (valid : ∀ fault, (lexeme p b rest).1 ≠ .invalid fault) :
    Stands (lexeme p b rest).1 (lexemeText p b rest) := by
  refine ⟨b, _, rfl, fun more ends => ⟨not_startsGap_take stops ends _, fun q => ?_⟩⟩
  obtain ⟨same, length⟩ := lexeme_unplaced q p b rest
  have cut : lexeme q b (rest.take ((lexeme p b rest).2 - 1) ++ more) = lexeme q b rest := by
    refine lexeme_take (by omega) ends fun fault invalid => valid fault ?_
    rw [← TokenKind.unplaced_eq_invalid, ← same, invalid]
    rfl
  have inside := lexeme_inside p b rest
  rw [cut, List.length_take, Nat.min_eq_left inside]
  exact ⟨same, congrArg (· - 1) length⟩

/-! ### Tokens are texts -/

/-- The first and the last byte are ASCII ones. -/
structure AsciiEnds (text : List UInt8) : Prop where
  first : ∀ b ∈ text.head?, b.toNat < 128
  last : ∀ b ∈ text.getLast?, b.toNat < 128

theorem AsciiEnds.of_all {text : List UInt8} (all : ∀ b ∈ text, b.toNat < 128) : AsciiEnds text :=
  ⟨fun b there => all b (List.mem_of_mem_head? there),
    fun b there => all b (List.mem_of_mem_getLast? there)⟩

theorem ascii_of_isWordByte {b : UInt8} (h : isWordByte b) : b.toNat < 128 := by
  simp only [isWordByte, isNameByte, isLetter, isDigit, underscore, Bool.or_eq_true,
    Bool.and_eq_true, decide_eq_true_eq, beq_iff_eq, UInt8.le_iff_toNat_le, List.contains_eq_mem,
    List.mem_cons, List.not_mem_nil, or_false] at h
  obtain (((⟨-, le⟩ | ⟨-, le⟩) | ⟨-, le⟩) | rfl) | rfl | rfl | rfl := h <;>
    first
    | decide
    | exact Nat.lt_of_le_of_lt le (by decide)

theorem Within.asciiEnds {b : UInt8} {rest : List UInt8} {n : Nat}
    (h : Within isWordByte (b :: rest) n) (own : isWordByte b) :
    AsciiEnds (b :: rest.take (n - 1)) := by
  refine .of_all fun c there => ascii_of_isWordByte ?_
  obtain _ | n := n
  · rw [List.take_zero, List.mem_singleton] at there
    exact there ▸ own
  · exact h.all c there

theorem symbol?_ascii {b : UInt8} {s : Symbol} (h : symbol? b = some s) : b.toNat < 128 := by
  unfold symbol? at h
  split at h <;> first | omega | cases h

theorem symbolPair?_ascii {b c : UInt8} {s : Symbol} (h : symbolPair? b c = some s) :
    b.toNat < 128 ∧ c.toNat < 128 := by
  unfold symbolPair? at h
  split at h <;> first | omega | cases h

theorem symbol_asciiEnds {b : UInt8} {rest : List UInt8}
    (valid : ∀ fault, (symbol (b :: rest)).1 ≠ .invalid fault) :
    AsciiEnds (b :: rest.take ((symbol (b :: rest)).2 - 1)) := by
  revert valid
  unfold symbol
  dsimp only
  split
  · rename_i s pair
    intro _
    match rest with
    | [] => cases pair
    | c :: rest =>
      obtain ⟨first, second⟩ := symbolPair?_ascii pair
      exact .of_all (List.forall_mem_cons.mpr ⟨first, List.forall_mem_singleton.mpr second⟩)
  · split
    · rename_i s single
      exact fun _ => .of_all (List.forall_mem_singleton.mpr (symbol?_ascii single))
    · exact fun valid => absurd rfl (valid _)

theorem string_asciiEnds {p : Position} {rest : List UInt8}
    (closed : ∀ fault, (string p (34 :: rest)).1 ≠ .invalid fault) :
    AsciiEnds (34 :: rest.take ((string p (34 :: rest)).2 - 1)) := by
  have scans := stringParts_scans (.literal []) 1 [] rest
  unfold string at closed ⊢
  rw [List.tail_cons] at closed ⊢
  cases read : stringParts (.literal []) 1 [] rest with
  | mk r m =>
    rw [read] at closed scans
    cases r with
    | error fault => exact absurd rfl (closed fault)
    | ok raws =>
      obtain ⟨front, behind, rfl, rfl, -⟩ := scans.cut
      have whole : (front ++ 34 :: behind).take (1 + front.length + 1 - 1) = front ++ [34] := by
        rw [List.append_cons]
        exact List.take_left' (by simp [Nat.add_comm])
      dsimp only
      rw [whole]
      refine ⟨?_, ?_⟩
      · rintro b ⟨⟩
        decide
      · intro b there
        rw [← List.cons_append, List.getLast?_concat] at there
        cases there
        decide

theorem lexeme_asciiEnds {p : Position} {b : UInt8} {rest : List UInt8}
    (valid : ∀ fault, (lexeme p b rest).1 ≠ .invalid fault) :
    AsciiEnds (lexemeText p b rest) := by
  unfold lexemeText lexeme at *
  split
  · rename_i line
    rw [line]
    exact .of_all (List.forall_mem_singleton.mpr (by decide))
  · rename_i plain
    rw [if_neg plain] at valid
    split
    · rename_i quote
      rw [if_pos quote] at valid
      rw [quote] at valid ⊢
      exact string_asciiEnds valid
    · rename_i noQuote
      rw [if_neg noQuote] at valid
      split
      · rename_i digit
        exact (within_number _).asciiEnds (isWordByte_of_isDigit digit)
      · rename_i noDigit
        rw [if_neg noDigit] at valid
        split
        · rename_i letter
          exact (within_word _).asciiEnds
            (isWordByte_of_isNameByte (isNameByte_of_isNameStart letter))
        · rename_i noLetter
          rw [if_neg noLetter] at valid
          exact symbol_asciiEnds valid

/-! ### Joining the tokens of a script -/

/-- The text of a token stands for it. -/
theorem textIn_stands {source : String} {t : Token} (there : t ∈ tokens source)
    (valid : t.kind.isInvalid = false) (inside : t.kind.isEnd = false) :
    Stands t.kind (Utf8.encode (t.textIn source)) := by
  obtain rfl | ⟨_, _, _, _, rfl⟩ | ⟨before, b, rest, whole, stops, same⟩ :=
    (tokensFrom_lexed .origin (Utf8.encode source)).token_cases there
  · cases inside
  · cases valid
  · have kind := congrArg Token.kind same
    have place := congrArg Token.span same
    dsimp only at kind place
    rw [kind] at valid ⊢
    have fault : ∀ fault, (lexeme (Position.origin.after before) b rest).1 ≠ .invalid fault := by
      intro fault invalid
      rw [invalid] at valid
      cases valid
    rw [← lexemeText_append (Position.origin.after before) b rest] at whole
    have bytes : t.bytesIn (Utf8.encode source) =
        lexemeText (Position.origin.after before) b rest := by
      rw [Token.bytesIn, place, whole]
      simp [Position.origin]
    have ends := lexeme_asciiEnds fault
    obtain ⟨text, read⟩ := Utf8.exists_encode_eq whole ends.first ends.last
    rw [Token.textIn, bytes, ← read, Utf8.textOf_encode, read]
    exact lexeme_stands _ stops fault

/-- The texts of the tokens of a script, joined by separators, have the tokens of the script, but
for their places; and the text of each token alone has this token. -/
theorem tokens_of_joined {source s : String}
    (valid : ∀ t ∈ tokens source, t.kind.isInvalid = false)
    (joined : Joined ((wordTokens source).map (Token.textIn source)) s) :
    (tokens s).map (·.kind.unplaced) = (tokens source).map (·.kind.unplaced) ∧
      ∀ t ∈ wordTokens source, (tokens (t.textIn source)).map (·.kind.unplaced) =
        [t.kind.unplaced, .endOfInput] := by
  have stand : ∀ t ∈ wordTokens source, Stands t.kind (Utf8.encode (t.textIn source)) := by
    intro t there
    obtain ⟨there, inside⟩ := List.mem_filter.mp there
    exact textIn_stands there (valid t there) (by simpa using inside)
  refine ⟨?_, fun t there => ?_⟩
  · have all : List.Forall₂ (fun t kind => Stands kind (Utf8.encode t))
        ((wordTokens source).map (Token.textIn source)) ((wordTokens source).map Token.kind) := by
      rw [List.forall₂_map_left_iff, List.forall₂_map_right_iff, List.forall₂_same]
      exact stand
    have read := joined.tokensFrom all .nil .origin
    obtain ⟨others, whole, inside⟩ := (tokensFrom_cut .origin (Utf8.encode source)).ends
    have words : wordTokens source = others := by
      rw [wordTokens, tokens, whole, List.filter_append, List.filter_eq_self.mpr]
      · simp [TokenKind.isEnd]
      · intro t there
        rw [(inside t there).1]
        rfl
    rw [List.nil_append] at read
    rw [tokens, read, words, tokens, whole, List.map_append, List.map_map]
    rfl
  · have alone := Joined.last.tokensFrom (.cons (stand t there) .nil) .nil .origin
    rw [List.nil_append] at alone
    exact alone

/-- A division stays one when a blank and a comment stand around its mark. -/
theorem tokens_of_joined_division :
    (∀ t ∈ tokens "a/b", t.kind.isInvalid = false) ∧
      Joined ((wordTokens "a/b").map (Token.textIn "a/b")) "a\t/ /*/*c*/*/b" ∧
      (tokens "a\t/ /*/*c*/*/b").map (·.kind.unplaced) =
        (tokens "a/b").map (·.kind.unplaced) := by
  have valid : ∀ t ∈ tokens "a/b", t.kind.isInvalid = false := by decide +kernel
  have texts : (wordTokens "a/b").map (Token.textIn "a/b") = ["a", "/", "b"] := by decide +kernel
  have tab : Separator "\t" := ⟨rfl, .blank (.inr (.inl rfl)) .nil⟩
  have inner : CommentTail [99, 42, 47] := .byte (by decide) (by decide) .close
  have outer : CommentTail [47, 42, 99, 42, 47, 42, 47] := .comment inner .close
  have comment : Separator " /*/*c*/*/" := ⟨rfl, .blank (.inl rfl) (.comment outer .nil)⟩
  have joined : Joined ["a", "/", "b"] "a\t/ /*/*c*/*/b" := .cons tab (.cons comment .last)
  rw [← texts] at joined
  exact ⟨valid, joined, (tokens_of_joined valid joined).1⟩

end ScriptHost
