import ScriptHost.Proofs.Lexing.Cut
import ScriptHost.Proofs.Lexing.Strings
import ScriptHost.Proofs.Quoting
import ScriptHost.Proofs.Rendering.Numbers

/-! How words are spelled. A word that is not run together with what follows it is cut off as one
token, so that a text gives the tokens of its words. -/

namespace ScriptHost

-- Powers are those of the core library, whatever else is in scope.
attribute [local instance (high)] instPowNat

theorem gapText_blanks {behind blanks : List UInt8} (blank : ∀ b ∈ blanks, b = 32) :
    GapText behind blanks := by
  induction blanks with
  | nil => exact .nil
  | cons b blanks ih =>
    rw [List.forall_mem_cons] at blank
    exact .blank (.inl blank.1) (ih blank.2)

/-- Some bytes are one token in front of others, wherever they stand. -/
structure Spells (behind bytes : List UInt8) (kind : TokenKind) : Prop where
  stops : ¬ StartsGap (bytes ++ behind)
  lexed : ∃ b rest, bytes = b :: rest ∧
    ∀ p, lexeme p b (rest ++ behind) = (kind, rest.length + 1)

/-- The token is cut off behind any blanks. -/
theorem Spells.tokensFrom {behind bytes blanks : List UInt8} {kind : TokenKind}
    (h : Spells behind bytes kind) (blank : ∀ b ∈ blanks, b = 32) (p : Position) :
    ∃ q, (tokensFrom p (blanks ++ (bytes ++ behind))).map Token.kind =
      kind :: (ScriptHost.tokensFrom q behind).map Token.kind := by
  obtain ⟨stops, b, rest, rfl, lexed⟩ := h
  have lexed := lexed (p.after blanks)
  rw [List.cons_append] at stops ⊢
  rw [tokensFrom_token (gapText_blanks blank) stops, lexed, List.map_cons, Nat.add_sub_cancel,
    List.drop_left]
  exact ⟨_, rfl⟩

/-! ### Numbers and words -/

theorem not_startsGap {b : UInt8} {rest : List UInt8} (plain : isNameByte b ∨ b = 34) :
    ¬ StartsGap (b :: rest) := by
  rintro ((rfl | rfl | rfl) | ⟨rfl, -⟩) <;> exact absurd plain (by decide)

theorem isDigit_plain {b : UInt8} (digit : isDigit b) :
    b ≠ Position.newline ∧ b ≠ 34 ∧ isNameByte b := by
  refine ⟨?_, ?_, ?_⟩
  · rintro rfl
    exact absurd digit (by decide)
  · rintro rfl
    exact absurd digit (by decide)
  · simp [isNameByte, digit]

theorem Spells.number {n : Nat} {behind : List UInt8} (small : n < 2 ^ (53 : Nat))
    (ends : startsWith isNameByte behind = false) (point : fractionDigits behind = []) :
    Spells behind (digitBytes n) (.number (Binary.exactly n).toFloat) := by
  have digits : ∀ b ∈ digitBytes n, isDigit b := fun _ there => isDigit_of_mem_digitBytes there
  have whole := number_digitBytes small ends point
  have nonempty := digitBytes_ne_nil n
  generalize digitBytes n = bytes at digits whole nonempty ⊢
  obtain ⟨d, ds, rfl⟩ := List.exists_cons_of_ne_nil nonempty
  have digit := digits d List.mem_cons_self
  obtain ⟨noNewline, noQuote, inName⟩ := isDigit_plain digit
  refine ⟨not_startsGap (.inl inName), d, ds, rfl, fun p => ?_⟩
  rw [ScriptHost.lexeme, if_neg noNewline, if_neg noQuote, if_pos digit]
  exact whole

theorem takeWhile_isNameByte {bytes behind : List UInt8} (letters : bytes.all isNameByte)
    (ends : startsWith isNameByte behind = false) :
    (bytes ++ behind).takeWhile isNameByte = bytes := by
  rw [List.takeWhile_append_of_pos (List.all_eq_true.mp letters)]
  cases behind with
  | nil => simp
  | cons b rest =>
    have other : isNameByte b = false := ends
    rw [List.takeWhile_cons_of_neg (by simp [other]), List.append_nil]

/-- What a whole word is. -/
def wordKind (text : String) : TokenKind :=
  if startsWith (· == underscore) (Utf8.encode text) then .field text
  else match Keyword.ofText? text with
    | some k => .keyword k
    | none => .name text

theorem isDigit_eq_false_of_isNameStart {b : UInt8} (start : isNameStart b) :
    isDigit b = false := by
  simp only [isNameStart, isLetter, underscore, Bool.or_eq_true, Bool.and_eq_true,
    decide_eq_true_eq, beq_iff_eq, UInt8.le_iff_toNat_le] at start
  simp only [isDigit, Bool.and_eq_false_iff, decide_eq_false_iff_not, UInt8.le_iff_toNat_le]
  rcases start with (⟨low, -⟩ | ⟨low, -⟩) | rfl
  · right
    change 97 ≤ _ at low
    change ¬ _ ≤ 57
    omega
  · right
    change 65 ≤ _ at low
    change ¬ _ ≤ 57
    omega
  · decide

theorem isNameStart_plain {b : UInt8} (start : isNameStart b) :
    b ≠ Position.newline ∧ b ≠ 34 ∧ isNameByte b := by
  refine ⟨?_, ?_, ?_⟩
  · rintro rfl
    exact absurd start (by decide)
  · rintro rfl
    exact absurd start (by decide)
  · exact isNameByte_of_isNameStart start

/-- A word is spelled by its letters. -/
theorem Spells.word {text : String} {behind : List UInt8}
    (starts : startsWith isNameStart (Utf8.encode text))
    (letters : (Utf8.encode text).all isNameByte) (ends : startsWith isNameByte behind = false) :
    Spells behind (Utf8.encode text) (wordKind text) := by
  have cut := takeWhile_isNameByte letters ends
  have back := Utf8.textOf_encode text
  unfold wordKind
  generalize Utf8.encode text = bytes at starts letters cut back ⊢
  cases bytes with
  | nil => cases starts
  | cons b bytes =>
    have start : isNameStart b := starts
    obtain ⟨noNewline, noQuote, inName⟩ := isNameStart_plain start
    have noDigit := isDigit_eq_false_of_isNameStart start
    refine ⟨not_startsGap (.inl inName), b, bytes, rfl, fun p => ?_⟩
    rw [ScriptHost.lexeme, if_neg noNewline, if_neg noQuote, noDigit, if_neg Bool.false_ne_true,
      if_pos start, ScriptHost.word]
    rw [List.cons_append] at cut
    rw [cut, back]
    rfl

/-! ### Symbols -/

/-- A byte that makes a symbol in front of it longer, or a comment out of it. -/
def isJoining (b : UInt8) : Bool := [61, 38, 124, 47, 42].contains b

theorem symbolPair?_none {b c : UInt8} (apart : isJoining c = false) : symbolPair? b c = none := by
  have other : ∀ n : UInt8, isJoining n → c.toNat ≠ n.toNat := by
    intro n joining same
    rw [UInt8.toNat_inj.mp same, joining] at apart
    cases apart
  have equals : c.toNat ≠ 61 := other 61 rfl
  have ampersand : c.toNat ≠ 38 := other 38 rfl
  have bar : c.toNat ≠ 124 := other 124 rfl
  unfold symbolPair?
  split <;> first | rfl | contradiction

/-- A byte that starts neither a newline, a string, a number nor a word, and is no blank. -/
def isMark (b : UInt8) : Bool :=
  b != Position.newline && b != 34 && !isDigit b && !isNameStart b && !([32, 9, 13].contains b)

theorem Symbol.bytes_cases (s : Symbol) :
    (∃ b, Utf8.encode s.text = [b] ∧ isMark b ∧ symbol? b = some s) ∨
      ∃ b c, Utf8.encode s.text = [b, c] ∧ isMark b ∧ b ≠ 47 ∧ symbolPair? b c = some s := by
  obtain _ | _ | _ | _ | _ | _ | _ | _ | _ | _ | _ | _ | op := s
  case binary =>
    cases op <;>
      first
      | exact .inl ⟨_, rfl, rfl, rfl⟩
      | exact .inr ⟨_, _, rfl, rfl, by decide, rfl⟩
  all_goals
    first
    | exact .inl ⟨_, rfl, rfl, rfl⟩
    | exact .inr ⟨_, _, rfl, rfl, by decide, rfl⟩

theorem lexeme_of_isMark {b : UInt8} (mark : isMark b) (p : Position) (rest : List UInt8) :
    lexeme p b rest = symbol (b :: rest) := by
  simp only [isMark, Bool.and_eq_true, bne_iff_ne, Bool.not_eq_true'] at mark
  obtain ⟨⟨⟨⟨noNewline, noQuote⟩, noDigit⟩, noName⟩, -⟩ := mark
  simp [lexeme, noNewline, noQuote, noDigit, noName]

theorem not_startsGap_of_isMark {b : UInt8} {rest : List UInt8} (mark : isMark b)
    (apart : b ≠ 47 ∨ startsWith isJoining rest = false) : ¬ StartsGap (b :: rest) := by
  rintro ((rfl | rfl | rfl) | ⟨rfl, joins⟩)
  · exact absurd mark (by decide)
  · exact absurd mark (by decide)
  · exact absurd mark (by decide)
  · rcases apart with other | apart
    · exact other rfl
    · cases rest with
      | nil => simp at joins
      | cons c rest =>
        rw [List.head?_cons, Option.some.injEq, Option.some.injEq] at joins
        rcases joins with rfl | rfl <;> cases apart

/-- A symbol is spelled by its bytes where no comment or longer symbol comes about. -/
theorem Spells.symbol (s : Symbol) {behind : List UInt8}
    (apart : startsWith isJoining behind = false) :
    Spells behind (Utf8.encode s.text) (.symbol s) := by
  rcases s.bytes_cases with ⟨b, bytes, mark, single⟩ | ⟨b, c, bytes, mark, noSlash, pair⟩
  · have alone : behind.head?.bind (symbolPair? b) = none := by
      cases behind with
      | nil => rfl
      | cons c rest => exact symbolPair?_none apart
    rw [bytes]
    refine ⟨not_startsGap_of_isMark mark (.inr apart), b, [], rfl, fun p => ?_⟩
    rw [lexeme_of_isMark mark, List.nil_append, ScriptHost.symbol, alone]
    simp only [single, List.length_nil]
  · rw [bytes]
    refine ⟨not_startsGap_of_isMark mark (.inl noSlash), b, [c], rfl, fun p => ?_⟩
    rw [lexeme_of_isMark mark, List.singleton_append, ScriptHost.symbol, List.head?_cons,
      Option.bind_some, pair]
    rfl

/-! ### Strings -/

theorem Spells.string (text : String) {behind : List UInt8} :
    Spells behind (Utf8.encode (Word.string text).text) (.string [.literal text]) := by
  have bytes : Utf8.encode (Word.string text).text =
      34 :: ((text.toList.flatMap writtenChar).flatMap String.utf8EncodeChar ++ [34]) :=
    encode_literalText _
  have length := congrArg List.length (encode_literalText (text.toList.flatMap writtenChar))
  rw [bytes]
  refine ⟨not_startsGap (.inr rfl), 34, _, rfl, fun p => ?_⟩
  rw [(quotes_written text.toList).lexeme p behind, length]
  rfl

/-! ### Words in a row -/

namespace Word

def bytes (w : Word) : List UInt8 := Utf8.encode w.text

/-- The token of a word. -/
def kind? : Word → Option TokenKind
  | blank => none
  | number n => some (.number (Binary.exactly n).toFloat)
  | string text => some (.string [.literal text])
  | name x => some (.name x.text)
  | field x => some (.field x.text)
  | keyword k => some (.keyword k)
  | symbol s => some (.symbol s)

/-- Whether a word is not run together with the bytes behind it. -/
def Apart (behind : List UInt8) : Word → Prop
  | blank | string _ => True
  | symbol _ => startsWith isJoining behind = false
  | number n => n < 2 ^ (53 : Nat) ∧ startsWith isNameByte behind = false ∧
    fractionDigits behind = []
  | name _ | field _ | keyword _ => startsWith isNameByte behind = false

end Word

/-- The kinds of the tokens of some words. -/
def kindsOf (ws : List Word) : List TokenKind := ws.filterMap Word.kind?

@[simp] theorem kindsOf_nil : kindsOf [] = [] := rfl

@[simp] theorem kindsOf_blank (ws : List Word) : kindsOf (.blank :: ws) = kindsOf ws := rfl

@[simp] theorem kindsOf_name (x : Identifier) (ws : List Word) :
    kindsOf (.name x :: ws) = .name x.text :: kindsOf ws := rfl

@[simp] theorem kindsOf_symbol (s : Symbol) (ws : List Word) :
    kindsOf (.symbol s :: ws) = .symbol s :: kindsOf ws := rfl

@[simp] theorem kindsOf_append (ws vs : List Word) :
    kindsOf (ws ++ vs) = kindsOf ws ++ kindsOf vs :=
  List.filterMap_append

/-- Words none of which is run together with what follows it. -/
def Spaced : List Word → Prop
  | [] => True
  | w :: ws => w.Apart (ws.flatMap Word.bytes) ∧ Spaced ws

theorem encode_written (ws : List Word) : Utf8.encode (written ws) = ws.flatMap Word.bytes := by
  induction ws with
  | nil => rfl
  | cons w ws ih => rw [written, Utf8.encode_append, ih, List.flatMap_cons, Word.bytes]

theorem Keyword.starts (k : Keyword) : startsWith isNameStart (Utf8.encode k.text) := by
  cases k <;> rfl

theorem Keyword.letters (k : Keyword) : (Utf8.encode k.text).all isNameByte := by
  cases k <;> rfl

theorem Keyword.wordKind_text (k : Keyword) : wordKind k.text = .keyword k := by
  cases k <;> rfl

theorem startsWith_mono {p q : UInt8 → Bool} (weaker : ∀ b, p b → q b) {bytes : List UInt8}
    (h : startsWith p bytes) : startsWith q bytes := by
  cases bytes with
  | nil => cases h
  | cons b rest => exact weaker b h

theorem Identifier.starts_nameStart (x : Identifier) :
    startsWith isNameStart (Utf8.encode x.text) :=
  startsWith_mono (fun b letter => by simp [isNameStart, letter]) x.starts

theorem FieldName.starts_nameStart (x : FieldName) :
    startsWith isNameStart (Utf8.encode x.text) :=
  startsWith_mono (fun b under => by simp [isNameStart, under]) x.starts

theorem Identifier.wordKind_text (x : Identifier) : wordKind x.text = .name x.text := by
  have noField : startsWith (· == underscore) (Utf8.encode x.text) = false := by
    have starts := x.starts
    generalize Utf8.encode x.text = bytes at starts
    cases bytes with
    | nil => rfl
    | cons b rest =>
      have letter : isLetter b := starts
      refine beq_eq_false_iff_ne.mpr ?_
      rintro rfl
      exact absurd letter (by decide)
  rw [wordKind, noField, x.plain]
  rfl

theorem FieldName.wordKind_text (x : FieldName) : wordKind x.text = .field x.text := by
  rw [wordKind, if_pos x.starts]

theorem Word.spells {w : Word} {kind : TokenKind} {behind : List UInt8} (h : w.kind? = some kind)
    (apart : w.Apart behind) : Spells behind w.bytes kind := by
  cases w with
  | blank => cases h
  | number n =>
    cases h
    rw [bytes, text, encode_repr]
    exact .number apart.1 apart.2.1 apart.2.2
  | string text =>
    cases h
    exact .string text
  | name x =>
    cases h
    rw [← x.wordKind_text]
    exact .word x.starts_nameStart x.letters apart
  | field x =>
    cases h
    rw [← x.wordKind_text]
    exact .word x.starts_nameStart x.letters apart
  | keyword k =>
    cases h
    rw [← k.wordKind_text]
    exact .word k.starts k.letters apart
  | symbol s =>
    cases h
    exact .symbol s apart

/-- A text of words that are kept apart has the tokens of the words. -/
theorem kinds_tokensFrom {ws : List Word} (spaced : Spaced ws) {blanks : List UInt8}
    (blank : ∀ b ∈ blanks, b = 32) (p : Position) :
    (tokensFrom p (blanks ++ ws.flatMap Word.bytes)).map Token.kind =
      kindsOf ws ++ [.endOfInput] := by
  induction ws generalizing blanks p with
  | nil =>
    rw [List.flatMap_nil, List.append_nil, tokensFrom_stop (gapText_blanks blank)]
    rfl
  | cons w ws ih =>
    obtain ⟨apart, spaced⟩ := spaced
    rw [List.flatMap_cons]
    cases found : w.kind? with
    | none =>
      have isBlank : w.bytes = [32] := by
        cases w <;> first | rfl | cases found
      rw [kindsOf, List.filterMap_cons_none found, isBlank, ← List.append_assoc]
      refine ih spaced (fun b there => ?_) p
      rcases List.mem_append.mp there with there | there
      · exact blank b there
      · exact List.mem_singleton.mp there
    | some kind =>
      obtain ⟨q, cut⟩ := (w.spells found apart).tokensFrom blank p
      rw [cut, kindsOf, List.filterMap_cons_some found, List.cons_append]
      exact congrArg (kind :: ·) (ih spaced (List.forall_mem_nil _) q)

theorem kinds_tokens {ws : List Word} (spaced : Spaced ws) :
    (tokens (written ws)).map Token.kind = kindsOf ws ++ [.endOfInput] := by
  rw [tokens, encode_written]
  exact kinds_tokensFrom spaced (List.forall_mem_nil _) .origin

end ScriptHost
