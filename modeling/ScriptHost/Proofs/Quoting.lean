import ScriptHost.Proofs.Lexing.Cut
import ScriptHost.Proofs.Rendering.Tree
import ScriptHost.Source.Tree.Statements

/-! Texts as string literals. `Quotes` says in which ways the characters of a text may be written
between quotes: a quote, a backslash and a percent sign only behind a backslash, a few others as
they are or by a letter behind a backslash, and the rest as they are. However a text is written, it
is the one token, and the one expression, of its literal. -/

namespace ScriptHost

/-- The characters that can be written behind a backslash, with the letters that stand for them. -/
def escapeLetters : List (Char × Char) :=
  [('"', '"'), ('\\', '\\'), ('%', '%'), ('\x00', '0'), ('\n', 'n'), ('\r', 'r'), ('\t', 't')]

/-- `Quotes cs written`: between quotes, the characters `cs` can be written as `written`. -/
inductive Quotes : List Char → List Char → Prop
  | nil : Quotes [] []
  | plain {c cs written} : c ∉ ['"', '\\', '%'] → Quotes cs written →
    Quotes (c :: cs) (c :: written)
  | escape {c letter cs written} : (c, letter) ∈ escapeLetters → Quotes cs written →
    Quotes (c :: cs) ('\\' :: letter :: written)

/-- The literal with these characters between its quotes. -/
def literalText (written : List Char) : String := "\"" ++ String.ofList written ++ "\""

/-- One of the ways: only what has to be escaped is escaped. -/
theorem quotes_written (cs : List Char) : Quotes cs (cs.flatMap writtenChar) := by
  induction cs with
  | nil => exact .nil
  | cons c cs ih =>
    have code : c ∈ ['"', '\\', '%'] ↔ c.toNat = 34 ∨ c.toNat = 92 ∨ c.toNat = 37 := by
      simp only [List.mem_cons, List.not_mem_nil, or_false, ← Char.toNat_inj]
      rfl
    rw [List.flatMap_cons, writtenChar]
    by_cases special : c ∈ ['"', '\\', '%']
    · have known : (c, c) ∈ escapeLetters := by
        simp only [List.mem_cons, List.not_mem_nil, or_false] at special
        rcases special with rfl | rfl | rfl <;> decide
      rw [if_pos (code.mp special)]
      exact .escape known ih
    · rw [if_neg (mt code.mpr special)]
      exact .plain special ih

/-! ### Characters and their bytes -/

/-- Bytes that stand for themselves in a string. -/
theorem Scans.plain {bytes read rest : List UInt8} {n m : Nat}
    {r : Except LexicalFault (List RawPart)}
    (plain : ∀ b ∈ bytes, b ≠ 34 ∧ b ≠ 92 ∧ b ≠ 37)
    (h : Scans (.literal (bytes.reverse ++ read)) (n + bytes.length) [] rest r m) :
    Scans (.literal read) n [] (bytes ++ rest) r m := by
  induction bytes generalizing read n with
  | nil => exact h
  | cons b bytes ih =>
    rw [List.forall_mem_cons] at plain
    obtain ⟨⟨quote, escape, percent⟩, plain⟩ := plain
    refine .byte quote escape (fun opens => percent opens.1) (ih plain ?_)
    have count : n + (b :: bytes).length = n + 1 + bytes.length := by
      rw [List.length_cons]
      omega
    rw [List.reverse_cons, List.append_assoc, List.singleton_append, count] at h
    exact h

/-- A byte of a character is that of an ASCII character only if they are the same. -/
theorem ne_of_mem_utf8EncodeChar {c special : Char} (other : c ≠ special)
    (ascii : special.toNat < 128) {b : UInt8} (there : b ∈ String.utf8EncodeChar c) :
    b ≠ UInt8.ofNat special.toNat := by
  have code : (UInt8.ofNat special.toNat).toNat = special.toNat := by
    rw [UInt8.toNat_ofNat']
    omega
  rintro rfl
  by_cases low : c.toNat < 128
  · rw [Utf8.utf8EncodeChar_ascii low, List.mem_singleton] at there
    have same := congrArg UInt8.toNat there
    rw [code, UInt8.toNat_ofNat', Nat.mod_eq_of_lt (by omega)] at same
    exact other (Char.toNat_inj.mp same).symm
  · have high := Utf8.le_of_mem_utf8EncodeChar (Nat.le_of_not_lt low) there
    rw [code] at high
    omega

theorem escapeLetters_bytes {c letter : Char} (known : (c, letter) ∈ escapeLetters) :
    String.utf8EncodeChar c = [UInt8.ofNat c.toNat] ∧
      String.utf8EncodeChar letter = [UInt8.ofNat letter.toNat] ∧
      escaped? (UInt8.ofNat letter.toNat) = some (UInt8.ofNat c.toNat) := by
  have all : ∀ e ∈ escapeLetters, e.1.toNat < 128 ∧ e.2.toNat < 128 ∧
      escaped? (UInt8.ofNat e.2.toNat) = some (UInt8.ofNat e.1.toNat) := by decide
  obtain ⟨character, mark, read⟩ := all _ known
  exact ⟨Utf8.utf8EncodeChar_ascii character, Utf8.utf8EncodeChar_ascii mark, read⟩

/-! ### Reading a literal -/

/-- What is written for characters is read as their bytes, up to the quote behind it. -/
theorem Quotes.scans {cs written : List Char} (h : Quotes cs written) (read rest : List UInt8)
    (n : Nat) :
    Scans (.literal read) n [] (written.flatMap String.utf8EncodeChar ++ 34 :: rest)
      (.ok [.literal (read.reverse ++ cs.flatMap String.utf8EncodeChar)])
      (n + (written.flatMap String.utf8EncodeChar).length + 1) := by
  induction h generalizing read n with
  | nil =>
    have closed : (closeLiteral read [] true).reverse = [.literal read.reverse] := by
      simp [closeLiteral]
    have quote : Scans (.literal read) n [] (34 :: rest) _ _ := .quote
    rw [closed] at quote
    simpa using quote
  | @plain c cs written other _ ih =>
    simp only [List.mem_cons, List.not_mem_nil, or_false, not_or] at other
    obtain ⟨quote, escape, percent⟩ := other
    have bytes : ∀ b ∈ String.utf8EncodeChar c, b ≠ 34 ∧ b ≠ 92 ∧ b ≠ 37 := fun b there =>
      ⟨ne_of_mem_utf8EncodeChar quote (by decide) there,
        ne_of_mem_utf8EncodeChar escape (by decide) there,
        ne_of_mem_utf8EncodeChar percent (by decide) there⟩
    have next := Scans.plain bytes
      (ih ((String.utf8EncodeChar c).reverse ++ read) (n + (String.utf8EncodeChar c).length))
    simpa [Nat.add_assoc] using next
  | @escape c letter cs written known _ ih =>
    obtain ⟨character, mark, byte⟩ := escapeLetters_bytes known
    have backslash : String.utf8EncodeChar '\\' = [92] := by decide
    have next := Scans.escape byte (ih (UInt8.ofNat c.toNat :: read) (n + 2))
    simpa [character, mark, backslash, Nat.add_assoc, Nat.add_comm 2] using next

theorem encode_literalText (written : List Char) :
    Utf8.encode (literalText written) =
      34 :: (written.flatMap String.utf8EncodeChar ++ [34]) := by
  have quote : Utf8.encode "\"" = [34] := rfl
  rw [literalText, Utf8.encode_append, Utf8.encode_append, quote, Utf8.encode_ofList]
  rfl

/-- A literal is one string token in front of any bytes. -/
theorem Quotes.lexeme {s : String} {written : List Char} (h : Quotes s.toList written)
    (p : Position) (behind : List UInt8) :
    lexeme p 34 (written.flatMap String.utf8EncodeChar ++ [34] ++ behind) =
      (.string [.literal s], (Utf8.encode (literalText written)).length) := by
  have read := (h.scans [] behind 1).eq_stringParts
  rw [List.reverse_nil, List.nil_append, ← Utf8.encode_eq_flatMap] at read
  have plain : (34 : UInt8) ≠ Position.newline := by decide
  rw [encode_literalText, ScriptHost.lexeme, if_neg plain, if_pos rfl, ScriptHost.string,
    List.tail_cons, List.append_assoc, List.singleton_append, read]
  simp [RawPart.toPart, Utf8.lossy_encode, Nat.add_comm]

/-- The whole of a script that is one literal. -/
def literalSpan (written : List Char) : Span :=
  ⟨.origin, Position.origin.after (Utf8.encode (literalText written))⟩

theorem Quotes.tokens {s : String} {written : List Char} (h : Quotes s.toList written) :
    tokens (literalText written) =
      [⟨.string [.literal s], literalSpan written⟩,
        ⟨.endOfInput, .point (literalSpan written).stop⟩] := by
  have stops : ¬ StartsGap (34 :: (written.flatMap String.utf8EncodeChar ++ [34])) := by
    rintro ((code | code | code) | ⟨code, -⟩) <;> exact absurd code (by decide)
  have read := h.lexeme .origin []
  have first := tokensFrom_token (p := .origin) .nil stops
  rw [List.append_nil] at read
  rw [List.nil_append, Position.after_nil, lexemeText, read, encode_literalText,
    List.length_cons, Nat.add_sub_cancel, List.take_length, List.drop_length,
    tokensFrom_stop .nil, Position.after_nil, ← encode_literalText] at first
  exact first

/-- A string token that is all there is, is the only item. -/
theorem items_string (s : String) (span stop : Span) :
    items [⟨.string [.literal s], span⟩, ⟨.endOfInput, stop⟩] =
      [.ok (.expr (.string span s))] := rfl

/-- However a text is written as a literal, and it can be, the literal is one token, and one
expression, of the text. -/
theorem literal_round_trip (s : String) :
    (∃ written, Quotes s.toList written) ∧
      ∀ written, Quotes s.toList written →
        tokens (literalText written) =
            [⟨.string [.literal s], literalSpan written⟩,
              ⟨.endOfInput, .point (literalSpan written).stop⟩] ∧
          parseModule (literalText written) = .ok [.expr (.string (literalSpan written) s)] := by
  refine ⟨⟨_, quotes_written s.toList⟩, fun written h => ⟨h.tokens, ?_⟩⟩
  rw [parseModule, h.tokens, items_string]
  rfl

/-- A text with a quote, a percent sign before a parenthesis, a line break and a tab. -/
theorem literal_round_trip_mixed :
    Quotes "\"%(é\n\t".toList ['\\', '"', '\\', '%', '(', 'é', '\n', '\\', 't'] ∧
      parseModule (literalText ['\\', '"', '\\', '%', '(', 'é', '\n', '\\', 't']) =
        .ok [.expr (.string ⟨⟨0, 1, 1⟩, ⟨12, 2, 4⟩⟩ "\"%(é\n\t")] := by
  have h : Quotes "\"%(é\n\t".toList ['\\', '"', '\\', '%', '(', 'é', '\n', '\\', 't'] :=
    .escape (by decide) (.escape (by decide) (.plain (by decide) (.plain (by decide)
      (.plain (by decide) (.escape (by decide) .nil)))))
  exact ⟨h, ((literal_round_trip _).2 _ h).2⟩

end ScriptHost
