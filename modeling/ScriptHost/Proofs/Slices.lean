import ScriptHost.Proofs.Lexing.Courses
import ScriptHost.Proofs.Spacing

/-! The texts of tokens. Reading goes on at every byte, also inside a character where a fault ends a
token, but a token that is made of text starts at an ASCII byte, and so at a character: what is read
off the text there cuts no character, and says what the text says. -/

namespace ScriptHost

open Position (origin placeAt newline)

/-! ### Parts of a text -/

/-- The span of `slice` in `text`, behind `front`. -/
def sliceSpan (text front slice : String) : Span :=
  ⟨placeAt text front.utf8ByteSize, placeAt text (front.utf8ByteSize + slice.utf8ByteSize)⟩

theorem after_take_eq_placeAt (front back : String) (n : Nat) :
    (origin.after (Utf8.encode front)).after ((Utf8.encode back).take n) =
      placeAt (front ++ back) (front.utf8ByteSize + n) := by
  rw [placeAt, Utf8.encode_append, ← Utf8.length_encode front, List.take_length_add_append,
    Position.after_append]

theorem sliceSpan_eq {text front slice back : String} (cut : text = front ++ slice ++ back) :
    sliceSpan text front slice = ⟨origin.after (Utf8.encode front),
      (origin.after (Utf8.encode front)).after (Utf8.encode slice)⟩ := by
  have start := after_take_eq_placeAt front (slice ++ back) 0
  have stop := after_take_eq_placeAt front (slice ++ back) slice.utf8ByteSize
  rw [← String.append_assoc, ← cut] at start stop
  rw [List.take_zero, Position.after_nil, Nat.add_zero] at start
  rw [Utf8.encode_append, ← Utf8.length_encode slice, List.take_left] at stop
  rw [sliceSpan, ← start, ← Utf8.length_encode slice, ← stop]

/-- The bytes of a piece are those of its text. -/
theorem Piece.toPart_raw (piece : Piece) (front back : String) :
    piece.raw.toPart (origin.after (Utf8.encode front)) (Utf8.encode back) =
      piece.part (front ++ back) front.utf8ByteSize := by
  cases piece with
  | literal cs => rw [raw, RawPart.toPart, part, ← Utf8.encode_ofList, Utf8.lossy_encode]
  | code source before =>
    rw [raw, RawPart.toPart, part, ← Utf8.encode_ofList, Utf8.textOf_encode,
      after_take_eq_placeAt]

/-! ### Tokens -/

/-- Whether no text is made for a token. -/
def TokenKind.isSilent : TokenKind → Bool
  | newline | endOfInput | symbol _ | invalid .openComment | invalid (.byte _) => true
  | _ => false

/-- `ReadFrom slice kind`: the number or word `kind` is what the text `slice` says. -/
inductive ReadFrom (slice : String) : TokenKind → Prop
  | number {x} : number (Utf8.encode slice) = (.number x, slice.utf8ByteSize) →
    ReadFrom slice (.number x)
  | hexLiteral : number (Utf8.encode slice) = (.invalid .hexLiteral, slice.utf8ByteSize) →
    ReadFrom slice (.invalid .hexLiteral)
  | name : ReadFrom slice (.name slice)
  | field : ReadFrom slice (.field slice)
  | keyword {k : Keyword} : k.text = slice → ReadFrom slice (.keyword k)

/-- The pieces of a string; an empty one has an empty literal. -/
def wholePieces (pieces : List Piece) : List Piece :=
  if pieces.isEmpty then [.literal []] else pieces

/-- What is read of a string behind its opening quote. -/
def courseOf (behind : String) : StringCourse :=
  stringCourse (.literal []) 1 [] (Utf8.encode behind)

/-- No character of the text is cut for the token, and none is lost or replaced. -/
inductive Token.Undamaged (text : String) : Token → Prop
  | silent {t} : t.kind.isSilent → Undamaged text t
  | read {front slice back kind} : text = front ++ slice ++ back → ReadFrom slice kind →
    Undamaged text ⟨kind, sliceSpan text front slice⟩
  /-- The bytes collected for a string are those of the pieces that its characters make up. -/
  | string {front written back pieces} : text = front ++ literalText written ++ back →
    Composed 1 [] written pieces →
    (courseOf (String.ofList written ++ "\"" ++ back)).finished.reverse =
      (wholePieces pieces).map Piece.raw →
    Undamaged text ⟨.string ((wholePieces pieces).map (Piece.part text front.utf8ByteSize)),
      sliceSpan text front (literalText written)⟩
  /-- So are those collected for a string in front of a fault. -/
  | broken {front written back pieces fault stop} :
    text = front ++ "\"" ++ (String.ofList written ++ back) → Composed 1 [] written pieces →
    (courseOf (String.ofList written ++ back)).fault = some fault →
    (courseOf (String.ofList written ++ back)).finished.reverse = pieces.map Piece.raw →
    Undamaged text ⟨.invalid fault, ⟨placeAt text front.utf8ByteSize, stop⟩⟩

namespace Token.Undamaged

variable {text : String} {before rest : List UInt8} {b : UInt8}

/-! ### Strings -/

theorem orEmpty_pieces (pieces : List Piece) :
    orEmpty ((pieces.map Piece.raw).reverse ++ []) =
      ((wholePieces pieces).map Piece.raw).reverse := by
  unfold wholePieces orEmpty
  cases pieces <;> simp [Piece.raw]

theorem courseOf_reads (cs : List Char) :
    StringReads 1 [] [] cs (courseOf (String.ofList cs)) := by
  rw [courseOf, Utf8.encode_ofList]
  exact readWhole cs 1 [] []

theorem string_closed {p : Position} {behind : String} {finished : List RawPart} {length : Nat}
    (h : courseOf behind = ⟨none, finished, length⟩) :
    ScriptHost.string p (34 :: Utf8.encode behind) =
      (.string (finished.reverse.map (RawPart.toPart p (34 :: Utf8.encode behind))), length) := by
  rw [courseOf] at h
  unfold ScriptHost.string
  rw [List.tail_cons, stringParts_eq_course, h]
  rfl

theorem string_broken {p : Position} {behind : String} {fault : LexicalFault}
    {finished : List RawPart} {length : Nat}
    (h : courseOf behind = ⟨some fault, finished, length⟩) :
    ScriptHost.string p (34 :: Utf8.encode behind) = (.invalid fault, length) := by
  rw [courseOf] at h
  unfold ScriptHost.string
  rw [List.tail_cons, stringParts_eq_course, h]
  rfl

theorem placeAt_front {text front back : String} (whole : text = front ++ back) :
    placeAt text front.utf8ByteSize = origin.after (Utf8.encode front) := by
  rw [whole, ← Nat.add_zero front.utf8ByteSize, ← after_take_eq_placeAt, List.take_zero,
    Position.after_nil]

/-- The characters between two quotes, and the quotes, are what the token covers. -/
theorem literal_extent (written behind : List Char) :
    34 :: (Utf8.encode (String.ofList (written ++ '"' :: behind))).take
        ((written.flatMap String.utf8EncodeChar).length + 1) =
      Utf8.encode (literalText written) := by
  have quote : String.utf8EncodeChar '"' = [34] := by decide
  rw [encode_literalText, Utf8.encode_ofList, List.flatMap_append, List.flatMap_cons, quote,
    List.take_length_add_append]
  rfl

variable {front : String} {written behind : List Char} {pieces : List Piece} {fault : LexicalFault}
  {length : Nat}

/-- The token that a quote behind `front` opens. -/
def quoteToken (front behind : String) : Token :=
  let here := origin.after (Utf8.encode front)
  let read := ScriptHost.string here (34 :: Utf8.encode behind)
  ⟨read.1, ⟨here, here.after (34 :: (Utf8.encode behind).take (read.2 - 1))⟩⟩

theorem quoteToken_closed
    (whole : text = front ++ ("\"" ++ String.ofList (written ++ '"' :: behind)))
    (composed : Composed 1 [] written pieces)
    (ran : courseOf (String.ofList (written ++ '"' :: behind)) =
      ⟨none, ((wholePieces pieces).map Piece.raw).reverse,
        (written.flatMap String.utf8EncodeChar).length + 1 + 1⟩) :
    Undamaged text (quoteToken front (String.ofList (written ++ '"' :: behind))) := by
  have inside : String.ofList (written ++ '"' :: behind) =
      String.ofList written ++ "\"" ++ String.ofList behind := by
    simp [← String.toList_inj]
  have split : text = front ++ literalText written ++ String.ofList behind := by
    rw [whole, inside, literalText]
    simp only [String.append_assoc]
  have bytes : 34 :: Utf8.encode (String.ofList (written ++ '"' :: behind)) =
      Utf8.encode ("\"" ++ String.ofList (written ++ '"' :: behind)) := by
    rw [Utf8.encode_append]
    rfl
  have parts : ((wholePieces pieces).map Piece.raw).map (RawPart.toPart
      (origin.after (Utf8.encode front))
      (34 :: Utf8.encode (String.ofList (written ++ '"' :: behind)))) =
      (wholePieces pieces).map (Piece.part text front.utf8ByteSize) := by
    rw [List.map_map, bytes]
    refine List.map_congr_left fun piece _ => ?_
    rw [Function.comp_apply, Piece.toPart_raw, ← whole]
  unfold quoteToken
  dsimp only
  rw [string_closed ran, List.reverse_reverse, parts]
  dsimp only
  rw [Nat.add_sub_cancel_right, literal_extent, ← sliceSpan_eq split]
  refine .string split composed ?_
  rw [← inside, ran, List.reverse_reverse]

theorem quoteToken_broken {back : String}
    (whole : text = front ++ ("\"" ++ (String.ofList written ++ back)))
    (composed : Composed 1 [] written pieces)
    (ran : courseOf (String.ofList written ++ back) =
      ⟨some fault, (pieces.map Piece.raw).reverse, length⟩) :
    Undamaged text (quoteToken front (String.ofList written ++ back)) := by
  unfold quoteToken
  dsimp only
  rw [string_broken ran, ← placeAt_front whole]
  refine .broken (whole.trans (String.append_assoc ..).symm) composed (by rw [ran]) ?_
  rw [ran, List.reverse_reverse]

/-- A token that a quote opens. -/
theorem quoted (cut : Utf8.encode text = before ++ 34 :: rest) :
    Undamaged text ⟨(ScriptHost.string (origin.after before) (34 :: rest)).1,
      ⟨origin.after before, (origin.after before).after
        (34 :: rest.take ((ScriptHost.string (origin.after before) (34 :: rest)).2 - 1))⟩⟩ := by
  rw [Utf8.encode_eq_flatMap] at cut
  obtain ⟨front, c, cs, chars, rfl, own, rfl⟩ := Utf8.split_at_ascii (by decide) cut
  obtain ⟨rfl, -⟩ := Utf8.eq_of_utf8EncodeChar own (by decide)
  have whole : text = String.ofList front ++ ("\"" ++ String.ofList cs) := by
    rw [← String.toList_inj, chars]
    simp
  rw [← Utf8.encode_ofList, ← Utf8.encode_ofList]
  change Undamaged text (quoteToken (String.ofList front) (String.ofList cs))
  have reads := courseOf_reads cs
  generalize ran : courseOf (String.ofList cs) = course at reads
  obtain @⟨written, behind, pieces, length, rfl, composed, rfl⟩ |
    @⟨fault, pieces, length, some_⟩ := reads
  · rw [orEmpty_pieces, Nat.add_comm 1] at ran
    exact quoteToken_closed whole composed ran
  · obtain ⟨written, behind, rfl, composed⟩ :
        ∃ written behind, cs = written ++ behind ∧ Composed 1 [] written pieces := by
      obtain rfl | some_ := some_
      · exact ⟨[], cs, rfl, .stop⟩
      · exact some_
    rw [String.ofList_append] at whole ran ⊢
    rw [List.append_nil] at ran
    exact quoteToken_broken whole composed ran

/-! ### Numbers and words -/

/-- ASCII bytes that start a token are a part of the text. -/
theorem of_ascii {kind : TokenKind} {n : Nat} (cut : Utf8.encode text = before ++ b :: rest)
    (own : isWordByte b) (within : Within isWordByte (b :: rest) n)
    (read : ∀ slice, Utf8.encode slice = b :: rest.take (n - 1) → ReadFrom slice kind) :
    Undamaged text ⟨kind, ⟨origin.after before,
      (origin.after before).after (b :: rest.take (n - 1))⟩⟩ := by
  have ends := within.asciiEnds own
  rw [← List.take_append_drop (n - 1) rest, ← List.cons_append] at cut
  obtain ⟨front, slice, back, whole, rfl, bytes, -⟩ :=
    Utf8.exists_slice cut (List.cons_ne_nil _ _) ends.first ends.last
  rw [← bytes, ← sliceSpan_eq whole]
  exact .read whole (read slice bytes)

theorem number_pos (digit : isDigit b) : 0 < (number (b :: rest)).2 := by
  have decimal : 0 < (decimalNumber (b :: rest)).2 := by
    unfold decimalNumber
    rw [List.takeWhile_cons_of_pos digit]
    dsimp only
    rw [List.length_cons]
    omega
  cases rest with
  | nil => exact decimal
  | cons x rest =>
    rw [number]
    split
    · exact Nat.succ_pos _
    · exact decimal

theorem readFrom_number (digit : isDigit b) {slice : String}
    (bytes : Utf8.encode slice = b :: rest.take ((number (b :: rest)).2 - 1)) :
    ReadFrom slice (number (b :: rest)).1 := by
  have positive : 0 < (number (b :: rest)).2 := number_pos digit
  have size : slice.utf8ByteSize = (number (b :: rest)).2 := by
    have inside := (within_number (b :: rest)).inside
    rw [List.length_cons] at inside
    rw [← Utf8.length_encode, bytes, List.length_cons, List.length_take]
    omega
  have again : number (Utf8.encode slice) = ((number (b :: rest)).1, slice.utf8ByteSize) := by
    have alone := @number_take [] rest ((number (b :: rest)).2 - 1) .nil b (by omega)
    rw [List.append_nil] at alone
    rw [bytes, alone, size]
  obtain ⟨x, kind⟩ | kind := number_kind (b :: rest)
  · rw [kind] at again ⊢
    exact .number again
  · rw [kind] at again ⊢
    exact .hexLiteral again

theorem readFrom_word (start : isNameStart b) {slice : String}
    (bytes : Utf8.encode slice = b :: rest.take ((word (b :: rest)).2 - 1)) :
    ReadFrom slice (word (b :: rest)).1 := by
  have letters : (b :: rest).takeWhile isNameByte = Utf8.encode slice := by
    have first := List.takeWhile_cons_of_pos (isNameByte_of_isNameStart start) (l := rest)
    rw [bytes, word, first, List.length_cons, Nat.add_sub_cancel,
      ← List.prefix_iff_eq_take.mp (List.takeWhile_prefix isNameByte)]
  unfold word
  rw [letters]
  dsimp only
  rw [Utf8.textOf_encode]
  split
  · exact .field
  · split
    · rename_i k found
      exact .keyword (by simpa using List.find?_some found)
    · exact .name

theorem symbol_silent (b : UInt8) (rest : List UInt8) : (symbol (b :: rest)).1.isSilent := by
  unfold symbol
  dsimp only
  split
  · rfl
  · split <;> rfl

/-! ### The tokens of a script -/

theorem lexeme (cut : Utf8.encode text = before ++ b :: rest) :
    Undamaged text ⟨(ScriptHost.lexeme (origin.after before) b rest).1, ⟨origin.after before,
      (origin.after before).after (lexemeText (origin.after before) b rest)⟩⟩ := by
  unfold lexemeText ScriptHost.lexeme
  split
  · exact .silent rfl
  split
  · rename_i quote
    subst quote
    exact quoted cut
  split
  · rename_i digit
    exact of_ascii cut (isWordByte_of_isDigit digit) (within_number _)
      fun _ => readFrom_number digit
  split
  · rename_i letter
    exact of_ascii cut (isWordByte_of_isNameByte (isNameByte_of_isNameStart letter))
      (within_word _) fun _ => readFrom_word letter
  · exact .silent (symbol_silent b rest)

end Token.Undamaged

/-- No token damages the text: what it is read from are whole characters, wherever the faults in
front of it end. -/
theorem tokens_undamaged (source : String) {t : Token} (there : t ∈ tokens source) :
    t.Undamaged source := by
  obtain rfl | ⟨_, _, _, _, rfl⟩ | ⟨before, b, rest, cut, _, rfl⟩ :=
    (tokensFrom_lexed .origin (Utf8.encode source)).token_cases there
  · exact .silent rfl
  · exact .silent rfl
  · exact .lexeme cut

/-- Only the first byte of a character is part of the escape that ends the first string. -/
theorem tokens_undamaged_resumed :
    let source := "\"\\é \"ü%(ñ)\""
    let t : Token := ⟨.string [.literal "ü", .code "ñ" ⟨10, 1, 11⟩], ⟨⟨5, 1, 6⟩, ⟨14, 1, 15⟩⟩⟩
    t ∈ tokens source ∧ t.Undamaged source := by
  intro source t
  have read : tokens source =
      [⟨.invalid .escape, ⟨.origin, ⟨3, 1, 4⟩⟩⟩, ⟨.invalid (.byte 169), ⟨⟨3, 1, 4⟩, ⟨4, 1, 5⟩⟩⟩,
        t, ⟨.endOfInput, .point ⟨14, 1, 15⟩⟩] := by with_unfolding_all rfl
  have there : t ∈ tokens source := by simp [read]
  exact ⟨there, tokens_undamaged source there⟩

end ScriptHost
