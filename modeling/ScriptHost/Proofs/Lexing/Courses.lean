import ScriptHost.Proofs.Lexing.Literals
import ScriptHost.Proofs.Quoting

/-! Strings read by characters. The bytes of a string are read one after the other, but a quote, an
escape and the parentheses of an expression are ASCII, so that the reading passes whole characters
in between: whatever ends the string, the parts that are finished by then are the bytes of texts.
`Composed` says which parts the characters between two quotes make up. -/

namespace ScriptHost

/-! ### What is finished on the way -/

/-- How the reading of a string ends: the fault that ends it, if one does, the parts that are
finished by then, the latest first, and the bytes of the token. -/
structure StringCourse where
  fault : Option LexicalFault
  finished : List RawPart
  length : Nat

/-- A fault drops what is finished. -/
def StringCourse.result (c : StringCourse) : Except LexicalFault (List RawPart) × Nat :=
  match c.fault with
  | none => (.ok c.finished.reverse, c.length)
  | some fault => (.error fault, c.length)

/-- The reading of a string, with what it has finished when it ends. -/
def stringCourse (mode : StringMode) (count : Nat) (parts : List RawPart) :
    List UInt8 → StringCourse
  | [] =>
    match mode with
    | .literal _ => ⟨some .openString, parts, count⟩
    | .code .. => ⟨some .openInterpolation, parts, count⟩
  | [b] =>
    match mode with
    | .literal bytes =>
      if b = 34 then ⟨none, closeLiteral bytes parts true, count + 1⟩
      else if b = 92 then ⟨some .escape, parts, count + 1⟩
      else ⟨some .openString, parts, count + 1⟩
    | .code before depth bytes =>
      if b = 41 ∧ depth = 0 then
        ⟨some .openString, .code bytes.reverse before :: parts, count + 1⟩
      else ⟨some .openInterpolation, parts, count + 1⟩
  | b :: c :: rest =>
    match mode with
    | .literal bytes =>
      if b = 34 then ⟨none, closeLiteral bytes parts true, count + 1⟩
      else if b = 92 then
        match escaped? c with
        | some byte => stringCourse (.literal (byte :: bytes)) (count + 2) parts rest
        | none => ⟨some .escape, parts, count + 2⟩
      else if b = 37 ∧ c = 40 then
        stringCourse (.code (count + 2) 0 []) (count + 2) (closeLiteral bytes parts false) rest
      else stringCourse (.literal (b :: bytes)) (count + 1) parts (c :: rest)
    | .code before depth bytes =>
      if b = 40 then
        stringCourse (.code before (depth + 1) (b :: bytes)) (count + 1) parts (c :: rest)
      else if b = 41 then
        match depth with
        | 0 =>
          stringCourse (.literal []) (count + 1) (.code bytes.reverse before :: parts) (c :: rest)
        | depth + 1 =>
          stringCourse (.code before depth (b :: bytes)) (count + 1) parts (c :: rest)
      else stringCourse (.code before depth (b :: bytes)) (count + 1) parts (c :: rest)

section Steps

attribute [local simp] stringCourse StringCourse.result

/-- It is the reading of the lexer. -/
theorem stringParts_eq_course (mode : StringMode) (n : Nat) (parts : List RawPart)
    (bytes : List UInt8) :
    stringParts mode n parts bytes = (stringCourse mode n parts bytes).result := by
  fun_induction stringParts mode n parts bytes with
  | case1 | case2 => rfl
  | case3 | case4 | case8 => simp
  | case5 _ _ _ _ quote escape => simp [quote, escape]
  | case6 _ _ _ _ _ _ closes ih => simpa [closes] using ih
  | case7 _ _ _ _ _ _ open_ => simp [open_]
  | case9 _ _ _ _ _ _ known _ ih => simpa [known] using ih
  | case10 _ _ _ _ _ unknown => simp [unknown]
  | case11 _ _ _ _ _ _ quote escape opens ih => simpa [quote, escape, opens] using ih
  | case12 _ _ _ _ _ _ quote escape plain ih => simpa [quote, escape, plain] using ih
  | case13 _ _ _ _ _ _ _ ih => simpa using ih
  | case14 _ _ _ _ _ _ _ ih => simpa using ih
  | case15 _ _ _ _ _ _ _ _ ih => simpa using ih
  | case16 _ _ _ _ _ _ _ _ opening closing ih => simpa [opening, closing] using ih

/-! ### One step of the reading -/

variable {bs rest bytes : List UInt8} {n before depth : Nat} {parts : List RawPart} {b c : UInt8}

theorem course_quote : stringCourse (.literal bs) n parts (34 :: rest) =
    ⟨none, closeLiteral bs parts true, n + 1⟩ := by
  cases rest <;> simp

theorem course_escape (known : escaped? c = some b) :
    stringCourse (.literal bs) n parts (92 :: c :: rest) =
      stringCourse (.literal (b :: bs)) (n + 2) parts rest := by
  simp [known]

theorem course_badEscape (unknown : rest.head?.bind escaped? = none) :
    ∃ length, stringCourse (.literal bs) n parts (92 :: rest) = ⟨some .escape, parts, length⟩ := by
  cases rest with
  | nil => exact ⟨_, rfl⟩
  | cons c rest =>
    rw [List.head?_cons, Option.bind_some] at unknown
    exact ⟨n + 2, by simp [unknown]⟩

theorem course_code : stringCourse (.literal bs) n parts (37 :: 40 :: rest) =
    stringCourse (.code (n + 2) 0 []) (n + 2) (closeLiteral bs parts false) rest := by
  simp

theorem course_byte (quote : b ≠ 34) (escape : b ≠ 92)
    (plain : ¬ (b = 37 ∧ rest.head? = some 40)) :
    stringCourse (.literal bs) n parts (b :: rest) =
      stringCourse (.literal (b :: bs)) (n + 1) parts rest := by
  cases rest with
  | nil => simp [quote, escape]
  | cons c rest =>
    rw [List.head?_cons, Option.some.injEq] at plain
    simp [quote, escape, plain]

theorem course_bytes (plain : ∀ b ∈ bytes, b ≠ 34 ∧ b ≠ 92 ∧ b ≠ 37) :
    stringCourse (.literal bs) n parts (bytes ++ rest) =
      stringCourse (.literal (bytes.reverse ++ bs)) (n + bytes.length) parts rest := by
  induction bytes generalizing bs n with
  | nil => rfl
  | cons b bytes ih =>
    rw [List.forall_mem_cons] at plain
    obtain ⟨⟨quote, escape, percent⟩, plain⟩ := plain
    rw [List.cons_append, course_byte quote escape fun opens => percent opens.1, ih plain]
    simp [Nat.add_assoc, Nat.add_comm 1]

theorem course_nested : stringCourse (.code before depth bs) n parts (40 :: rest) =
    stringCourse (.code before (depth + 1) (40 :: bs)) (n + 1) parts rest := by
  cases rest <;> simp

theorem course_unnested : stringCourse (.code before (depth + 1) bs) n parts (41 :: rest) =
    stringCourse (.code before depth (41 :: bs)) (n + 1) parts rest := by
  cases rest <;> simp

theorem course_closed : stringCourse (.code before 0 bs) n parts (41 :: rest) =
    stringCourse (.literal []) (n + 1) (.code bs.reverse before :: parts) rest := by
  cases rest <;> simp

theorem course_codeBytes (plain : ∀ b ∈ bytes, b ≠ 40 ∧ b ≠ 41) :
    stringCourse (.code before depth bs) n parts (bytes ++ rest) =
      stringCourse (.code before depth (bytes.reverse ++ bs)) (n + bytes.length) parts rest := by
  induction bytes generalizing bs n with
  | nil => rfl
  | cons b bytes ih =>
    rw [List.forall_mem_cons] at plain
    obtain ⟨⟨opening, closing⟩, plain⟩ := plain
    have step : stringCourse (.code before depth bs) n parts (b :: (bytes ++ rest)) =
        stringCourse (.code before depth (b :: bs)) (n + 1) parts (bytes ++ rest) := by
      cases bytes ++ rest <;> simp [opening, closing]
    rw [List.cons_append, step, ih plain]
    simp [Nat.add_assoc, Nat.add_comm 1]

end Steps

/-! ### The characters of a string -/

/-- A part of a string as it is written in a text: the characters that a literal stands for, or the
source of an expression with the bytes of the token in front of it. -/
inductive Piece where
  | literal (cs : List Char)
  | code (source : List Char) (before : Nat)

namespace Piece

/-- The part with its bytes. -/
def raw : Piece → RawPart
  | literal cs => .literal (cs.flatMap String.utf8EncodeChar)
  | code source before => .code (source.flatMap String.utf8EncodeChar) before

/-- The part as it stands in the token, which starts at an offset of a text. -/
def part (text : String) (start : Nat) : Piece → StringPart
  | literal cs => .literal (String.ofList cs)
  | code source before => .code (String.ofList source) (Position.placeAt text (start + before))

end Piece

/-- The literal under way, if there is any of it. -/
def literalPieces (read : List Char) : List Piece := if read.isEmpty then [] else [.literal read]

/-- `Composed n read written pieces`: behind `n` bytes of a string, and the characters `read` of the
literal that is under way, the characters `written` make up `pieces`. An escape stands for one
character, an expression is what the parentheses around it hold, and all else stands for itself. -/
inductive Composed : Nat → List Char → List Char → List Piece → Prop
  | stop {n read} : Composed n read [] (literalPieces read)
  | plain {n read c written pieces} : c ≠ '"' → c ≠ '\\' →
    ¬ (c = '%' ∧ written.head? = some '(') →
    Composed (n + c.utf8Size) (read ++ [c]) written pieces → Composed n read (c :: written) pieces
  | escape {n read c letter written pieces} : (c, letter) ∈ escapeLetters →
    Composed (n + 2) (read ++ [c]) written pieces →
    Composed n read ('\\' :: letter :: written) pieces
  | code {n read source written pieces} :
    ParensClosed 0 (source.flatMap String.utf8EncodeChar) →
    Composed (n + 2 + (source.flatMap String.utf8EncodeChar).length + 1) [] written pieces →
    Composed n read ('%' :: '(' :: (source ++ ')' :: written))
      (literalPieces read ++ .code source (n + 2) :: pieces)

/-- What is finished of an empty string: an empty literal. -/
def orEmpty (parts : List RawPart) : List RawPart :=
  if parts.isEmpty then [.literal []] else parts

/-- What the reading makes of the characters `cs`, with `n` bytes, the characters `read` and the
`parts` in front of them. If no quote ends the string, what is finished is what the characters in
front of the fault, or some of them, make up. -/
inductive StringReads (n : Nat) (read : List Char) (parts : List RawPart) (cs : List Char) :
    StringCourse → Prop
  | closed {written behind pieces length} : cs = written ++ '"' :: behind →
    Composed n read written pieces →
    length = n + (written.flatMap String.utf8EncodeChar).length + 1 →
    StringReads n read parts cs ⟨none, orEmpty ((pieces.map Piece.raw).reverse ++ parts), length⟩
  | broken {fault pieces length} :
    pieces = [] ∨ (∃ written behind, cs = written ++ behind ∧ Composed n read written pieces) →
    StringReads n read parts cs ⟨some fault, (pieces.map Piece.raw).reverse ++ parts, length⟩

variable {n : Nat} {read cs source : List Char} {parts : List RawPart} {c letter : Char}
  {r : StringCourse}

/-- The parentheses that a character leaves open. -/
def parensAfter (depth : Nat) (c : Char) : Nat :=
  if c = '(' then depth + 1 else if c = ')' then depth - 1 else depth

theorem plain_of_other {c : Char} (opening : c ≠ '(') (closing : c ≠ ')') :
    ∀ b ∈ String.utf8EncodeChar c, b ≠ 40 ∧ b ≠ 41 := fun _ there =>
  ⟨ne_of_mem_utf8EncodeChar opening (by decide) there,
    ne_of_mem_utf8EncodeChar closing (by decide) there⟩

theorem parensClosed_bytes {bytes rest : List UInt8} {depth : Nat}
    (plain : ∀ b ∈ bytes, b ≠ 40 ∧ b ≠ 41) :
    ParensClosed depth (bytes ++ rest) ↔ ParensClosed depth rest := by
  induction bytes with
  | nil => rfl
  | cons b bytes ih =>
    rw [List.forall_mem_cons] at plain
    rw [List.cons_append, ParensClosed, if_neg plain.1.1, if_neg plain.1.2]
    exact ih plain.2

/-- Whether parentheses are closed goes by characters. -/
theorem parensClosed_cons {depth : Nat} {c : Char} {cs : List Char} :
    ParensClosed depth ((c :: cs).flatMap String.utf8EncodeChar) ↔ (c = ')' → 0 < depth) ∧
      ParensClosed (parensAfter depth c) (cs.flatMap String.utf8EncodeChar) := by
  by_cases opening : c = '('
  · subst opening
    exact ⟨fun closed => ⟨nofun, closed⟩, fun closed => closed.2⟩
  by_cases closing : c = ')'
  · subst closing
    exact ⟨fun closed => ⟨fun _ => closed.1, closed.2⟩, fun closed => ⟨closed.1 rfl, closed.2⟩⟩
  · rw [List.flatMap_cons, parensClosed_bytes (plain_of_other opening closing), parensAfter,
      if_neg opening, if_neg closing, and_iff_right fun same => absurd same closing]

/-- One parenthesis closes an expression. -/
theorem parensClosed_unique {depth : Nat} {source source' behind behind' : List Char}
    (closed : ParensClosed depth (source.flatMap String.utf8EncodeChar))
    (closed' : ParensClosed depth (source'.flatMap String.utf8EncodeChar))
    (same : source ++ ')' :: behind = source' ++ ')' :: behind') :
    source = source' ∧ behind = behind' := by
  induction source generalizing depth source' with
  | nil =>
    have none_ : depth = 0 := closed
    cases source' with
    | nil => exact ⟨rfl, (List.cons.inj same).2⟩
    | cons c source' =>
      have := (parensClosed_cons.mp closed').1 (List.cons.inj same).1.symm
      omega
  | cons c source ih =>
    rw [parensClosed_cons] at closed
    cases source' with
    | nil =>
      have none_ : depth = 0 := closed'
      have := closed.1 (List.cons.inj same).1
      omega
    | cons d source' =>
      rw [parensClosed_cons] at closed'
      obtain ⟨rfl, rest⟩ := List.cons.inj same
      obtain ⟨rfl, rfl⟩ := ih closed.2 closed'.2 rest
      exact ⟨rfl, rfl⟩

/-- The characters make up one list of pieces. -/
theorem Composed.unique {n : Nat} {read written : List Char} {pieces pieces' : List Piece}
    (h : Composed n read written pieces) (h' : Composed n read written pieces') :
    pieces = pieces' := by
  induction h generalizing pieces' with
  | stop =>
    cases h'
    rfl
  | plain quote escape code _ ih =>
    cases h' with
    | plain _ _ _ h' => exact ih h'
    | escape => exact absurd rfl escape
    | code => exact absurd ⟨rfl, rfl⟩ code
  | @escape n read c letter written pieces known _ ih =>
    generalize whole : '\\' :: letter :: written = all at h'
    cases h' with
    | stop => cases whole
    | plain _ escape => exact absurd (List.cons.inj whole).1.symm escape
    | escape known' h' =>
      obtain ⟨rfl, rfl⟩ := List.cons.inj (List.cons.inj whole).2
      have one : ∀ e ∈ escapeLetters, ∀ f ∈ escapeLetters, e.2 = f.2 → e.1 = f.1 := by decide
      obtain rfl := one _ known _ known' rfl
      exact ih h'
    | code => cases whole
  | @code n read source written pieces closed _ ih =>
    generalize whole : '%' :: '(' :: (source ++ ')' :: written) = all at h'
    cases h' with
    | stop => cases whole
    | plain _ _ code =>
      obtain ⟨rfl, rfl⟩ := List.cons.inj whole
      exact absurd ⟨rfl, rfl⟩ code
    | escape => cases whole
    | code closed' h' =>
      obtain ⟨rfl, rfl⟩ :=
        parensClosed_unique closed closed' (List.cons.inj (List.cons.inj whole).2).2
      rw [ih h']

theorem isEmpty_reverse_flatMap (read : List Char) :
    (read.flatMap String.utf8EncodeChar).reverse.isEmpty = read.isEmpty := by
  cases read with
  | nil => rfl
  | cons c read => simp [Utf8.utf8EncodeChar_ne_nil c]

theorem closeLiteral_pieces (read : List Char) (parts : List RawPart) :
    closeLiteral (read.flatMap String.utf8EncodeChar).reverse parts false =
      ((literalPieces read).map Piece.raw).reverse ++ parts := by
  unfold closeLiteral literalPieces
  rw [isEmpty_reverse_flatMap, List.reverse_reverse]
  cases read <;> rfl

theorem closeLiteral_last (read : List Char) (parts : List RawPart) :
    closeLiteral (read.flatMap String.utf8EncodeChar).reverse parts true =
      orEmpty (((literalPieces read).map Piece.raw).reverse ++ parts) := by
  unfold closeLiteral literalPieces orEmpty
  rw [isEmpty_reverse_flatMap, List.reverse_reverse]
  cases read with
  | nil => cases parts <;> rfl
  | cons => rfl

theorem head?_ne_of_append {written behind : List Char} (cut : cs = written ++ behind)
    (code : ¬ (c = '%' ∧ cs.head? = some '(')) : ¬ (c = '%' ∧ written.head? = some '(') := by
  rintro ⟨percent, opens⟩
  refine code ⟨percent, ?_⟩
  cases written with
  | nil => cases opens
  | cons => rw [cut]; exact opens

namespace StringReads

theorem plain (quote : c ≠ '"') (escape : c ≠ '\\') (code : ¬ (c = '%' ∧ cs.head? = some '('))
    (h : StringReads (n + c.utf8Size) (read ++ [c]) parts cs r) :
    StringReads n read parts (c :: cs) r := by
  obtain @⟨written, behind, pieces, length, cut, composed, size⟩ |
    @⟨fault, pieces, length, some_⟩ := h
  · refine closed (congrArg (c :: ·) cut)
      (.plain quote escape (head?_ne_of_append cut code) composed) ?_
    rw [size, List.flatMap_cons, List.length_append, String.length_utf8EncodeChar]
    omega
  · refine broken (some_.imp_right ?_)
    rintro ⟨written, behind, cut, composed⟩
    exact ⟨c :: written, behind, congrArg (c :: ·) cut,
      .plain quote escape (head?_ne_of_append cut code) composed⟩

theorem escape (known : (c, letter) ∈ escapeLetters)
    (h : StringReads (n + 2) (read ++ [c]) parts cs r) :
    StringReads n read parts ('\\' :: letter :: cs) r := by
  obtain @⟨written, behind, pieces, length, cut, composed, size⟩ |
    @⟨fault, pieces, length, some_⟩ := h
  · have backslash : String.utf8EncodeChar '\\' = [92] := by decide
    refine closed (congrArg ('\\' :: letter :: ·) cut) (.escape known composed) ?_
    rw [size, List.flatMap_cons, List.flatMap_cons, (escapeLetters_bytes known).2.1, backslash]
    simp only [List.length_append, List.length_cons, List.length_nil]
    omega
  · refine broken (some_.imp_right ?_)
    rintro ⟨written, behind, cut, composed⟩
    exact ⟨'\\' :: letter :: written, behind, congrArg ('\\' :: letter :: ·) cut,
      .escape known composed⟩

theorem code (paired : ParensClosed 0 (source.flatMap String.utf8EncodeChar))
    (h : StringReads (n + 2 + (source.flatMap String.utf8EncodeChar).length + 1) []
      ((Piece.code source (n + 2)).raw :: (((literalPieces read).map Piece.raw).reverse ++ parts))
      cs r) : StringReads n read parts ('%' :: '(' :: (source ++ ')' :: cs)) r := by
  have finished (pieces : List Piece) :
      (pieces.map Piece.raw).reverse ++
        (Piece.code source (n + 2)).raw :: (((literalPieces read).map Piece.raw).reverse ++ parts) =
      ((literalPieces read ++ .code source (n + 2) :: pieces).map Piece.raw).reverse ++ parts := by
    simp
  have cut {written more : List Char} (cut : cs = written ++ more) :
      '%' :: '(' :: (source ++ ')' :: cs) =
        '%' :: '(' :: (source ++ ')' :: written) ++ more := by
    rw [cut]
    simp
  obtain @⟨written, behind, pieces, length, there, composed, size⟩ |
    @⟨fault, pieces, length, some_⟩ := h
  · have marks : String.utf8EncodeChar '%' = [37] ∧ String.utf8EncodeChar '(' = [40] ∧
        String.utf8EncodeChar ')' = [41] := by decide
    rw [finished]
    refine closed (cut there) (.code paired composed) ?_
    rw [size]
    simp only [List.flatMap_cons, List.flatMap_append, marks, List.length_append, List.length_cons,
      List.length_nil]
    omega
  · rw [finished]
    refine broken (.inr ?_)
    obtain rfl | ⟨written, behind, there, composed⟩ := some_
    · -- Nothing is finished behind the expression.
      exact ⟨_, cs, cut (List.nil_append cs).symm, .code paired .stop⟩
    · exact ⟨_, behind, cut there, .code paired composed⟩

end StringReads

/-! ### Expressions -/

/-- The reading of an expression goes on to the parenthesis that closes it, if there is one. The
characters `cs` follow the bytes `bs` of the expression, in which `depth` parentheses are open. -/
inductive ExpressionCourse (before depth n : Nat) (bs : List UInt8) (parts : List RawPart)
    (cs : List Char) : Prop
  | opens {length} : stringCourse (.code before depth bs) n parts
      (cs.flatMap String.utf8EncodeChar) = ⟨some .openInterpolation, parts, length⟩ →
    ExpressionCourse before depth n bs parts cs
  | closes (source behind : List Char) : cs = source ++ ')' :: behind →
    ParensClosed depth (source.flatMap String.utf8EncodeChar) →
    stringCourse (.code before depth bs) n parts (cs.flatMap String.utf8EncodeChar) =
      stringCourse (.literal []) (n + (source.flatMap String.utf8EncodeChar).length + 1)
        (.code (bs.reverse ++ source.flatMap String.utf8EncodeChar) before :: parts)
        (behind.flatMap String.utf8EncodeChar) →
    ExpressionCourse before depth n bs parts cs

variable {before depth : Nat} {bs : List UInt8}

/-- The reading passes one character of an expression, which does not end it. -/
theorem course_codeChar (inside : c = ')' → 0 < depth) (rest : List UInt8) :
    stringCourse (.code before depth bs) n parts (String.utf8EncodeChar c ++ rest) =
      stringCourse (.code before (parensAfter depth c) ((String.utf8EncodeChar c).reverse ++ bs))
        (n + c.utf8Size) parts rest := by
  by_cases opening : c = '('
  · subst opening
    exact course_nested
  by_cases closing : c = ')'
  · subst closing
    obtain ⟨depth, rfl⟩ := Nat.exists_eq_succ_of_ne_zero (Nat.ne_of_gt (inside rfl))
    exact course_unnested
  · rw [course_codeBytes (plain_of_other opening closing), parensAfter, if_neg opening,
      if_neg closing, String.length_utf8EncodeChar]

theorem expression_course (before : Nat) (parts : List RawPart) (cs : List Char)
    (depth n : Nat) (bs : List UInt8) : ExpressionCourse before depth n bs parts cs := by
  induction cs generalizing depth n bs with
  | nil => exact .opens rfl
  | cons c cs ih =>
    by_cases closing : c = ')' ∧ depth = 0
    · obtain ⟨rfl, rfl⟩ := closing
      refine .closes [] cs rfl rfl ?_
      rw [List.flatMap_nil, List.append_nil]
      exact course_closed
    · have inside : c = ')' → 0 < depth := fun same =>
        Nat.pos_of_ne_zero fun none_ => closing ⟨same, none_⟩
      have step := @course_codeChar n parts c before depth bs inside
        (cs.flatMap String.utf8EncodeChar)
      rw [← List.flatMap_cons] at step
      obtain @⟨length, open_⟩ | ⟨source, behind, cut, closed, again⟩ := ih (parensAfter depth c)
        (n + c.utf8Size) ((String.utf8EncodeChar c).reverse ++ bs)
      · exact .opens (step.trans open_)
      · refine .closes (c :: source) behind (congrArg (c :: ·) cut)
          (parensClosed_cons.mpr ⟨inside, closed⟩) ?_
        rw [step, again, List.reverse_append, List.reverse_reverse, List.append_assoc,
          ← List.flatMap_cons, List.flatMap_cons, List.length_append,
          String.length_utf8EncodeChar, Nat.add_assoc n]

/-! ### Strings -/

/-- Only the letters of escapes are known behind a backslash. -/
theorem exists_escapeLetter {b x : UInt8} (known : escaped? b = some x) :
    ∃ e ∈ escapeLetters, b = UInt8.ofNat e.2.toNat ∧ x = UInt8.ofNat e.1.toNat := by
  unfold escaped? at known
  split at known
  · rename_i same
    cases known
    rcases same with rfl | rfl | rfl
    · exact ⟨('"', '"'), by decide, rfl, rfl⟩
    · exact ⟨('\\', '\\'), by decide, rfl, rfl⟩
    · exact ⟨('%', '%'), by decide, rfl, rfl⟩
  split at known
  · rename_i zero
    cases known
    exact ⟨('\x00', '0'), by decide, zero, rfl⟩
  split at known
  · rename_i newline
    cases known
    exact ⟨('\n', 'n'), by decide, newline, rfl⟩
  split at known
  · rename_i carriageReturn
    cases known
    exact ⟨('\r', 'r'), by decide, carriageReturn, rfl⟩
  split at known
  · rename_i tab
    cases known
    exact ⟨('\t', 't'), by decide, tab, rfl⟩
  · cases known

theorem escape_of_head {d : Char} {b x : UInt8} {bytes : List UInt8}
    (own : String.utf8EncodeChar d = b :: bytes) (known : escaped? b = some x) :
    bytes = [] ∧ ∃ c, (c, d) ∈ escapeLetters ∧ String.utf8EncodeChar c = [x] := by
  obtain ⟨⟨c, letter⟩, there, rfl, rfl⟩ := exists_escapeLetter known
  have ascii : ∀ e ∈ escapeLetters, (UInt8.ofNat e.2.toNat).toNat < 128 ∧
      Char.ofNat (UInt8.ofNat e.2.toNat).toNat = e.2 := by decide
  obtain ⟨low, same⟩ := ascii _ there
  obtain ⟨rfl, none_⟩ := Utf8.eq_of_utf8EncodeChar own low
  rw [same]
  exact ⟨none_, c, there, (escapeLetters_bytes there).1⟩

/-- A character that stands for itself is passed whole. -/
theorem course_char (quote : c ≠ '"') (escape : c ≠ '\\')
    (code : ¬ (c = '%' ∧ cs.head? = some '(')) :
    stringCourse (.literal bs) n parts ((c :: cs).flatMap String.utf8EncodeChar) =
      stringCourse (.literal ((String.utf8EncodeChar c).reverse ++ bs)) (n + c.utf8Size) parts
        (cs.flatMap String.utf8EncodeChar) := by
  rw [List.flatMap_cons]
  by_cases percent : c = '%'
  · subst percent
    have mark : String.utf8EncodeChar '%' = [37] := by decide
    rw [mark]
    refine course_byte (by decide) (by decide) fun opens => code ⟨rfl, ?_⟩
    cases cs with
    | nil => cases opens.2
    | cons d cs =>
      obtain ⟨b, bytes, own⟩ := List.exists_cons_of_ne_nil (Utf8.utf8EncodeChar_ne_nil d)
      have opens : (b :: (bytes ++ cs.flatMap String.utf8EncodeChar)).head? = some 40 := by
        rw [← List.cons_append, ← own]
        exact opens.2
      rw [List.head?_cons, Option.some.injEq] at opens
      subst opens
      rw [(Utf8.eq_of_utf8EncodeChar own (by decide)).1]
      rfl
  · rw [← String.length_utf8EncodeChar]
    exact course_bytes fun b there => ⟨ne_of_mem_utf8EncodeChar quote (by decide) there,
      ne_of_mem_utf8EncodeChar escape (by decide) there,
      ne_of_mem_utf8EncodeChar percent (by decide) there⟩

/-- The reading of a string makes of these characters what it should, wherever it gets to them. -/
def ReadWhole (cs : List Char) : Prop :=
  ∀ n read parts, StringReads n read parts cs
    (stringCourse (.literal (read.flatMap String.utf8EncodeChar).reverse) n parts
      (cs.flatMap String.utf8EncodeChar))

namespace ReadWhole

theorem reverse_snoc (read : List Char) (c : Char) :
    ((read ++ [c]).flatMap String.utf8EncodeChar).reverse =
      (String.utf8EncodeChar c).reverse ++ (read.flatMap String.utf8EncodeChar).reverse := by
  simp

theorem quote (cs : List Char) : ReadWhole ('"' :: cs) := by
  intro n read parts
  have ends := @course_quote (read.flatMap String.utf8EncodeChar).reverse
    (cs.flatMap String.utf8EncodeChar) n parts
  rw [closeLiteral_last] at ends
  exact ends ▸ .closed (List.nil_append _).symm .stop rfl

theorem backslash (d : Char) (h : ReadWhole cs) : ReadWhole ('\\' :: d :: cs) := by
  intro n read parts
  obtain ⟨b, bytes, own⟩ := List.exists_cons_of_ne_nil (Utf8.utf8EncodeChar_ne_nil d)
  have whole : ('\\' :: d :: cs).flatMap String.utf8EncodeChar =
      92 :: b :: (bytes ++ cs.flatMap String.utf8EncodeChar) := by
    rw [List.flatMap_cons, List.flatMap_cons, own]
    rfl
  rw [whole]
  cases known : escaped? b with
  | none =>
    have unknown : (b :: (bytes ++ cs.flatMap String.utf8EncodeChar)).head?.bind escaped? = none :=
      known
    obtain ⟨_, ends⟩ := course_badEscape unknown
    exact ends ▸ .broken (.inl rfl)
  | some x =>
    obtain ⟨rfl, c, there, one⟩ := escape_of_head own known
    have rest := h (n + 2) (read ++ [c]) parts
    rw [reverse_snoc, one, List.reverse_singleton, List.singleton_append,
      ← course_escape known] at rest
    exact .escape there rest

theorem expression (h : ∀ behind : List Char, behind.length ≤ cs.length → ReadWhole behind) :
    ReadWhole ('%' :: '(' :: cs) := by
  intro n read parts
  have starts := @course_code (read.flatMap String.utf8EncodeChar).reverse
    (cs.flatMap String.utf8EncodeChar) n parts
  rw [closeLiteral_pieces] at starts
  obtain ⟨open_⟩ | ⟨source, behind, rfl, paired, again⟩ := expression_course (n + 2)
    (((literalPieces read).map Piece.raw).reverse ++ parts) cs 0 (n + 2) []
  · exact (starts.trans open_) ▸ .broken (.inr ⟨[], _, rfl, .stop⟩)
  · have shorter : behind.length ≤ (source ++ ')' :: behind).length := by
      rw [List.length_append, List.length_cons]
      omega
    have rest := h behind shorter (n + 2 + (source.flatMap String.utf8EncodeChar).length + 1) []
      ((Piece.code source (n + 2)).raw :: (((literalPieces read).map Piece.raw).reverse ++ parts))
    exact .code paired ((starts.trans again) ▸ rest)

theorem char (quote : c ≠ '"') (escape : c ≠ '\\') (code : ¬ (c = '%' ∧ cs.head? = some '('))
    (h : ReadWhole cs) : ReadWhole (c :: cs) := by
  intro n read parts
  have rest := h (n + c.utf8Size) (read ++ [c]) parts
  rw [reverse_snoc, ← course_char quote escape code] at rest
  exact .plain quote escape code rest

end ReadWhole

/-- The reading of a string goes from character to character. -/
theorem readWhole (cs : List Char) : ReadWhole cs := by
  induction length : cs.length using Nat.strongRecOn generalizing cs with
  | ind size ih =>
    subst length
    cases cs with
    | nil => exact fun _ _ _ => .broken (.inl rfl)
    | cons c cs =>
      have rest : ReadWhole cs := ih _ (Nat.lt_succ_self _) cs rfl
      by_cases quote : c = '"'
      · subst quote
        exact .quote cs
      by_cases escape : c = '\\'
      · subst escape
        cases cs with
        | nil => exact fun _ _ _ => .broken (.inl rfl)
        | cons d cs => exact .backslash d (ih _ (by simp only [List.length_cons]; omega) cs rfl)
      by_cases code : c = '%' ∧ cs.head? = some '('
      · obtain ⟨rfl, opens⟩ := code
        obtain ⟨cs, rfl⟩ := List.head?_eq_some_iff.mp opens
        refine .expression fun behind shorter => ih _ ?_ behind rfl
        simp only [List.length_cons]
        omega
      · exact .char quote escape code rest

end ScriptHost
