import ScriptHost.Proofs.Lexing.Cut

/-! String literals with an interpolated expression. If the parentheses of the expression are
closed, counting all of them wherever they stand, the literal is one token, and the expression one
part of it. -/

namespace ScriptHost

/-- The parentheses among some bytes are closed, and only open ones are; `depth` parentheses are
open in front of them. Those in strings and comments count, too. -/
def ParensClosed (depth : Nat) : List UInt8 → Prop
  | [] => depth = 0
  | b :: rest =>
    if b = 40 then ParensClosed (depth + 1) rest
    else if b = 41 then 0 < depth ∧ ParensClosed (depth - 1) rest
    else ParensClosed depth rest

instance ParensClosed.decidable (depth : Nat) (bytes : List UInt8) :
    Decidable (ParensClosed depth bytes) :=
  match bytes with
  | [] => inferInstanceAs (Decidable (depth = 0))
  | b :: rest =>
    let _ := ParensClosed.decidable (depth + 1) rest
    let _ := ParensClosed.decidable (depth - 1) rest
    let _ := ParensClosed.decidable depth rest
    inferInstanceAs (Decidable (if b = 40 then ParensClosed (depth + 1) rest
      else if b = 41 then 0 < depth ∧ ParensClosed (depth - 1) rest
      else ParensClosed depth rest))

/-- What can stand in a string literal: bytes, escapes and interpolated expressions. -/
inductive StringText : List UInt8 → Prop
  | nil : StringText []
  | byte {b rest} : b ≠ 34 → b ≠ 92 → ¬ (b = 37 ∧ rest.head? = some 40) → StringText rest →
    StringText (b :: rest)
  | escape {c rest} : (escaped? c).isSome → StringText rest → StringText (92 :: c :: rest)
  | code {code rest} : ParensClosed 0 code → StringText rest →
    StringText (37 :: 40 :: (code ++ 41 :: rest))

variable {p : Position} {text code rest : List UInt8} {parts : List RawPart}
  {r : Except LexicalFault (List RawPart)} {n m before depth : Nat}

/-- An interpolated expression ends where the parenthesis in front of it is closed. -/
theorem Scans.closedCode (h : ParensClosed depth code) (bs : List UInt8)
    (after : Scans (.literal []) (n + code.length + 1)
      (.code (bs.reverse ++ code) before :: parts) rest r m) :
    Scans (.code before depth bs) n parts (code ++ 41 :: rest) r m := by
  induction code generalizing n depth bs with
  | nil =>
    have none : depth = 0 := h
    subst none
    rw [List.append_nil] at after
    exact .closed after
  | cons b code ih =>
    rw [List.length_cons, Nat.add_comm code.length 1, ← Nat.add_assoc n 1,
      List.append_cons, ← List.reverse_cons] at after
    rw [ParensClosed] at h
    rw [List.cons_append]
    split at h
    · rename_i opens
      subst opens
      exact .nested (ih h (40 :: bs) after)
    · rename_i opens
      split at h
      · rename_i closes
        subst closes
        obtain ⟨positive, h⟩ := h
        obtain ⟨depth, rfl⟩ := Nat.exists_eq_succ_of_ne_zero (Nat.ne_of_gt positive)
        exact .unnested (ih h (41 :: bs) after)
      · rename_i closes
        exact .codeByte opens closes (ih h (b :: bs) after)

/-- The text of a literal is read whole; `more` are the parts that it adds. -/
theorem StringText.scans (h : StringText text) (bs : List UInt8) (n : Nat) (parts : List RawPart) :
    ∃ bs' more, ∀ behind r m, behind.head? ≠ some 40 →
      Scans (.literal bs') (n + text.length) (more ++ parts) behind r m →
      Scans (.literal bs) n parts (text ++ behind) r m := by
  induction h generalizing bs n parts with
  | nil => exact ⟨bs, [], fun behind r m _ after => after⟩
  | @byte b rest quote escape plain _ ih =>
    obtain ⟨bs', more, reads⟩ := ih (b :: bs) (n + 1) parts
    refine ⟨bs', more, fun behind r m head after => ?_⟩
    rw [List.length_cons, Nat.add_comm rest.length 1, ← Nat.add_assoc] at after
    refine .byte quote escape ?_ (reads behind r m head after)
    obtain _ | ⟨c, rest⟩ := rest
    · exact fun mark => head mark.2
    · exact plain
  | @escape c rest known _ ih =>
    obtain ⟨b, known⟩ := Option.isSome_iff_exists.mp known
    obtain ⟨bs', more, reads⟩ := ih (b :: bs) (n + 2) parts
    refine ⟨bs', more, fun behind r m head after => ?_⟩
    rw [List.length_cons, List.length_cons, Nat.add_assoc rest.length, Nat.add_comm rest.length,
      ← Nat.add_assoc] at after
    exact .escape known (reads behind r m head after)
  | @code code rest closed _ ih =>
    obtain ⟨bs', more, reads⟩ :=
      ih [] (n + 2 + code.length + 1) (.code code (n + 2) :: closeLiteral bs parts false)
    obtain same | added := closeLiteral_cases bs parts false
    · refine ⟨bs', more ++ [.code code (n + 2)], fun behind r m head after => ?_⟩
      rw [same] at reads
      have inner := reads behind r m head (by
        simpa [Nat.add_assoc, Nat.add_comm, Nat.add_left_comm] using after)
      have read := Scans.closedCode closed [] inner
      simp only [List.cons_append, List.append_assoc]
      exact .code (by rw [same]; exact read)
    · refine ⟨bs', more ++ [.code code (n + 2), .literal bs.reverse],
        fun behind r m head after => ?_⟩
      rw [added] at reads
      have inner := reads behind r m head (by
        simpa [Nat.add_assoc, Nat.add_comm, Nat.add_left_comm] using after)
      have read := Scans.closedCode closed [] inner
      simp only [List.cons_append, List.append_assoc]
      exact .code (by rw [added]; exact read)

/-- A string literal with an interpolated expression is one string token. -/
theorem string_literal (p : Position) {pre post : List UInt8} (hpre : StringText pre)
    (closed : ParensClosed 0 code) (hpost : StringText post) (behind : List UInt8) :
    ∃ front back, string p (34 :: (pre ++ 37 :: 40 :: (code ++ 41 :: (post ++ 34 :: behind)))) =
      (.string (front ++ .code (Utf8.textOf code) (p.after (34 :: (pre ++ [37, 40]))) :: back),
        (34 :: (pre ++ 37 :: 40 :: (code ++ 41 :: (post ++ [34])))).length) := by
  obtain ⟨bs, front, reads⟩ := hpre.scans [] 1 []
  let parts := closeLiteral bs (front ++ []) false
  let here := 1 + pre.length + 2
  let literal := 34 :: (pre ++ 37 :: 40 :: (code ++ 41 :: (post ++ 34 :: behind)))
  obtain ⟨bs', back, reads'⟩ := hpost.scans [] (here + code.length + 1) (.code code here :: parts)
  obtain ⟨last, whole⟩ : ∃ last,
      (closeLiteral bs' (back ++ .code code here :: parts) true).reverse =
      parts.reverse ++ .code code here :: last := by
    obtain same | added := closeLiteral_cases bs' (back ++ .code code here :: parts) true
    · exact ⟨back.reverse, by rw [same]; simp⟩
    · exact ⟨back.reverse ++ [.literal bs'.reverse], by rw [added]; simp⟩
  have ends : Scans (.literal bs') (here + code.length + 1 + post.length)
      (back ++ .code code here :: parts) (34 :: behind)
      (.ok (parts.reverse ++ .code code here :: last))
      (here + code.length + 1 + post.length + 1) := by
    rw [← whole]
    exact .quote
  have tail : Scans (.code here 0 []) _ _ _ _ _ :=
    Scans.closedCode closed [] (reads' _ _ _ (by simp) ends)
  have scans := reads _ _ _ (by simp) (.code tail)
  have place : literal.take here = 34 :: (pre ++ [37, 40]) := by
    have split : literal =
        (34 :: (pre ++ [37, 40])) ++ (code ++ 41 :: (post ++ 34 :: behind)) := by simp [literal]
    rw [split]
    refine List.take_left' ?_
    simp only [List.length_cons, List.length_append, List.length_nil, here]
    omega
  refine ⟨parts.reverse.map (RawPart.toPart p literal), last.map (RawPart.toPart p literal), ?_⟩
  unfold string
  rw [List.tail_cons, scans.eq_stringParts]
  dsimp only
  rw [List.map_append, List.map_cons, RawPart.toPart, place]
  congr 1
  simp only [List.length_cons, List.length_append, List.length_nil, here]
  omega

/-! ### Tokens at a place -/

/-- The token that starts where a quote stands is the string that the quote opens. -/
theorem token_at_quote {before behind : List UInt8} {t : Token}
    (there : t ∈ tokensFrom .origin (before ++ 34 :: behind))
    (starts : t.span.start.offset = before.length) :
    let here := Position.origin.after before
    t = ⟨(string here (34 :: behind)).1,
      ⟨here, here.after (34 :: behind.take ((string here (34 :: behind)).2 - 1))⟩⟩ := by
  obtain last | ⟨front, comment, cut, ⟨rest, rfl⟩, same⟩ | ⟨front, b, rest, cut, -, same⟩ :=
    (tokensFrom_lexed _ _).token_cases there
  · rw [last, Span.point, Position.after_offset, List.length_append, List.length_cons,
      Position.origin] at starts
    omega
  · rw [same, Position.after_offset, Position.origin, Nat.zero_add] at starts
    obtain ⟨-, marks⟩ := List.append_inj cut starts.symm
    cases marks
  · have place := starts
    rw [same, Position.after_offset, Position.origin, Nat.zero_add] at place
    obtain ⟨rfl, own⟩ := List.append_inj cut place.symm
    cases own
    exact same

end ScriptHost
