import Mathlib.Data.List.Basic
import ScriptHost.Source.Lexeme

/-! The gaps between tokens. `GapText` says which bytes can stand in one: blanks, comments up to the
end of their line, and block comments, closed, with closed comments inside them. What is skipped in
front of a token is such a gap, and every such gap that no more of it follows is skipped whole. -/

namespace ScriptHost

open Position (newline)

/-- The bytes of a block comment behind its opening mark, up to its closing mark. A comment inside
it is closed before it is. -/
inductive CommentTail : List UInt8 → Prop
  | close : CommentTail [42, 47]
  | comment {inner rest} : CommentTail inner → CommentTail rest →
    CommentTail (47 :: 42 :: (inner ++ rest))
  | byte {b rest} : ¬ (b = 47 ∧ rest.head? = some 42) → ¬ (b = 42 ∧ rest.head? = some 47) →
    CommentTail rest → CommentTail (b :: rest)

/-- Whether the next byte, if there is one, is a newline. -/
def AtLineEnd (bytes : List UInt8) : Prop := ∀ b ∈ bytes.head?, b = newline

/-- The bytes between two tokens, in front of the bytes `behind`. -/
inductive GapText (behind : List UInt8) : List UInt8 → Prop
  | nil : GapText behind []
  | blank {b rest} : b = 32 ∨ b = 9 ∨ b = 13 → GapText behind rest → GapText behind (b :: rest)
  | lineComment {text rest} : newline ∉ text → AtLineEnd (rest ++ behind) → GapText behind rest →
    GapText behind (47 :: 47 :: (text ++ rest))
  | blockComment {tail rest} : CommentTail tail → GapText behind rest →
    GapText behind (47 :: 42 :: (tail ++ rest))

/-- Comments that are open inside each other, closed one after the other. -/
inductive Closing : Nat → List UInt8 → Prop
  | nil : Closing 0 []
  | cons {depth tail rest} : CommentTail tail → Closing depth rest →
    Closing (depth + 1) (tail ++ rest)

/-- What finishes the comment that is under way, in front of the bytes `behind`. -/
def GapMode.Finish (behind : List UInt8) : GapMode → List UInt8 → Prop
  | .blanks, text => text = []
  | .lineComment, text => newline ∉ text ∧ AtLineEnd behind
  | .blockComment _ depth, text => Closing (depth + 1) text

/-- Whether the mark of a block comment is next. -/
def OpensComment (bytes : List UInt8) : Prop := ∃ rest, bytes = 47 :: 42 :: rest

/-- Whether a gap goes on with some bytes. -/
def StartsGap : List UInt8 → Prop
  | [] => False
  | b :: rest => (b = 32 ∨ b = 9 ∨ b = 13) ∨ b = 47 ∧ (rest.head? = some 47 ∨ rest.head? = some 42)

theorem CommentTail.ne_nil {tail : List UInt8} (h : CommentTail tail) : tail ≠ [] := by
  cases h <;> simp

theorem Closing.comment {depth : Nat} {inner : List UInt8} (h : Closing (depth + 2) inner) :
    Closing (depth + 1) (47 :: 42 :: inner) := by
  obtain _ | ⟨first, rest⟩ := h
  obtain _ | ⟨second, rest⟩ := rest
  have both := Closing.cons (.comment first second) rest
  simpa using both

theorem Closing.one {tail : List UInt8} (h : Closing 1 tail) : CommentTail tail := by
  obtain _ | ⟨first, ⟨⟩⟩ := h
  rw [List.append_nil]
  exact first

theorem Closing.byte {depth : Nat} {b : UInt8} {text : List UInt8}
    (h : Closing (depth + 1) text) (behind : List UInt8)
    (opens : ¬ (b = 47 ∧ (text ++ behind).head? = some 42))
    (closes : ¬ (b = 42 ∧ (text ++ behind).head? = some 47)) : Closing (depth + 1) (b :: text) := by
  obtain _ | @⟨_, tail, rest, first, others⟩ := h
  have head (bytes : List UInt8) : (tail ++ bytes).head? = tail.head? := by
    cases tail with
    | nil => exact absurd rfl first.ne_nil
    | cons => rfl
  rw [List.append_assoc, head] at opens closes
  exact .cons (.byte opens closes first) others

/-! ### What is skipped -/

/-- How a gap can end after `n` bytes: no more of it follows, or a block comment that nothing
closes. -/
inductive Gap.Ends (n : Nat) (behind : List UInt8) : Gap → Prop
  | stops : ¬ StartsGap behind → Gap.Ends n behind (.length n)
  | opens : OpensComment behind → Gap.Ends n behind (.openComment n)

/-- What is skipped of some bytes, with `count` bytes read before them: what finishes the comment
that is under way, and then a gap; or else nothing closes the comment. -/
inductive Skips : GapMode → Nat → List UInt8 → Gap → Prop
  | reads {mode count text gapText behind r} : mode.Finish (gapText ++ behind) text →
    GapText behind gapText → r.Ends (count + text.length + gapText.length) behind →
    Skips mode count (text ++ (gapText ++ behind)) r
  | unclosed {before depth count bytes} :
    Skips (.blockComment before depth) count bytes (.openComment before)

variable {count before depth : Nat} {b : UInt8} {rest behind : List UInt8} {r : Gap}

theorem AtLineEnd.not_startsGap (h : AtLineEnd behind) : ¬ StartsGap behind := by
  cases behind with
  | nil => exact id
  | cons b rest =>
    have line : b = newline := h b rfl
    subst line
    simp [StartsGap, newline]

theorem Gap.Ends.moved {n m : Nat} (h : r.Ends n behind) (same : n = m) : r.Ends m behind :=
  same ▸ h

namespace Skips

/-- In a gap, only more of it is skipped. -/
theorem inGap {gapText : List UInt8} (found : GapText behind gapText)
    (ends : r.Ends (count + gapText.length) behind) :
    Skips .blanks count (gapText ++ behind) r :=
  @reads .blanks count [] gapText behind r rfl found ends

theorem exists_gap {bytes : List UInt8} (h : Skips .blanks count bytes r) :
    ∃ gapText behind, bytes = gapText ++ behind ∧ GapText behind gapText ∧
      r.Ends (count + gapText.length) behind := by
  obtain @⟨_, _, _, gapText, behind, _, rfl, found, ends⟩ := h
  exact ⟨gapText, behind, rfl, found, ends⟩

theorem stops (h : ¬ StartsGap behind) : Skips .blanks count behind (.length count) :=
  inGap .nil (.stops h)

theorem lineEnd (h : AtLineEnd behind) : Skips .lineComment count behind (.length count) :=
  @reads .lineComment count [] [] behind _ ⟨List.not_mem_nil, h⟩ .nil (.stops h.not_startsGap)

theorem blank (blank : b = 32 ∨ b = 9 ∨ b = 13) (h : Skips .blanks (count + 1) rest r) :
    Skips .blanks count (b :: rest) r := by
  obtain ⟨gapText, behind, rfl, found, ends⟩ := h.exists_gap
  refine inGap (.blank blank found) (ends.moved ?_)
  rw [List.length_cons]
  omega

theorem lineComment (h : Skips .lineComment (count + 2) rest r) :
    Skips .blanks count (47 :: 47 :: rest) r := by
  obtain @⟨_, _, text, gapText, behind, _, ⟨unbroken, lineEnd⟩, found, ends⟩ := h
  rw [← List.append_assoc]
  refine inGap (.lineComment unbroken lineEnd found) (ends.moved ?_)
  simp only [List.length_cons, List.length_append]
  omega

theorem blockComment (h : Skips (.blockComment count 0) (count + 2) rest r) :
    Skips .blanks count (47 :: 42 :: rest) r := by
  obtain @⟨_, _, text, gapText, behind, _, closing, found, ends⟩ | _ := h
  · rw [← List.append_assoc]
    refine inGap (.blockComment (Closing.one closing) found) (ends.moved ?_)
    simp only [List.length_cons, List.length_append]
    omega
  · -- Nothing closes the comment, so that the gap ends in front of it.
    exact inGap .nil (.opens ⟨rest, rfl⟩)

theorem lineByte (plain : b ≠ newline) (h : Skips .lineComment (count + 1) rest r) :
    Skips .lineComment count (b :: rest) r := by
  obtain @⟨_, _, text, gapText, behind, _, ⟨unbroken, lineEnd⟩, found, ends⟩ := h
  have unbroken : newline ∉ b :: text := by simpa using ⟨Ne.symm plain, unbroken⟩
  refine @reads .lineComment count (b :: text) gapText behind r ⟨unbroken, lineEnd⟩ found
    (ends.moved ?_)
  rw [List.length_cons]
  omega

/-- In a comment, the bytes `front` may be more of it, with other comments to close behind them. -/
theorem inComment {depth' : Nat} (front : List UInt8)
    (finish : ∀ text behind, rest = text ++ behind → Closing (depth' + 1) text →
      Closing (depth + 1) (front ++ text))
    (h : Skips (.blockComment before depth') (count + front.length) rest r) :
    Skips (.blockComment before depth) count (front ++ rest) r := by
  obtain @⟨_, _, text, gapText, behind, _, closing, found, ends⟩ | _ := h
  · rw [← List.append_assoc]
    refine .reads (finish text _ rfl closing) found (ends.moved ?_)
    rw [List.length_append]
    omega
  · exact .unclosed

theorem opened (h : Skips (.blockComment before (depth + 1)) (count + 2) rest r) :
    Skips (.blockComment before depth) count (47 :: 42 :: rest) r :=
  inComment [47, 42] (fun _ _ _ closing => closing.comment) h

theorem closed (h : Skips .blanks (count + 2) rest r) :
    Skips (.blockComment before 0) count (42 :: 47 :: rest) r := by
  obtain ⟨gapText, behind, rfl, found, ends⟩ := h.exists_gap
  exact @reads (.blockComment before 0) count [42, 47] gapText behind r (.cons .close .nil) found
    ends

theorem innerClosed (h : Skips (.blockComment before depth) (count + 2) rest r) :
    Skips (.blockComment before (depth + 1)) count (42 :: 47 :: rest) r :=
  inComment [42, 47] (fun _ _ _ closing => .cons .close closing) h

theorem commentByte (opens : ¬ (b = 47 ∧ rest.head? = some 42))
    (closes : ¬ (b = 42 ∧ rest.head? = some 47))
    (h : Skips (.blockComment before depth) (count + 1) rest r) :
    Skips (.blockComment before depth) count (b :: rest) r :=
  inComment [b] (fun _ behind cut closing =>
    closing.byte behind (cut ▸ opens) (cut ▸ closes)) h

end Skips

/-- Each branch of the skipping is one step of the relation. -/
theorem gap_skips (mode : GapMode) (count : Nat) (bytes : List UInt8) :
    Skips mode count bytes (gap mode count bytes) := by
  fun_induction gap mode count bytes with
  | case1 => exact .unclosed
  | case2 mode count noComment =>
    cases mode with
    | blanks => exact .stops id
    | lineComment => exact .lineEnd (by simp [AtLineEnd])
    | blockComment before depth => exact (noComment before depth rfl).elim
  | case3 count b =>
    split
    · rename_i blank
      exact .blank blank (.stops id)
    · rename_i plain
      exact .stops (by simpa [StartsGap] using plain)
  | case4 count b =>
    split
    · rename_i line
      exact .lineEnd (by simp [AtLineEnd, line])
    · rename_i plain
      exact .lineByte plain (.lineEnd (by simp [AtLineEnd]))
  | case5 => exact .unclosed
  | case6 _ _ _ _ blank ih => exact .blank blank ih
  | case7 _ _ _ _ _ mark ih =>
    obtain ⟨rfl, rfl⟩ := mark
    exact .lineComment ih
  | case8 _ _ _ _ _ _ mark ih =>
    obtain ⟨rfl, rfl⟩ := mark
    exact .blockComment ih
  | case9 count b c rest blank line block =>
    refine .stops ?_
    rintro (here | ⟨slash, mark | mark⟩)
    · exact blank here
    · exact line ⟨slash, by simpa using mark⟩
    · exact block ⟨slash, by simpa using mark⟩
  | case10 => exact .lineEnd (by simp [AtLineEnd])
  | case11 _ _ _ _ plain ih => exact .lineByte plain ih
  | case12 _ _ _ _ _ _ mark ih =>
    obtain ⟨rfl, rfl⟩ := mark
    exact .opened ih
  | case13 _ _ _ _ _ _ mark ih =>
    obtain ⟨rfl, rfl⟩ := mark
    exact .closed ih
  | case14 _ _ _ _ _ _ mark _ ih =>
    obtain ⟨rfl, rfl⟩ := mark
    exact .innerClosed ih
  | case15 _ _ _ _ _ _ opens closes ih =>
    exact .commentByte (by simpa using opens) (by simpa using closes) ih

theorem gap_blanks (bytes : List UInt8) : ∃ gapText behind, bytes = gapText ++ behind ∧
    GapText behind gapText ∧ (gap .blanks 0 bytes).Ends gapText.length behind := by
  obtain ⟨gapText, behind, cut, found, ends⟩ := (gap_skips .blanks 0 bytes).exists_gap
  exact ⟨gapText, behind, cut, found, ends.moved (Nat.zero_add _)⟩

/-! ### Gaps are skipped whole -/

theorem gap_lineComment {text behind : List UInt8} (unbroken : newline ∉ text)
    (lineEnd : AtLineEnd behind) (count : Nat) :
    gap .lineComment count (text ++ behind) = .length (count + text.length) := by
  induction text generalizing count with
  | nil =>
    match behind with
    | [] => rfl
    | [b] =>
      have line : b = newline := lineEnd b rfl
      simp [gap, line]
    | b :: c :: rest =>
      have line : b = newline := lineEnd b rfl
      simp [gap, line]
  | cons b text ih =>
    rw [List.mem_cons, not_or] at unbroken
    obtain ⟨plain, unbroken⟩ := unbroken
    have step : gap .lineComment count (b :: (text ++ behind)) =
        gap .lineComment (count + 1) (text ++ behind) := by
      match text ++ behind with
      | [] => simp [gap, Ne.symm plain]
      | c :: rest => simp [gap, Ne.symm plain]
    rw [List.cons_append, step, ih unbroken, List.length_cons]
    congr 1
    omega

/-- Reading on behind a comment goes on in the comment around it, or in the gap. -/
theorem gap_commentTail {tail : List UInt8} (h : CommentTail tail) :
    ∀ (before depth count : Nat) (behind : List UInt8),
      gap (.blockComment before depth) count (tail ++ behind) =
        gap (match depth with
          | 0 => .blanks
          | depth + 1 => .blockComment before depth) (count + tail.length) behind := by
  induction h with
  | close =>
    intro before depth count behind
    cases depth <;> simp [gap]
  | @comment inner rest _ _ inside after =>
    intro before depth count behind
    have step : gap (.blockComment before depth) count (47 :: 42 :: (inner ++ (rest ++ behind))) =
        gap (.blockComment before (depth + 1)) (count + 2) (inner ++ (rest ++ behind)) := by
      simp [gap]
    rw [List.cons_append, List.cons_append, List.append_assoc, step, inside, after]
    congr 1
    simp only [List.length_cons, List.length_append]
    omega
  | @byte b rest opens closes h ih =>
    intro before depth count behind
    obtain ⟨c, more, cut⟩ : ∃ c more, rest = c :: more := List.exists_cons_of_ne_nil h.ne_nil
    subst cut
    rw [List.head?_cons, Option.some.injEq] at opens closes
    have step : gap (.blockComment before depth) count (b :: c :: (more ++ behind)) =
        gap (.blockComment before depth) (count + 1) (c :: (more ++ behind)) := by
      simp [gap, opens, closes]
    rw [List.cons_append, List.cons_append, step]
    refine (ih before depth (count + 1) behind).trans ?_
    congr 1
    simp only [List.length_cons]
    omega

theorem GapText.lineEnd_nil {text behind : List UInt8} (h : GapText behind text)
    (lineEnd : AtLineEnd (text ++ behind)) : text = [] := by
  cases h with
  | nil => rfl
  | @blank b rest blank _ =>
    have line : b = newline := lineEnd b rfl
    rw [line] at blank
    exact absurd blank (by decide)
  | lineComment => exact absurd (lineEnd _ rfl) (by decide)
  | blockComment => exact absurd (lineEnd _ rfl) (by decide)

/-- A gap is skipped whole. -/
theorem GapText.skipped {text behind : List UInt8} (h : GapText behind text)
    (stops : ¬ StartsGap behind) (count : Nat) :
    gap .blanks count (text ++ behind) = .length (count + text.length) := by
  induction h generalizing count with
  | nil =>
    match behind with
    | [] => rfl
    | [b] =>
      have plain : ¬ (b = 32 ∨ b = 9 ∨ b = 13) := fun blank => stops (.inl blank)
      simp [gap, plain]
    | b :: c :: rest =>
      have plain : ¬ (b = 32 ∨ b = 9 ∨ b = 13) := fun blank => stops (.inl blank)
      have line : ¬ (b = 47 ∧ c = 47) := fun mark => stops (.inr ⟨mark.1, .inl (by simp [mark.2])⟩)
      have block : ¬ (b = 47 ∧ c = 42) :=
        fun mark => stops (.inr ⟨mark.1, .inr (by simp [mark.2])⟩)
      simp [gap, plain, line, block]
  | @blank b rest blank _ ih =>
    have step : gap .blanks count (b :: (rest ++ behind)) =
        gap .blanks (count + 1) (rest ++ behind) := by
      match rest ++ behind with
      | [] => simp [gap, blank]
      | c :: more => simp [gap, blank]
    rw [List.cons_append, step, ih, List.length_cons]
    congr 1
    omega
  | @lineComment text rest unbroken lineEnd found _ =>
    cases found.lineEnd_nil lineEnd
    have step : gap .blanks count (47 :: 47 :: (text ++ behind)) =
        gap .lineComment (count + 2) (text ++ behind) := by
      simp [gap]
    rw [List.append_nil, List.cons_append, List.cons_append, step,
      gap_lineComment unbroken (show AtLineEnd behind from lineEnd)]
    simp only [List.length_cons]
    congr 1
    omega
  | @blockComment tail rest comment _ ih =>
    have step : gap .blanks count (47 :: 42 :: (tail ++ (rest ++ behind))) =
        gap (.blockComment count 0) (count + 2) (tail ++ (rest ++ behind)) := by
      simp [gap]
    rw [List.cons_append, List.cons_append, List.append_assoc, step, gap_commentTail comment, ih]
    simp only [List.length_cons, List.length_append]
    congr 1
    omega

end ScriptHost
