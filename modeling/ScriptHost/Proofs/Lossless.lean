import ScriptHost.Proofs.Lexing.Rows

/-! Lexing loses nothing. The tokens of a text cover it but for blanks and comments, in order and
without overlap, and every place that they carry is a true place of the text. -/

namespace ScriptHost

open Position (newline)

/-- Whether the bytes of a token can have newlines that are no tokens. -/
def TokenKind.isOpaque : TokenKind → Bool
  | string _ | invalid _ => true
  | _ => false

/-- Whether the byte with `n` bytes before it stands in a block comment, closed, that no token
overlaps. The bytes are those from the place `p` on. -/
def InComment (p : Position) (bytes : List UInt8) (ts : List Token) (n : Nat) : Prop :=
  ∃ before tail behind, bytes = before ++ 47 :: 42 :: (tail ++ behind) ∧ CommentTail tail ∧
    before.length ≤ n ∧ n < before.length + 2 + tail.length ∧
    ∀ t ∈ ts, t.span.stop.offset ≤ p.offset + before.length ∨
      p.offset + (before.length + 2 + tail.length) ≤ t.span.start.offset

/-- The offset up to which the last of some tokens reaches. -/
def reach (ts : List Token) : Nat := (ts.getLast?.map (·.span.stop.offset)).getD 0

/-- What tokens say of the bytes that they come from. -/
structure Lossless (bytes : List UInt8) (ts : List Token) : Prop where
  /-- The end of input is the last token, at the end of the bytes, and no other one is. -/
  ends : ∃ others, ts = others ++ [⟨.endOfInput, .point (Position.origin.after bytes)⟩] ∧
    ∀ t ∈ others, t.kind.isEnd = false ∧ t.span.start.offset < t.span.stop.offset
  ordered : ts.Pairwise fun t u => t.span.stop.offset ≤ u.span.start.offset
  /-- Blanks and closed comments stand in front of each token. -/
  gaps : ∀ before t behind, ts = before ++ t :: behind →
    GapText (bytes.drop t.span.start.offset)
      ((bytes.take t.span.start.offset).drop (reach before))
  newlines : ∀ before behind, bytes = before ++ newline :: behind →
    (∃ t ∈ ts, t.kind = .newline ∧ t.span.start.offset = before.length ∧
      t.span.stop.offset = before.length + 1) ∨
    (∃ t ∈ ts, t.kind.isOpaque ∧ t.span.start.offset ≤ before.length ∧
      before.length < t.span.stop.offset) ∨
    InComment .origin bytes ts before.length
  places : ∀ t ∈ ts, t.span.TrueIn bytes
  codePlaces : ∀ t ∈ ts, ∀ source start, .code source start ∈ t.kind.parts →
    start.TrueIn bytes ∧ t.span.start.offset < start.offset ∧ start.offset < t.span.stop.offset

variable {p : Position} {bytes text behind : List UInt8} {ts : List Token}

theorem append_eq_append_cons {α : Type} {as bs xs ys : List α} {x : α}
    (h : as ++ bs = xs ++ x :: ys) :
    (∃ zs, as = xs ++ x :: zs ∧ ys = zs ++ bs) ∨ ∃ zs, xs = as ++ zs ∧ bs = zs ++ x :: ys := by
  obtain ⟨zs, front, back⟩ | ⟨zs, front, back⟩ := List.append_eq_append_iff.mp h
  · exact .inr ⟨zs, front, back⟩
  · obtain _ | ⟨z, zs⟩ := zs
    · exact .inr ⟨[], by simpa using front.symm, back.symm⟩
    · cases back
      exact .inl ⟨zs, front, rfl⟩

/-! ### Newlines -/

/-- A newline of a gap stands in one of its block comments. -/
theorem GapText.newline_inComment (h : GapText behind text) :
    ∀ {xs ys : List UInt8}, text = xs ++ newline :: ys →
      ∃ before tail rest, text = before ++ 47 :: 42 :: (tail ++ rest) ∧ CommentTail tail ∧
        before.length ≤ xs.length ∧ xs.length < before.length + 2 + tail.length := by
  induction h with
  | nil =>
    intro xs ys cut
    exact absurd cut.symm (by simp)
  | @blank b rest blank _ ih =>
    intro xs ys cut
    obtain _ | ⟨x, xs⟩ := xs
    · cases cut
      exact absurd blank (by decide)
    · rw [List.cons_append, List.cons.injEq] at cut
      obtain ⟨before, tail, more, there, comment, le, lt⟩ := ih cut.2
      refine ⟨b :: before, tail, more, by rw [there]; rfl, comment, ?_, ?_⟩
      · exact Nat.succ_le_succ le
      · simp only [List.length_cons]
        omega
  | @lineComment text rest unbroken lineEnd found _ =>
    intro xs ys cut
    cases found.lineEnd_nil lineEnd
    have there : newline ∈ 47 :: 47 :: (text ++ []) := by
      rw [cut]
      exact List.mem_append_right _ List.mem_cons_self
    rw [List.append_nil, List.mem_cons, List.mem_cons] at there
    obtain slash | slash | there := there
    · exact absurd slash (by decide)
    · exact absurd slash (by decide)
    · exact absurd there unbroken
  | @blockComment tail rest comment _ ih =>
    intro xs ys cut
    obtain ⟨zs, front, rfl⟩ | ⟨zs, rfl, back⟩ :=
      append_eq_append_cons (show (47 :: 42 :: tail) ++ rest = _ from cut)
    · refine ⟨[], tail, rest, rfl, comment, Nat.zero_le _, ?_⟩
      have length := congrArg List.length front
      simp only [List.length_cons, List.length_append] at length
      simp only [List.length_nil]
      omega
    · obtain ⟨before, tail', more, there, comment', le, lt⟩ := ih back
      refine ⟨47 :: 42 :: (tail ++ before), tail', more, by simp [there], comment', ?_, ?_⟩
      · simp only [List.length_cons, List.length_append]
        omega
      · simp only [List.length_cons, List.length_append]
        omega

/-! ### Tokens -/

/-- A newline among the bytes of a token is the whole of it, unless the token is a string or a
fault. -/
theorem Worded.newline_cases {kind : TokenKind} {xs ys : List UInt8} (h : Worded p kind text)
    (cut : text = xs ++ Position.newline :: ys) :
    (kind = .newline ∧ xs = [] ∧ ys = []) ∨ kind.isOpaque := by
  cases h with
  | newline =>
    obtain _ | ⟨x, xs⟩ := xs
    · cases cut
      exact .inl ⟨rfl, rfl, rfl⟩
    · rw [List.cons_append, List.cons.injEq] at cut
      exact absurd cut.2.symm (by simp)
  | word _ _ unbroken =>
    rw [cut] at unbroken
    exact absurd (List.mem_append_right _ List.mem_cons_self) unbroken
  | string | invalid => exact .inr rfl

/-- No token starts in front of the bytes. -/
theorem Cut.start_le (h : Cut p bytes ts) {t : Token} (there : t ∈ ts) :
    p.offset ≤ t.span.start.offset := by
  obtain rfl | ⟨before, text, behind, -, -, place⟩ := h.token_cases there
  · rw [Span.point, Position.after_offset]
    exact Nat.le_add_right _ _
  · rw [place, Position.after_offset]
    exact Nat.le_add_right _ _

theorem Cut.ordered (h : Cut p bytes ts) :
    ts.Pairwise fun t u => t.span.stop.offset ≤ u.span.start.offset := by
  induction h with
  | stop => exact List.pairwise_singleton _ _
  | token _ _ rest ih => exact .cons (fun _ there => rest.start_le there) ih

/-- In front of each token stands a gap, from the end of the token before it. -/
theorem Cut.gaps (h : Cut p bytes ts) {before behind : List Token} {t : Token}
    (there : ts = before ++ t :: behind) :
    ∃ done gap rest, bytes = done ++ (gap ++ rest) ∧ GapText rest gap ∧
      p.offset + done.length = (before.getLast?.map (·.span.stop.offset)).getD p.offset ∧
      t.span.start.offset = p.offset + (done ++ gap).length := by
  induction h generalizing before with
  | @stop p gap found =>
    obtain _ | ⟨u, before⟩ := before
    · cases there
      refine ⟨[], gap, [], by simp, found, rfl, ?_⟩
      exact Position.after_offset _ _
    · rw [List.cons_append, List.cons.injEq] at there
      exact absurd there.2.symm (by simp)
  | @token p gap kind text rest ts found worded _ ih =>
    obtain _ | ⟨u, before⟩ := before
    · cases there
      exact ⟨[], gap, text ++ rest, rfl, found, rfl, Position.after_offset _ _⟩
    · rw [List.cons_append, List.cons.injEq] at there
      obtain ⟨rfl, there⟩ := there
      obtain ⟨done, gap', rest', rfl, found', reached, place⟩ := ih there
      refine ⟨gap ++ (text ++ done), gap', rest', by simp, found', ?_, ?_⟩
      · rw [List.getLast?_cons, Option.map_some, Option.getD_some]
        simp only [Position.after_offset, List.length_append] at reached ⊢
        rw [← Nat.add_assoc, ← Nat.add_assoc, reached]
        cases before.getLast? with
        | none => simp
        | some => rfl
      · rw [place]
        simp only [Position.after_offset, List.length_append]
        omega

/-- A comment behind a token is one behind what stands in front of the token, too. -/
theorem InComment.shift {t : Token} {xs : List UInt8} (gap : List UInt8)
    (place : t.span.stop = (p.after gap).after text)
    (h : InComment t.span.stop bytes ts xs.length) :
    InComment p (gap ++ (text ++ bytes)) (t :: ts) (gap ++ (text ++ xs)).length := by
  obtain ⟨before, tail, behind, rfl, comment, le, lt, apart⟩ := h
  rw [place] at apart
  simp only [Position.after_offset] at apart
  refine ⟨gap ++ (text ++ before), tail, behind, by simp, comment, ?_, ?_, ?_⟩
  · simp only [List.length_append]
    omega
  · simp only [List.length_append]
    omega
  · intro u mem
    simp only [List.length_append]
    obtain ⟨⟩ | ⟨_, mem⟩ := mem
    · left
      simp only [place, Position.after_offset]
      omega
    · obtain front | back := apart u mem
      · left
        omega
      · right
        omega

theorem Cut.newlines (h : Cut p bytes ts) {xs ys : List UInt8} (cut : bytes = xs ++ newline :: ys) :
    (∃ t ∈ ts, t.kind = .newline ∧ t.span.start.offset = p.offset + xs.length ∧
      t.span.stop.offset = p.offset + xs.length + 1) ∨
    (∃ t ∈ ts, t.kind.isOpaque ∧ t.span.start.offset ≤ p.offset + xs.length ∧
      p.offset + xs.length < t.span.stop.offset) ∨
    InComment p bytes ts xs.length := by
  induction h generalizing xs with
  | @stop p gap found =>
    obtain ⟨before, tail, rest, there, comment, le, lt⟩ := found.newline_inComment cut
    refine .inr (.inr ⟨before, tail, rest, there, comment, le, lt, ?_⟩)
    intro t mem
    rw [List.mem_singleton.mp mem]
    right
    simp [Span.point, there]
    omega
  | @token p gap kind text rest ts found worded after ih =>
    obtain ⟨zs, front, -⟩ | ⟨zs, rfl, inside⟩ := append_eq_append_cons cut
    · obtain ⟨before, tail, more, there, comment, le, lt⟩ := found.newline_inComment front
      refine .inr (.inr
        ⟨before, tail, more ++ (text ++ rest), by simp [there], comment, le, lt, ?_⟩)
      have behind : before.length + 2 + tail.length ≤ gap.length := by
        simp only [there, List.length_cons, List.length_append]
        omega
      intro t mem
      obtain ⟨⟩ | ⟨_, mem⟩ := mem
      · right
        rw [Position.after_offset]
        omega
      · right
        have := after.start_le mem
        simp only [Position.after_offset] at this
        omega
    · obtain ⟨zs', front, -⟩ | ⟨zs', rfl, back⟩ := append_eq_append_cons inside
      · obtain own | opaque_ := worded.newline_cases front
        · obtain ⟨rfl, rfl, rfl⟩ := own
          refine .inl ⟨_, List.mem_cons_self, rfl, ?_, ?_⟩
          · simp
          · simp [front]
        · refine .inr (.inl ⟨_, List.mem_cons_self, opaque_, ?_, ?_⟩)
          · simp
          · simp [front]
            omega
      · have place : ((p.after gap).after text).offset + zs'.length =
            p.offset + (gap ++ (text ++ zs')).length := by
          simp only [Position.after_offset, List.length_append]
          omega
        have tokens := ih back
        rw [place] at tokens
        obtain ⟨t, mem, own⟩ | ⟨t, mem, inside⟩ | comment := tokens
        · exact .inl ⟨t, List.mem_cons_of_mem _ mem, own⟩
        · exact .inr (.inl ⟨t, List.mem_cons_of_mem _ mem, inside⟩)
        · exact .inr (.inr (comment.shift gap rfl))

/-- The tokens of a script cover it but for blanks and comments, in order, and their places are
true. -/
theorem tokens_lossless (source : String) : Lossless (Utf8.encode source) (tokens source) := by
  have cut := tokensFrom_cut .origin (Utf8.encode source)
  have sits := (row_tokens source).sits
  exact {
    ends := cut.ends
    ordered := cut.ordered
    gaps := by
      intro before t behind there
      obtain ⟨done, gap, rest, bytes, found, reached, place⟩ := cut.gaps there
      rw [Position.origin, Nat.zero_add] at reached place
      rw [reach, ← reached, place, bytes, ← List.append_assoc, List.drop_left, List.take_left,
        List.drop_left]
      exact found
    newlines := by
      intro before behind there
      have newlines := cut.newlines there
      rwa [Position.origin, Nat.zero_add] at newlines
    places := fun t there => (sits t there).span
    codePlaces := fun t there source start part => ((sits t there).code source start part).place }

end ScriptHost
