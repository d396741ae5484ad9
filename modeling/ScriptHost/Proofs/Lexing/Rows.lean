import ScriptHost.Proofs.Lexing.Displaced

/-! Tokens in a row: they stand in a text one after the other, at true places. The tokens of a
script are such a row, and so are those of interpolated source where it stands in the script. -/

namespace ScriptHost

variable {text bytes : List UInt8} {top lo lo' : Nat} {p : Position}

/-- The place `start` of a text, inside the span `s`, is where it has some interpolated source. -/
structure SourceAt (text : List UInt8) (s : Span) (source : String) (start : Position) : Prop where
  there : ∃ before behind, text = before ++ (Utf8.encode source ++ behind) ∧
    start = Position.origin.after before
  front : s.start.offset < start.offset
  back : start.offset + source.utf8ByteSize < s.stop.offset

theorem SourceAt.place {s : Span} {source : String} {start : Position}
    (h : SourceAt text s source start) :
    start.TrueIn text ∧ s.start.offset < start.offset ∧ start.offset < s.stop.offset := by
  obtain ⟨before, behind, rfl, rfl⟩ := h.there
  exact ⟨Position.trueIn_after _ _, h.front, Nat.lt_of_le_of_lt (Nat.le_add_right _ _) h.back⟩

/-- The span of a token is a true one of a text, and the source in the token is where it says. -/
structure Token.Sits (text : List UInt8) (t : Token) : Prop where
  span : t.span.TrueIn text
  code : ∀ source start, .code source start ∈ t.kind.parts → SourceAt text t.span source start

/-- Tokens between two offsets of a text, none of which starts in front of the end of another. -/
inductive Row (text : List UInt8) (top : Nat) : Nat → List Token → Prop
  | nil {lo : Nat} : lo ≤ top → Row text top lo []
  | cons {lo : Nat} {t : Token} {ts : List Token} : lo ≤ t.span.start.offset → t.Sits text →
    Row text top t.span.stop.offset ts → Row text top lo (t :: ts)

namespace Row

variable {t : Token} {ts : List Token}

theorem mono (h : Row text top lo ts) (le : lo' ≤ lo) : Row text top lo' ts := by
  cases h with
  | nil inside => exact .nil (Nat.le_trans le inside)
  | cons start sits rest => exact .cons (Nat.le_trans le start) sits rest

theorem le_top (h : Row text top lo ts) : lo ≤ top := by
  induction h with
  | nil inside => exact inside
  | cons start sits _ ih => exact Nat.le_trans start (Nat.le_trans sits.span.ordered ih)

theorem sits (h : Row text top lo ts) : ∀ t ∈ ts, t.Sits text := by
  induction h with
  | nil => exact nofun
  | cons _ sits _ ih => exact List.forall_mem_cons.mpr ⟨sits, ih⟩

end Row

/-! ### The tokens of a text -/

theorem Worded.sits {kind : TokenKind} {before word : List UInt8}
    (h : Worded (.after .origin before) kind word) (behind : List UInt8) :
    Token.Sits (before ++ (word ++ behind))
      ⟨kind, ⟨.after .origin before, (Position.origin.after before).after word⟩⟩ where
  span := by
    refine ⟨Position.trueIn_after _ _, ?_, ?_⟩
    · rw [← Position.after_append, ← List.append_assoc]
      exact Position.trueIn_after _ _
    · rw [Position.after_offset _ word]
      exact Nat.le_add_right _ _
  code := by
    intro source start part
    obtain ⟨front, code, rest, rfl, rfl, rfl⟩ := h.codeIn.found part
    obtain ⟨more, whole⟩ := Utf8.encode_textOf_isPrefix code
    have short := Utf8.size_textOf_le code
    refine ⟨⟨before ++ (front ++ [37, 40]), more ++ (41 :: rest ++ behind), ?_, ?_⟩, ?_, ?_⟩
    · nth_rewrite 1 [← whole]
      simp
    · simp
    · simp only [Position.after_offset, List.length_append, List.length_cons]
      omega
    · simp only [Position.after_offset, List.length_append, List.length_cons, List.length_nil]
      omega

/-- The tokens of some bytes of a text are a row between the ends of the bytes. -/
theorem Cut.row {ts : List Token} (h : Cut p bytes ts) {before behind : List UInt8}
    (whole : text = before ++ (bytes ++ behind)) (place : p = .after .origin before) :
    Row text (p.offset + bytes.length) p.offset ts := by
  induction h generalizing before with
  | @stop p gap _ =>
    subst place
    have last : (Position.after (.after .origin before) gap).TrueIn text := by
      rw [whole, ← List.append_assoc, ← Position.after_append]
      exact Position.trueIn_after _ _
    refine .cons ?_ ⟨⟨last, last, Nat.le_refl _⟩, nofun⟩ (.nil ?_)
    · simp only [Span.point, Position.after_offset]
      omega
    · simp only [Span.point, Position.after_offset]
      omega
  | @token p gap kind word rest ts _ worded _ ih =>
    subst place
    have next := ih (show text = (before ++ (gap ++ word)) ++ (rest ++ behind) by simp [whole])
      (by rw [Position.after_append, Position.after_append])
    rw [← Position.after_append] at worded
    have sits := worded.sits (rest ++ behind)
    rw [show before ++ gap ++ (word ++ (rest ++ behind)) = text by simp [whole],
      Position.after_append] at sits
    refine .cons ?_ sits ?_
    · rw [Position.after_offset _ gap]
      exact Nat.le_add_right _ _
    · refine cast (congrArg (Row text · _ ts) ?_) next
      simp only [Position.after_offset, List.length_append]
      omega

theorem row_tokens (source : String) :
    Row (Utf8.encode source) source.utf8ByteSize 0 (tokens source) := by
  have whole : Utf8.encode source = [] ++ (Utf8.encode source ++ []) := by simp
  have row := (tokensFrom_cut .origin (Utf8.encode source)).row whole rfl
  rwa [Utf8.length_encode, Position.origin, Nat.zero_add] at row

/-- Interpolated source, moved onto the text that it stands in. -/
theorem SourceAt.row {s : Span} {source : String} {start : Position}
    (h : SourceAt text s source start) :
    Row text (start.offset + source.utf8ByteSize) start.offset
      ((tokens source).map (Token.rebase start)) := by
  obtain ⟨before, behind, whole, place⟩ := h.there
  have row := (tokensFrom_cut start (Utf8.encode source)).row whole place
  rwa [Utf8.length_encode, ← Position.rebase_origin start,
    tokensFrom_rebase Position.proper_origin] at row

end ScriptHost
