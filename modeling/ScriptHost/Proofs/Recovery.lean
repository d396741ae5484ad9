import ScriptHost.Proofs.Reading.Items

/-! Recovery from a fault. What is broken is skipped up to a newline outside the braces that are
opened on the way; braces that were opened before the fault do not count, although they should. If
that is the newline behind a text, the items of what follows are those that it has alone, moved; so
a fault hides nothing behind its own line. -/

namespace ScriptHost

open Position (newline)

/-! ### Braces -/

/-- How many braces are open behind a token; a brace that closes none of them counts for nothing. -/
def nextDepth (depth : Nat) (t : Token) : Nat :=
  if t.kind.isSymbol .leftBrace then depth + 1
  else if t.kind.isSymbol .rightBrace then depth - 1
  else depth

/-- The braces of some tokens are closed, and only open ones are; `depth` braces are open in front
of them. -/
def Balanced (depth : Nat) : List Token → Prop
  | [] => depth = 0
  | t :: ts => (t.kind.isSymbol .rightBrace → 0 < depth) ∧ Balanced (nextDepth depth t) ts

/-- Every newline among some tokens stands in braces; `depth` braces are open in front of them. -/
def Sheltered (depth : Nat) : List Token → Prop
  | [] => True
  | t :: ts => (t.kind.isNewline → 0 < depth) ∧ Sheltered (nextDepth depth t) ts

instance Balanced.decidable (depth : Nat) (ts : List Token) : Decidable (Balanced depth ts) :=
  match ts with
  | [] => inferInstanceAs (Decidable (depth = 0))
  | t :: ts => @instDecidableAnd _ _ inferInstance (Balanced.decidable (nextDepth depth t) ts)

instance Sheltered.decidable (depth : Nat) (ts : List Token) : Decidable (Sheltered depth ts) :=
  match ts with
  | [] => inferInstanceAs (Decidable True)
  | t :: ts => @instDecidableAnd _ _ inferInstance (Sheltered.decidable (nextDepth depth t) ts)

theorem Balanced.drop {depth : Nat} {us ts : List Token} (h : Balanced depth (us ++ ts)) :
    ∃ depth', Balanced depth' ts := by
  induction us generalizing depth with
  | nil => exact ⟨depth, h⟩
  | cons u us ih => exact ih h.2

theorem nextDepth_mono {m n : Nat} (le : m ≤ n) (t : Token) : nextDepth m t ≤ nextDepth n t := by
  unfold nextDepth
  split
  · exact Nat.succ_le_succ le
  · split
    · exact Nat.sub_le_sub_right le 1
    · exact le

/-- Where all braces are closed with some open in front, they are closed with fewer open, too. -/
theorem Balanced.closed {m n : Nat} {ts : List Token} (h : Balanced n ts) (le : m ≤ n) :
    ts.foldl nextDepth m = 0 := by
  induction ts generalizing m n with
  | nil => exact Nat.le_zero.mp (Nat.le_trans le (Nat.le_of_eq h))
  | cons t ts ih => exact ih h.2 (nextDepth_mono le t)

/-! ### Recovery -/

/-- Recovery stops at a newline behind tokens whose newlines stand in braces opened among them. -/
theorem recover_sheltered {pending : List Token} {depth : Nat} {t : Token} (line : t.kind.isNewline)
    (sheltered : Sheltered depth pending) (closed : pending.foldl nextDepth depth = 0)
    (inside : ∀ u ∈ pending, u.kind.isEnd = false) (behind : List Token) (last : Span) :
    (Cursor.recover depth (pending ++ t :: behind) last).tokens = t :: behind := by
  induction pending generalizing depth last with
  | nil =>
    have none : depth = 0 := closed
    subst none
    unfold Cursor.recover
    simp [line]
  | cons u pending ih =>
    rw [List.forall_mem_cons] at inside
    obtain ⟨inner, rest⟩ := sheltered
    have goes : (u.kind.isEnd || (u.kind.isNewline && depth == 0)) = false := by
      rw [inside.1, Bool.false_or]
      cases newline : u.kind.isNewline with
      | false => rfl
      | true =>
        have positive := inner newline
        simpa using Nat.ne_of_gt positive
    rw [List.foldl_cons] at closed
    rw [List.cons_append, Cursor.recover, goes]
    simp only [Bool.false_eq_true, if_false]
    unfold nextDepth at rest closed
    split
    · rename_i opens
      rw [if_pos opens] at rest closed
      exact ih rest closed inside.2 u.span
    · rename_i opens
      rw [if_neg opens] at rest closed
      split
      · rename_i closes
        rw [if_pos closes] at rest closed
        exact ih rest closed inside.2 u.span
      · rename_i closes
        rw [if_neg closes] at rest closed
        exact ih rest closed inside.2 u.span

/-! ### Two texts -/

theorem encode_newline : Utf8.encode "\n" = [newline] := by decide

/-- Where the text behind a text and a newline starts. -/
def nextLine (first : String) : Position := Position.origin.after (Utf8.encode (first ++ "\n"))

/-- The tokens of a text without the end of input. -/
def ownTokens (source : String) : List Token := (tokens source).dropLast

theorem tokens_eq_own (source : String) :
    tokens source = ownTokens source ++
      [⟨.endOfInput, .point (Position.origin.after (Utf8.encode source))⟩] ∧
      ∀ t ∈ ownTokens source, t.kind.isEnd = false := by
  obtain ⟨others, whole, inside⟩ := (tokensFrom_cut .origin (Utf8.encode source)).ends
  have own : ownTokens source = others := by
    rw [ownTokens, tokens, whole, List.dropLast_concat]
  rw [own]
  exact ⟨whole, fun t there => (inside t there).1⟩

/-- The newline token behind a text. -/
def lineToken (first : String) : Token :=
  ⟨.newline, ⟨Position.origin.after (Utf8.encode first), nextLine first⟩⟩

/-- The tokens of a text, a newline and another text. -/
theorem tokens_lines {first : String}
    (valid : ∀ t ∈ tokens first, t.kind.isInvalid = false) (second : String) :
    tokens (first ++ "\n" ++ second) = ownTokens first ++
      lineToken first :: (tokens second).map (Token.rebase (nextLine first)) := by
  have place : nextLine first = (Position.origin.after (Utf8.encode first)).step newline := by
    rw [nextLine, Utf8.encode_append, encode_newline, Position.after_append]
    rfl
  have lines := (tokensFrom_lexed .origin (Utf8.encode first)).lines (fun t there fault same => by
    have no := valid t there
    rw [same] at no
    cases no) (Utf8.encode second)
  rw [← place] at lines
  rw [tokens, Utf8.encode_append, Utf8.encode_append, encode_newline, List.append_assoc,
    List.singleton_append, lines]
  have moved := tokensFrom_rebase Position.proper_origin (nextLine first) (Utf8.encode second)
  rw [Position.rebase_origin] at moved
  rw [moved]
  rfl

/-- The tokens of a text and a newline. -/
theorem tokens_line {first : String} (valid : ∀ t ∈ tokens first, t.kind.isInvalid = false) :
    tokens (first ++ "\n") =
      ownTokens first ++ [lineToken first, ⟨.endOfInput, .point (nextLine first)⟩] := by
  have lines := tokens_lines valid ""
  have nothing : tokens "" = [⟨.endOfInput, .point .origin⟩] := by
    rw [tokens, @tokensFrom_stop .origin (Utf8.encode "") .nil]
    rfl
  rw [String.append_empty, nothing] at lines
  exact lines

/-- An item of the text that starts at the next line does not depend on the newline in front. -/
theorem itemsUpTo_newline {t : Token} (line : t.kind.isNewline) (levels : Nat)
    (fuel ts : List Token) (last : Span) :
    Cursor.itemsUpTo levels fuel ⟨t :: ts, last⟩ = Cursor.itemsUpTo levels fuel ⟨ts, t.span⟩ := by
  cases fuel with
  | nil => rfl
  | cons u fuel =>
    have skips : Cursor.skipNewlines (t :: ts) last = Cursor.skipNewlines ts t.span := by
      rw [Cursor.skipNewlines, if_pos line]
    unfold Cursor.itemsUpTo Cursor.item?
    dsimp only
    rw [skips]

/-- The items of a text where it stands behind another one. -/
theorem itemsUpTo_moved {source : String} {base : Position} (proper : base.Proper) {levels : Nat}
    {fuel : List Token} {last : Span} (le : nestingBound (tokens source) ≤ levels)
    (enough : (tokens source).length ≤ fuel.length) :
    Cursor.itemsUpTo levels fuel ⟨(tokens source).map (Token.rebase base), last⟩ =
      (items (tokens source)).map (rebaseItem base) := by
  have alike := Tails.alike_start (w := ⟨base, proper, [], []⟩) rfl rfl
    (Nat.le_refl (nestingBound (tokens source))) last
  exact Tails.itemsUpTo_rebase rfl alike (Nat.le_refl _) le (Nat.le_refl _) enough

variable {own pending behind : List Token} {t : Token}

/-- As long as an item of a text and a newline does not need what is behind the newline, it is the
same whatever follows. -/
theorem item_lines {stop : Token} {line whole : String} (alone : tokens line = own ++ [t, stop])
    (followed : tokens whole = own ++ t :: behind) {e : SyntaxError} {rest : Cursor}
    (stops : Parse.item (nestingBound (tokens line)) (.start (tokens line)) = .error e rest)
    (left : rest.tokens = pending ++ [t, stop]) :
    ∃ d, Parse.item (nestingBound (tokens whole)) (.start (tokens whole)) = .error e d ∧
      d.tokens = pending ++ t :: behind := by
  let w : Tails := ⟨.origin, Position.proper_origin, [stop], behind⟩
  have same (xs : List Token) : xs.map (Token.rebase w.base) = xs :=
    (List.map_congr_left fun u _ => Token.origin_rebase u).trans (List.map_id _)
  have alike : w.Alike (nestingBound (own ++ [t])) (.start (tokens line))
      (.start (tokens whole)) := by
    refine ⟨own ++ [t], ⟨by simp, ?_, Nat.le_refl _, nofun⟩, ?_, ?_⟩
    · intro u there
      refine @tokens_proper _ line ?_
      rw [alone, List.append_cons]
      exact List.mem_append_left _ there
    · exact alone.trans (List.append_cons own t [stop])
    · rw [same]
      exact followed.trans (List.append_cons own t behind)
  have enough (us : List Token) : nestingBound (own ++ [t]) ≤ nestingBound (own ++ t :: us) := by
    rw [List.append_cons own t us]
    exact Tails.nestingBound_le_append _ us
  have reads := Tails.Sim.item (w := w) (enough [stop]) (enough behind)
  rw [← alone, ← followed] at reads
  have found := reads.agree _ _ alike
  rw [stops] at found
  obtain escaped | ⟨d, run, k, ys, -, rest₁, rest₂⟩ := found
  · have few := escaped.2
    rw [left] at few
    simp [w] at few
  · have split : ys = pending ++ [t] := by
      rw [left, List.append_cons] at rest₁
      exact (List.append_cancel_right rest₁).symm
    refine ⟨d, ?_, ?_⟩
    · rw [run, SyntaxError.rebase, Span.origin_rebase]
    · rw [rest₂, same, split, List.append_assoc]
      rfl

/-- A text that is no script although its tokens are no faults. Its braces are closed, and its
newlines stand in them. -/
structure Broken (source : String) : Prop where
  valid : ∀ t ∈ tokens source, t.kind.isInvalid = false
  balanced : Balanced 0 (tokens source)
  lines : Sheltered 0 (tokens source)
  faulty : (parseModule source).isOk = false

instance (source : String) : Decidable (Broken source) :=
  decidable_of_iff ((∀ t ∈ tokens source, t.kind.isInvalid = false) ∧ Balanced 0 (tokens source) ∧
      Sheltered 0 (tokens source) ∧ (parseModule source).isOk = false)
    ⟨fun ⟨valid, balanced, lines, faulty⟩ => ⟨valid, balanced, lines, faulty⟩,
      fun broken => ⟨broken.valid, broken.balanced, broken.lines, broken.faulty⟩⟩

/-- A broken text starts with a token that is neither a newline nor the end of input. -/
theorem Broken.starts {first : String} (broken : Broken first) :
    ∃ t own, ownTokens first = t :: own ∧ t.kind.isNewline = false ∧ t.kind.isEnd = false := by
  obtain ⟨whole, inside⟩ := tokens_eq_own first
  obtain ⟨t, own, some_⟩ : ∃ t own, ownTokens first = t :: own := by
    refine List.exists_cons_of_ne_nil fun nothing => ?_
    have faulty := broken.faulty
    rw [parseModule, whole, nothing] at faulty
    cases faulty
  have lines := broken.lines
  rw [whole, some_] at lines
  refine ⟨t, own, some_, ?_, inside t (by rw [some_]; exact List.mem_cons_self)⟩
  exact Bool.eq_false_iff.mpr fun newline => absurd (lines.1 newline) (Nat.lt_irrefl 0)

section

variable {first : String} {e : SyntaxError} {rest : Cursor}

/-- What is left of a broken text where its reading stops is skipped, whatever follows. -/
theorem Broken.skipped (broken : Broken first)
    (stops : Parse.item (nestingBound (tokens (first ++ "\n"))) (.start (tokens (first ++ "\n"))) =
      .error e rest)
    (left : rest.tokens = pending ++ [lineToken first, ⟨.endOfInput, .point (nextLine first)⟩])
    (sheltered : Sheltered 0 pending) (behind : List Token) (last : Span) :
    (Cursor.recover 0 (pending ++ lineToken first :: behind) last).tokens =
      lineToken first :: behind := by
  obtain ⟨whole, inside⟩ := tokens_eq_own first
  obtain ⟨front, split⟩ : pending <:+ ownTokens first := by
    have read := (Tails.Sim.item (w := ⟨.origin, Position.proper_origin, [], []⟩)
      (Nat.le_refl (nestingBound (tokens (first ++ "\n")))) (Nat.le_refl _)).forward
      (.start (tokens (first ++ "\n")))
    rw [stops, Parse.rest, left, Cursor.start, tokens_line broken.valid] at read
    exact Tails.suffix_of_append_suffix read
  have closed : pending.foldl nextDepth 0 = 0 := by
    have balanced := broken.balanced
    rw [whole, ← split, List.append_assoc] at balanced
    obtain ⟨depth, rest⟩ := balanced.drop
    have closed := rest.closed (Nat.zero_le depth)
    rw [List.foldl_append] at closed
    exact closed
  refine recover_sheltered rfl sheltered closed (fun u there => inside u ?_) _ _
  rw [← split]
  exact List.mem_append_right _ there

/-- A fault hides nothing behind its line. If the reading of a broken text and a newline stops at a
fault in front of that newline, and the newlines of the text that are still to be read then stand in
braces that are still to be read, too, then the items of the text, the newline and any other text
are the fault and the items of the other text alone, moved behind the newline. -/
theorem items_after_fault (broken : Broken first)
    (stops : Parse.item (nestingBound (tokens (first ++ "\n"))) (.start (tokens (first ++ "\n"))) =
      .error e rest)
    (left : rest.tokens = pending ++ [lineToken first, ⟨.endOfInput, .point (nextLine first)⟩])
    (sheltered : Sheltered 0 pending) (second : String) :
    items (tokens (first ++ "\n" ++ second)) =
      .error e :: (items (tokens second)).map (rebaseItem (nextLine first)) := by
  have both := tokens_lines broken.valid second
  obtain ⟨d, run, rest'⟩ := item_lines (tokens_line broken.valid) both stops left
  have skipped := broken.skipped stops left sheltered
    ((tokens second).map (Token.rebase (nextLine first))) d.last
  rw [← rest'] at skipped
  obtain ⟨t, own, some_, plain, goes⟩ := broken.starts
  rw [some_] at both
  have item : (Cursor.start (tokens (first ++ "\n" ++ second))).item?
      (nestingBound (tokens (first ++ "\n" ++ second))) =
        some (.error e, Cursor.recover 0 d.tokens d.last) := by
    refine Cursor.item?_error ?_ ?_ run
    · rw [both]
      exact plain
    · rw [both]
      exact goes
  have enough : nestingBound (tokens second) ≤
      nestingBound (tokens (first ++ "\n" ++ second)) := by
    rw [← nestingBound_rebase (nextLine first), both]
    exact nestingBound_le_of_suffix ⟨t :: own ++ [lineToken first], by simp⟩
  have fuel : tokens (first ++ "\n" ++ second) = t :: (own ++
      lineToken first :: (tokens second).map (Token.rebase (nextLine first))) := both
  unfold items
  generalize nestingBound (tokens (first ++ "\n" ++ second)) = levels at item enough ⊢
  rw [fuel] at item ⊢
  rw [Cursor.itemsUpTo, item]
  dsimp only
  generalize Cursor.recover 0 d.tokens d.last = behind at skipped ⊢
  obtain ⟨ts, last⟩ := behind
  dsimp only at skipped
  rw [skipped, itemsUpTo_newline rfl, itemsUpTo_moved]
  · rfl
  · exact (Position.proper_origin.after _)
  · exact enough
  · simp only [List.length_append, List.length_cons, List.length_map]
    omega

end

theorem stray_parenthesis_skipped :
    Broken ") \x7b\n\x7d" ∧ items (tokens (") \x7b\n\x7d" ++ "\n" ++ "b")) =
      .error ⟨.missingExpression, ⟨⟨0, 1, 1⟩, ⟨1, 1, 2⟩⟩⟩ ::
        (items (tokens "b")).map (rebaseItem (nextLine ") \x7b\n\x7d")) := by
  have broken : Broken ") \x7b\n\x7d" := by decide +kernel
  have stops : Parse.item (nestingBound (tokens (") \x7b\n\x7d" ++ "\n")))
      (.start (tokens (") \x7b\n\x7d" ++ "\n"))) =
        .error ⟨.missingExpression, ⟨⟨0, 1, 1⟩, ⟨1, 1, 2⟩⟩⟩
          (.start (tokens (") \x7b\n\x7d" ++ "\n"))) := by with_unfolding_all rfl
  exact ⟨broken, items_after_fault broken stops (tokens_line broken.valid) (by decide +kernel) "b"⟩

/-- A fault need not be alone. The first text is none when it goes on: a line ends in an operator,
so that the next one belongs to it. In the second text the reader misses what recovery promises, to
skip the rest of the broken statement with every brace that the statement opened, up to the next
line outside of all braces. It counts only the braces that it skips, and the one of the class was
read before the fault; so it stops at the end of a line inside the class, and reports the brace that
closes the class as a fault of its own. -/
theorem fault_not_alone :
    (Broken "a +" ∧ ¬ ∃ e, items (tokens ("a +" ++ "\n" ++ "b")) =
      .error e :: (items (tokens "b")).map (rebaseItem (nextLine "a +"))) ∧
    (Broken "class A \x7b\n+\n\x7d" ∧
      ¬ ∃ e, items (tokens ("class A \x7b\n+\n\x7d" ++ "\n" ++ "b")) =
        .error e :: (items (tokens "b")).map (rebaseItem (nextLine "class A \x7b\n+\n\x7d"))) := by
  have other {source whole : String} (count : (items (tokens whole)).length ≠ 2) :
      ¬ ∃ e, items (tokens whole) =
        .error e :: (items (tokens "b")).map (rebaseItem (nextLine source)) := by
    rintro ⟨e, found⟩
    have one : (items (tokens "b")).length = 1 := by decide +kernel
    rw [found, List.length_cons, List.length_map, one] at count
    exact count rfl
  -- The first text has one item in all, the second one has three.
  exact ⟨⟨by decide +kernel, other (by decide +kernel)⟩, by decide +kernel,
    other (by decide +kernel)⟩

end ScriptHost
