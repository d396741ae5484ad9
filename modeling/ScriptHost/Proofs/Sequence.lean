import ScriptHost.Proofs.Progress
import ScriptHost.Proofs.Recovery
import ScriptHost.Proofs.Sequence.Statements

/-! Reading goes line by line. The items of a text that is a script, a newline and any other text
are the items of the first text and those of the second one, moved to where it stands. Nothing of
the second text gets into a statement of the first one: wherever a statement of a script may meet
the end of input, the end of its line does the same to it. -/

namespace ScriptHost

variable {levels levels' : Nat} {fuel fuel' : List Token} {c d : Cursor}

namespace Parse

/-- A run of two actions that succeeds is a run of each of them. -/
theorem bind_ok {α β : Type} {x : Parse α} {f : α → Parse β} {b : β} :
    (x >>= f) c = .ok b d ↔ ∃ a e, x c = .ok a e ∧ f a e = .ok b d := by
  change EStateM.bind x f c = _ ↔ _
  unfold EStateM.bind
  cases x c with
  | ok a e => exact ⟨fun run => ⟨a, e, rfl, run⟩, fun ⟨_, _, same, run⟩ => by cases same; exact run⟩
  | error e c' => exact ⟨nofun, nofun⟩

/-- A terminator is a newline, which is read, or what may follow, which is not. -/
theorem terminator_cases {u : Unit} (run : Parse.terminator c = .ok u d) :
    c.kind = .newline ∧ d = c.next ∨
      (c.kind = .symbol .rightBrace ∨ c.kind = .endOfInput) ∧ d = c := by
  unfold Parse.terminator at run
  change EStateM.bind Parse.peek _ c = _ at run
  unfold EStateM.bind at run
  rw [Parse.peek] at run
  dsimp only at run
  generalize c.kind = kind at run ⊢
  split at run
  · cases run
    exact .inl ⟨rfl, rfl⟩
  · cases run
    exact .inr ⟨.inl rfl, rfl⟩
  · cases run
    exact .inr ⟨.inr rfl, rfl⟩
  · cases run

theorem terminator_newline (line : c.kind = .newline) : Parse.terminator c = .ok () c.next := by
  unfold Parse.terminator
  change EStateM.bind Parse.peek _ c = _
  unfold EStateM.bind
  rw [Parse.peek, line]
  rfl

theorem terminator_brace (brace : c.kind = .symbol .rightBrace) :
    Parse.terminator c = .ok () c := by
  unfold Parse.terminator
  change EStateM.bind Parse.peek _ c = _
  unfold EStateM.bind
  rw [Parse.peek, brace]
  rfl

end Parse

/-! ### The seam -/

namespace Seam

variable {w : Seam}

/-- The cursor on the line behind the seam. -/
def start (w : Seam) : Cursor := ⟨w.behind, w.line.span⟩

/-- What follows a statement: more of the text, or the lines behind it. -/
def Goes (w : Seam) (c d : Cursor) : Prop := w.Together c d ∨ w.Spent c ∧ d = w.start

theorem terminator_goes {u : Unit} {c' : Cursor} (together : w.Together c d)
    (run : Parse.terminator c = .ok u c') :
    ∃ d', Parse.terminator d = .ok u d' ∧ w.Goes c' d' := by
  obtain ⟨goes, same, -, next⟩ | ⟨spent, rfl⟩ := together.cases
  · obtain ⟨line, rfl⟩ | ⟨brace | ends, rfl⟩ := Parse.terminator_cases run
    · exact ⟨d.next, Parse.terminator_newline (same.trans line), .inl next⟩
    · exact ⟨d, Parse.terminator_brace (same.trans brace), .inl together⟩
    · rw [ends] at goes
      cases goes
  · obtain ⟨line, -⟩ | ⟨-, rfl⟩ := Parse.terminator_cases run
    · rw [spent.kind] at line
      cases line
    · exact ⟨w.start, Parse.terminator_newline w.breaks, .inr ⟨spent, rfl⟩⟩

/-- A statement of the text is the same where more lines follow. -/
theorem item_goes {s : Stmt} {c' : Cursor} (together : w.Together c d)
    (run : Parse.item levels c = .ok s c') :
    ∃ d', Parse.item levels d = .ok s d' ∧ w.Goes c' d' := by
  obtain ⟨s', c₁, first, more⟩ := Parse.bind_ok.mp run
  obtain ⟨u, c₂, last, done⟩ := Parse.bind_ok.mp more
  cases done
  have found := (Firm.declaration levels).agree c d together
  rw [first] at found
  obtain ⟨d₁, first', together'⟩ | ⟨loose, -⟩ := found
  · obtain ⟨d₂, last', goes⟩ := terminator_goes together' last
    refine ⟨d₂, Parse.bind_ok.mpr ⟨s, d₁, first', ?_⟩, goes⟩
    exact Parse.bind_ok.mpr ⟨u, d₂, last', rfl⟩
  · cases loose

/-- The next item of the text, a statement, is the same where more lines follow; and where there is
no item any more, those lines are next. -/
theorem item?_goes (together : w.Together c d) :
    (c.item? levels = none → d.item? levels = w.start.item? levels) ∧
      ∀ s c', c.item? levels = some (.ok s, c') →
        ∃ d', d.item? levels = some (.ok s, d') ∧ w.Goes c' d' := by
  have plain := Cursor.skipNewlines_kind d.tokens d.last
  refine ⟨fun none => ?_, fun s c' some_ => ?_⟩
  · have ends := Cursor.item?_eq_none_iff.mp none
    obtain further | ⟨-, lines⟩ := together.skipNewlines
    · obtain ⟨goes, -⟩ | ⟨-, line⟩ := further.cases
      · rw [ends] at goes
        cases goes
      · have newline : (Cursor.skipNewlines d.tokens d.last).kind = .newline := by
          rw [line]
          exact w.breaks
        rw [newline] at plain
        cases plain
    · exact Cursor.item?_congr lines
  · obtain ⟨goes, run⟩ := Cursor.item?_eq_ok_iff.mp some_
    obtain further | ⟨spent, -⟩ := together.skipNewlines
    · obtain ⟨-, same, -, -⟩ | ⟨spent, -⟩ := further.cases
      · obtain ⟨d', run', goes'⟩ := item_goes further run
        exact ⟨d', Cursor.item?_eq_ok_iff.mpr ⟨same ▸ goes, run'⟩, goes'⟩
      · rw [spent.kind] at goes
        cases goes
    · rw [spent.kind] at goes
      cases goes

theorem item?_spent (spent : w.Spent c) : c.item? levels = none := by
  refine Cursor.item?_eq_none_iff.mpr ?_
  rw [spent.skipNewlines.kind]
  rfl

theorem Together.gone (h : w.Together c d) : d.Gone w.start := by
  obtain ⟨xs, -, second, -, inside⟩ := h
  refine ⟨xs ++ [w.line], by simp, ?_, ?_⟩
  · rw [second, start, List.append_assoc]
    rfl
  · refine List.forall_mem_append.mpr ⟨inside, List.forall_mem_singleton.mpr ?_⟩
    rw [w.breaks]
    rfl

/-- The items of a script are the same where more lines follow, and the items of those lines follow
them. -/
theorem itemsUpTo_goes {fuel'' : List Token} (goes : w.Goes c d)
    (enough : nestingBound c.tokens ≤ levels) (enough' : nestingBound d.tokens ≤ levels)
    (few : (ahead c.tokens).length ≤ fuel.length) (few' : (ahead d.tokens).length ≤ fuel'.length)
    (few'' : (ahead w.behind).length ≤ fuel''.length)
    (accepted : ∀ item ∈ c.itemsUpTo levels fuel, item.isOk) :
    d.itemsUpTo levels fuel' = c.itemsUpTo levels fuel ++ w.start.itemsUpTo levels fuel'' := by
  induction count : (ahead c.tokens).length using Nat.strongRecOn generalizing c d with
  | ind n ih =>
    subst count
    obtain together | ⟨spent, rfl⟩ := goes
    · obtain ⟨stop, go⟩ := @item?_goes levels _ _ _ together
      cases run : c.item? levels with
      | none =>
        have gone := together.gone
        have inside := Nat.le_trans (nestingBound_le_of_suffix gone.suffix) enough'
        rw [Cursor.itemsUpTo_none run, List.nil_append, Cursor.itemsUpTo_congr (stop run)]
        exact Cursor.itemsUpTo_bounds inside inside few''
          (Nat.le_trans (Nat.le_of_lt gone.ahead_lt) few')
      | some found =>
        obtain ⟨item, c'⟩ := found
        rw [Cursor.itemsUpTo_some enough few run] at accepted ⊢
        obtain ⟨ok, rest⟩ := List.forall_mem_cons.mp accepted
        cases item with
        | error e => cases ok
        | ok s =>
          obtain ⟨d', run', goes⟩ := go s c' run
          have gone := ((Cursor.item?_progress enough enough).2 _ _ run).1
          have gone' := ((Cursor.item?_progress enough' enough').2 _ _ run').1
          have same := ih _ gone.ahead_lt goes
            (Nat.le_trans (nestingBound_le_of_suffix gone.suffix) enough)
            (Nat.le_trans (nestingBound_le_of_suffix gone'.suffix) enough')
            (Nat.le_trans (Nat.le_of_lt gone.ahead_lt) few)
            (Nat.le_trans (Nat.le_of_lt gone'.ahead_lt) few') rest rfl
          rw [Cursor.itemsUpTo_some enough' few' run', same, List.cons_append]
    · rw [Cursor.itemsUpTo_none (item?_spent spent), List.nil_append]
      exact Cursor.itemsUpTo_bounds enough' enough' few'' few'

end Seam

/-! ### Scripts -/

theorem isOk_rebaseItem (base : Position) (item : Except SyntaxError Stmt) :
    (rebaseItem base item).isOk = item.isOk := by
  cases item <;> rfl

section

variable {first second : String} {body body' : List Stmt}

theorem TokenKind.isInvalid_of_isReadable {kind : TokenKind} (h : kind.isReadable) :
    kind.isInvalid = false := by
  cases kind <;> first | rfl | cases h

/-- The tokens of a script are no faults. -/
theorem valid_tokens (accepted : (parseModule first).isOk) :
    ∀ t ∈ tokens first, t.kind.isInvalid = false := by
  obtain ⟨whole, inside⟩ := tokens_eq_own first
  have own : ahead (tokens first) = ownTokens first := by
    rw [whole, ahead_append inside, ahead, List.takeWhile_cons_of_neg Bool.false_ne_true,
      List.append_nil]
  have readable : ∀ t ∈ ahead (Cursor.start (tokens first)).tokens, t.kind.isReadable :=
    Cursor.itemsUpTo_readable (Nat.le_refl _) (length_ahead_le _) (parseModule_isOk_iff.mp accepted)
  change ∀ t ∈ ahead (tokens first), _ at readable
  rw [own] at readable
  rw [whole]
  refine List.forall_mem_append.mpr ⟨fun t there => ?_, List.forall_mem_singleton.mpr rfl⟩
  exact TokenKind.isInvalid_of_isReadable (readable t there)

theorem nestingBound_append_le {us vs : List Token} (le : nestingBound us ≤ nestingBound vs)
    (ts : List Token) : nestingBound (ts ++ us) ≤ nestingBound (ts ++ vs) := by
  induction ts with
  | nil => exact le
  | cons t ts ih =>
    rw [List.cons_append, List.cons_append, nestingBound_cons, nestingBound_cons]
    exact Nat.add_le_add_left ih _

/-- The items of a script, a newline and another text are the items of the script and those of the
other text, moved to the line where it starts. -/
theorem items_script (accepted : (parseModule first).isOk) (second : String) :
    items (tokens (first ++ "\n" ++ second)) =
      items (tokens first) ++ (items (tokens second)).map (rebaseItem (nextLine first)) := by
  obtain ⟨alone, inside⟩ := tokens_eq_own first
  have both := tokens_lines (valid_tokens accepted) second
  let w : Seam := ⟨⟨.endOfInput, .point (Position.origin.after (Utf8.encode first))⟩, rfl,
    lineToken first, rfl, (tokens second).map (Token.rebase (nextLine first))⟩
  have together : w.Together (.start (tokens first)) (.start (tokens (first ++ "\n" ++ second))) :=
    ⟨ownTokens first, alone, both, rfl, inside⟩
  have enough : nestingBound (tokens first) ≤ nestingBound (tokens (first ++ "\n" ++ second)) := by
    rw [both, alone]
    refine nestingBound_append_le ?_ _
    rw [nestingBound_cons, nestingBound_cons]
    exact Nat.add_le_add_left (Nat.le_add_left 1 _) 1
  have enough' : nestingBound (tokens second) ≤
      nestingBound (tokens (first ++ "\n" ++ second)) := by
    rw [← nestingBound_rebase (nextLine first), both]
    exact nestingBound_le_of_suffix ⟨ownTokens first ++ [lineToken first], by simp⟩
  have own : (Cursor.start (tokens first)).itemsUpTo
      (nestingBound (tokens (first ++ "\n" ++ second))) (tokens first) = items (tokens first) :=
    Cursor.itemsUpTo_bounds (Nat.le_refl _) enough (length_ahead_le _) (length_ahead_le _)
  have lines : w.start.itemsUpTo (nestingBound (tokens (first ++ "\n" ++ second))) (tokens second) =
      (items (tokens second)).map (rebaseItem (nextLine first)) :=
    itemsUpTo_moved (Position.proper_origin.after _) enough' (Nat.le_refl _)
  have few : (ahead w.behind).length ≤ (tokens second).length := by
    refine Nat.le_trans (length_ahead_le _) (Nat.le_of_eq ?_)
    rw [List.length_map]
  rw [← own, ← lines]
  refine Seam.itemsUpTo_goes (.inl together) enough (Nat.le_refl _) (length_ahead_le _)
    (length_ahead_le _) few ?_
  rw [own]
  exact parseModule_isOk_iff.mp accepted

/-- A script, a newline and another script are a script. -/
theorem parseModule_lines (accepted : parseModule first = .ok body)
    (accepted' : parseModule second = .ok body') :
    parseModule (first ++ "\n" ++ second) =
      .ok (body ++ body'.map (Stmt.rebase (nextLine first))) := by
  have isOk : (parseModule first).isOk := by rw [accepted]; rfl
  rw [parseModule_eq_ok_iff, items_script isOk, parseModule_eq_ok_iff.mp accepted,
    parseModule_eq_ok_iff.mp accepted', List.map_append, List.map_map, List.map_map]
  rfl

end

/-- The items of a script, a newline and another text are the items of the script and those of the
other text, moved to the line where it starts; so the whole is a script if and only if the other
text is one. -/
theorem items_lines {first : String} (accepted : (parseModule first).isOk) (second : String) :
    items (tokens (first ++ "\n" ++ second)) =
      items (tokens first) ++ (items (tokens second)).map (rebaseItem (nextLine first)) ∧
    ((parseModule (first ++ "\n" ++ second)).isOk ↔ (parseModule second).isOk) := by
  have lines := items_script accepted second
  refine ⟨lines, ?_⟩
  rw [parseModule_isOk_iff, parseModule_isOk_iff, lines, List.forall_mem_append,
    List.forall_mem_map]
  simp only [isOk_rebaseItem]
  exact and_iff_right (parseModule_isOk_iff.mp accepted)

/-- An `else` on the next line does not belong to the statement in front. -/
theorem else_on_next_line :
    (parseModule "if (a) b").isOk ∧
      items (tokens ("if (a) b" ++ "\n" ++ "else c")) =
        items (tokens "if (a) b") ++
          (items (tokens "else c")).map (rebaseItem (nextLine "if (a) b")) ∧
      ((parseModule ("if (a) b" ++ "\n" ++ "else c")).isOk ↔ (parseModule "else c").isOk) := by
  have accepted : (parseModule "if (a) b").isOk := by decide +kernel
  exact ⟨accepted, items_lines accepted "else c"⟩

end ScriptHost
