import ScriptHost.Proofs.Account.Statements
import ScriptHost.Proofs.Progress

/-! A script that is accepted accounts for its tokens. Whatever a script says, its statements say,
and in the same order; they say nothing else; and no two statements of one list stand on one line.
-/

namespace ScriptHost

open Parse

variable {c d : Cursor} {levels : Nat}

/-! ### A closing brace starts no statement -/

section

variable {x : Parse Expr} (brace : c.kind = .symbol .rightBrace)
include brace

theorem unary_brace : Spends (unary x) c fun _ _ _ => False := by
  have ops : Spends unaryOps c fun _ _ d => d = c := by
    refine .loop (I := fun _ _ d => d = c) (fun ops ts d same => .peek ?_) rfl
    subst same
    rw [brace]
    exact .pure rfl
  refine ops.bind fun ops ts d same => ?_
  subst same
  have primary : Spends (primary x) d fun _ _ _ => False := by
    refine .peekSpan (.peek ?_)
    rw [brace]
    exact .fail _
  exact (Spends.never primary.never)

theorem operands_brace (level : Nat) : Spends (operands x level) c fun _ _ _ => False := by
  induction level with
  | zero => exact unary_brace brace
  | succ level ih => exact ih.never

theorem item_brace (levels : Nat) : Spends (item levels) c fun _ _ _ => False := by
  have expression (levels : Nat) : Spends (expressionUpTo levels) c fun _ _ _ => False := by
    cases levels with
    | zero => exact .fail _
    | succ levels => exact (operands_brace brace 6).never
  have declaration : Spends (nestedUpTo (expressionUpTo levels) levels).declaration c
      fun _ _ _ => False := by
    cases levels with
    | zero => exact .fail _
    | succ n =>
      refine .peek ?_
      rw [brace]
      refine .peek ?_
      rw [brace]
      have nested : (nestedUpTo (expressionUpTo (n + 1)) n).expression =
          expressionUpTo (n + 1) := by
        cases n <;> rfl
      rw [nested]
      exact (expression (n + 1)).never
  exact declaration.never

end

/-! ### The lines of a script -/

/-- Statements that are all the items from a cursor on are written on lines up to the end of input,
behind the statements that were read before. -/
theorem items_written {fuel : List Token} {body front : List Stmt} {b : Bool}
    {before : List TokenKind} (enough : nestingBound c.tokens ≤ levels)
    (few : (ahead c.tokens).length ≤ fuel.length)
    (read : c.itemsUpTo levels fuel = body.map .ok)
    (lines : Lines Stmt.Written b front before) (closing : b = false → c.Closing) :
    ∃ b' ts, ∃ d : Cursor, c.kinds = ts ++ d.kinds ∧ d.kind.isEnd ∧
      Lines Stmt.Written b' (front ++ body) (before ++ ts) := by
  induction body generalizing c b front before with
  | nil =>
    obtain ⟨n, split, same⟩ := Spends.skipNewlines_kinds c.tokens c.last
    have none_ : c.item? levels = none := by
      cases run : c.item? levels with
      | none => rfl
      | some found =>
        rw [Cursor.itemsUpTo_some enough few run] at read
        cases read
    obtain ⟨b', rest, -⟩ := lines.skipped closing same
    exact ⟨b', _, _, split, Cursor.item?_eq_none_iff.mp none_, by rwa [List.append_nil]⟩
  | cons s body ih =>
    obtain ⟨item, d, run⟩ : ∃ item d, c.item? levels = some (item, d) := by
      cases run : c.item? levels with
      | none =>
        rw [Cursor.itemsUpTo_none run] at read
        cases read
      | some found => exact ⟨found.1, found.2, rfl⟩
    rw [Cursor.itemsUpTo_some enough few run, List.map_cons, List.cons.injEq] at read
    obtain ⟨rfl, read⟩ := read
    obtain ⟨goes, found⟩ := Cursor.item?_eq_ok_iff.mp run
    obtain ⟨n, split, same⟩ := Spends.skipNewlines_kinds c.tokens c.last
    generalize Cursor.skipNewlines c.tokens c.last = start at goes found split same
    obtain ⟨_, split', us, vs, written, rfl, ends⟩ := Spends.item levels s d found
    obtain ⟨b', fresh, shut⟩ := lines.skipped closing same
    -- The statement starts a line: neither a closing brace nor the end of input starts one.
    obtain rfl : b' = true := by
      refine (Bool.not_eq_false _).mp fun late => ?_
      obtain brace | end_ := shut late
      · obtain ⟨_, _, none⟩ := item_brace (TokenKind.eq_symbol brace) levels s d found
        exact none.elim
      · rw [goes] at end_
        cases end_
    have gone := ((Cursor.item?_progress enough enough).2 _ d run).1
    have enough' := Nat.le_trans (nestingBound_le_of_suffix gone.suffix) enough
    have few' := Nat.le_trans (Nat.le_of_lt gone.ahead_lt) few
    have onward {b' : Bool} (here : Lines Stmt.Written b' (front ++ [s])
        (before ++ List.replicate n .newline ++ us ++ vs)) (closing : b' = false → d.Closing) :
        ∃ b' ts, ∃ e : Cursor, c.kinds = ts ++ e.kinds ∧ e.kind.isEnd ∧
          Lines Stmt.Written b' (front ++ s :: body) (before ++ ts) := by
      obtain ⟨b'', ts, e, split'', stop, all⟩ := ih enough' few' read here closing
      refine ⟨b'', List.replicate n .newline ++ (us ++ (vs ++ ts)), e, ?_, stop, ?_⟩
      · change c.tokens.map Token.kind = _
        rw [split, split', split'']
        simp only [List.append_assoc]
      · simpa only [List.append_assoc, List.singleton_append] using all
    have here := fresh.item written
    obtain rfl | ⟨rfl, closing⟩ := ends
    · exact onward here.newline nofun
    · exact onward (by rwa [List.append_nil]) fun _ => closing

/-- A script that is accepted has no token at fault, at any depth of interpolation. What its tokens
say is what its statements say: no number, string, name, field or constant is lost, is there twice
or stands elsewhere. The tokens up to the end of input are those that the statements are written
with, on lines: so a newline, at least, is between two statements of a list, for instance of the
script itself. -/
theorem parseModule_accounts {source : String} {body : List Stmt}
    (accepted : parseModule source = .ok body) :
    Faultless source ∧ sourceLeaves source = Stmt.leavesAll body ∧
    (∃ b ts, tokenKinds source = ts ++ [.endOfInput] ∧ Lines Stmt.Written b body ts) ∧
    ∀ front s t behind, body = front ++ s :: t :: behind → ∃ before us n vs after,
      tokenKinds source = before ++ (us ++ (List.replicate (n + 1) .newline ++ (vs ++ after))) ∧
      s.Written us ∧ t.Written vs := by
  have read : (Cursor.start (tokens source)).itemsUpTo _ (tokens source) = body.map .ok :=
    parseModule_eq_ok_iff.mp accepted
  obtain ⟨b, ts, d, split, ends, lines⟩ :=
    items_written (c := .start (tokens source)) (Nat.le_refl _) (length_ahead_le _) read .nil nofun
  have kinds : (tokenKinds source).map (TokenKind.rebase .origin) = ts ++ d.kinds := by
    refine Eq.trans ?_ split
    rw [tokenKinds, List.map_map]
    exact List.map_congr_left fun t _ => congrArg Token.kind (Token.origin_rebase t)
  obtain ⟨left, faultless, told⟩ := (statements_carry lines).source kinds ends
  have all : tokenKinds source = ts ++ [.endOfInput] := by rw [← left]; exact split
  refine ⟨faultless, told, ⟨b, ts, all, lines⟩, fun front s t behind parts => ?_⟩
  obtain ⟨before, us, n, vs, after, cut, here, there⟩ := lines.between parts
  refine ⟨before, us, n, vs, after ++ [.endOfInput], ?_, here, there⟩
  rw [all, ← List.nil_append ts, cut]
  simp only [List.append_assoc]

/-- The word `in` of the header is left out; the one in the loop is a variable. The string is a leaf
with a leaf inside. -/
theorem loop_accounts :
    let source :=
      "import \"all\" for all\nfor (box in all) \x7b\n  in = true\n  fit(_x, \"%(box)!\")\n\x7d"
    let leaves : List Leaf := [.string [.literal "all"], .name "all", .name "box", .name "all",
      .name "in", .bool true, .name "fit", .field "_x", .string [.code [.name "box"], .literal "!"]]
    ∃ body, parseModule source = .ok body ∧ Faultless source ∧ sourceLeaves source = leaves ∧
      Stmt.leavesAll body = leaves := by
  intro source leaves
  have accepted : (parseModule source).isOk = true := by decide +kernel
  have said : sourceLeaves source = leaves := by with_unfolding_all rfl
  cases run : parseModule source with
  | error faults =>
    rw [run] at accepted
    cases accepted
  | ok body =>
    obtain ⟨faultless, told, -⟩ := parseModule_accounts run
    exact ⟨body, rfl, faultless, said, told ▸ said⟩

end ScriptHost
