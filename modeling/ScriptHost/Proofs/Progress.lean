import ScriptHost.Proofs.Progress.Statements
import ScriptHost.Proofs.Reading.Items

/-! The reading of a script makes progress and comes to an end, whatever its tokens are. Each item,
a statement or a fault, uses up a token that is not the end of input: a statement because its rules
read one, a fault because the recovery goes past the token where the item starts. The bounds that
the reader carries are never reached, for interpolated source as little as for the script itself. -/

namespace ScriptHost

/-! ### Items -/

section

variable {levels levels' : Nat} {fuel fuel' : List Token} {b c d : Cursor}

/-- One token at least is between two cursors, and none of those between them is the end of input.
-/
def Cursor.Gone (c d : Cursor) : Prop :=
  ∃ xs, xs ≠ [] ∧ c.tokens = xs ++ d.tokens ∧ ∀ t ∈ xs, t.kind.isEnd = false

/-- The tokens in front of the end of input. -/
def ahead (ts : List Token) : List Token := ts.takeWhile fun t => !t.kind.isEnd

theorem ahead_append {xs : List Token} (inside : ∀ t ∈ xs, t.kind.isEnd = false)
    (ys : List Token) : ahead (xs ++ ys) = xs ++ ahead ys := by
  refine List.takeWhile_append_of_pos fun t there => ?_
  rw [inside t there]
  rfl

theorem length_ahead_le (ts : List Token) : (ahead ts).length ≤ ts.length :=
  (List.takeWhile_sublist _).length_le

/-- A fault other than the lack of levels, if an item is a fault. -/
def Settled (item : Except SyntaxError Stmt) : Prop := ∀ e, item = .error e → e.fault ≠ .nesting

namespace Cursor

theorem Gone.suffix (h : c.Gone d) : d.tokens <:+ c.tokens := by
  obtain ⟨xs, -, split, -⟩ := h
  exact ⟨xs, split.symm⟩

theorem Gone.ahead_lt (h : c.Gone d) : (ahead d.tokens).length < (ahead c.tokens).length := by
  obtain ⟨xs, some_, split, inside⟩ := h
  have positive := List.length_pos_iff.mpr some_
  rw [split, ahead_append inside, List.length_append]
  omega

theorem Gone.after (h : c.Gone d) (before : b.Leads 0 c) : b.Gone d := by
  obtain ⟨xs, some_, split, inside⟩ := h
  obtain ⟨ys, split', -, readable⟩ := before
  refine ⟨ys ++ xs, List.append_ne_nil_of_right_ne_nil ys some_, ?_, ?_⟩
  · rw [split', split, List.append_assoc]
  · intro t there
    obtain left | right := List.mem_append.mp there
    · exact TokenKind.isEnd_of_isReadable (readable t left)
    · exact inside t right

theorem Leads.gone (h : c.Leads 1 d) : c.Gone d := by
  obtain ⟨xs, split, count, readable⟩ := h
  exact ⟨xs, List.length_pos_iff.mp count, split, fun t there =>
    TokenKind.isEnd_of_isReadable (readable t there)⟩

/-- Recovery skips no end of input. -/
theorem recover_skips (depth : Nat) (tokens : List Token) (last : Span) :
    ∃ xs, tokens = xs ++ (recover depth tokens last).tokens ∧ ∀ t ∈ xs, t.kind.isEnd = false := by
  induction tokens generalizing depth last with
  | nil => exact ⟨[], rfl, by simp⟩
  | cons t rest ih =>
    have skips (deeper : Nat) (goes : t.kind.isEnd = false) :
        ∃ xs, t :: rest = xs ++ (recover deeper rest t.span).tokens ∧
          ∀ u ∈ xs, u.kind.isEnd = false := by
      obtain ⟨xs, split, inside⟩ := ih deeper t.span
      refine ⟨t :: xs, ?_, List.forall_mem_cons.mpr ⟨goes, inside⟩⟩
      rw [List.cons_append, ← split]
    unfold recover
    split
    · exact ⟨[], rfl, by simp⟩
    · rename_i goes
      have goes : t.kind.isEnd = false := by
        rw [Bool.or_eq_true, not_or] at goes
        exact Bool.eq_false_iff.mpr goes.1
      split
      · exact skips _ goes
      · split
        · exact skips _ goes
        · exact skips _ goes

/-- Recovery from a fault goes past the token where the item starts, if nothing else did. -/
theorem Leads.recovered (h : c.Leads 0 d) (goes : c.kind.isEnd = false)
    (line : c.kind.isNewline = false) : c.Gone (recover 0 d.tokens d.last) := by
  have shorter := recover_shorter goes line h.suffix
  obtain ⟨xs, split, -, readable⟩ := h
  obtain ⟨ys, split', inside⟩ := recover_skips 0 d.tokens d.last
  rw [split', ← List.append_assoc] at split
  refine ⟨xs ++ ys, ?_, split, ?_⟩
  · rintro none
    rw [split, none] at shorter
    exact Nat.lt_irrefl _ shorter
  · intro t there
    obtain left | right := List.mem_append.mp there
    · exact TokenKind.isEnd_of_isReadable (readable t left)
    · exact inside t right

/-- An item uses up a token, and is no lack of levels; other numbers of levels would do as well. -/
theorem item?_progress (enough : nestingBound c.tokens ≤ levels)
    (enough' : nestingBound c.tokens ≤ levels') :
    c.item? levels' = c.item? levels ∧
      ∀ item d, c.item? levels = some (item, d) → c.Gone d ∧ Settled item := by
  have skipped : c.Leads 0 (Cursor.skipNewlines c.tokens c.last) := .skipNewlines _ _
  have line := skipNewlines_kind c.tokens c.last
  unfold item?
  dsimp only
  generalize Cursor.skipNewlines c.tokens c.last = start at skipped line
  cases goes : start.kind.isEnd with
  | true => exact ⟨rfl, nofun⟩
  | false =>
    have inside := skipped.nesting
    have found := Consumes.item (Nat.le_trans inside enough) (Nat.le_trans inside enough') start
      (Nat.le_refl _)
    unfold Proceeds at found
    cases run : Parse.item levels start with
    | ok s rest =>
      rw [run] at found
      rw [found.1]
      refine ⟨rfl, ?_⟩
      rintro _ _ ⟨⟩
      exact ⟨found.2.gone.after skipped, nofun⟩
    | error e rest =>
      rw [run] at found
      rw [found.1]
      refine ⟨rfl, ?_⟩
      rintro _ _ ⟨⟩
      refine ⟨(found.2.2.recovered goes line).after skipped, ?_⟩
      rintro _ ⟨⟩
      exact found.2.1

/-- Behind the newlines in front of the end of input, it is still the end. -/
theorem item?_skipNewlines (none : c.item? levels = none) :
    (Cursor.skipNewlines c.tokens c.last).item? levels = Option.none := by
  unfold item? at none ⊢
  dsimp only at none ⊢
  rw [skipNewlines_self (skipNewlines_kind c.tokens c.last)]
  exact none

/-! ### Calls -/

/-- The cursor after a call for the next item: the newlines in front are skipped, whether an item
follows or not. -/
def afterCall (levels : Nat) (c : Cursor) : Cursor :=
  match c.item? levels with
  | some (_, d) => d
  | none => Cursor.skipNewlines c.tokens c.last

/-- The answer to a call for the next item, behind so many calls before. -/
def answer (levels : Nat) : Nat → Cursor → Option (Except SyntaxError Stmt)
  | 0, c => (c.item? levels).map Prod.fst
  | calls + 1, c => answer levels calls (c.afterCall levels)

/-- After the end, there is nothing any more. -/
theorem answer_end (none : c.item? levels = none) (calls : Nat) :
    c.answer levels calls = Option.none := by
  induction calls generalizing c with
  | zero => rw [answer, none, Option.map_none]
  | succ calls ih =>
    have next : c.afterCall levels = Cursor.skipNewlines c.tokens c.last := by
      rw [afterCall, none]
    rw [answer, next]
    exact ih (item?_skipNewlines none)

/-- The calls give the items one by one, and then nothing any more. -/
theorem answer_itemsUpTo {fuel : List Token} (enough : nestingBound c.tokens ≤ levels)
    (enough' : nestingBound c.tokens ≤ levels') (few : (ahead c.tokens).length ≤ fuel.length)
    (calls : Nat) : c.answer levels' calls = (c.itemsUpTo levels fuel)[calls]? := by
  obtain ⟨same, gone⟩ := item?_progress enough enough'
  induction fuel generalizing c calls with
  | nil =>
    -- No token is left that an item could use up.
    have none : c.item? levels' = none := by
      rw [same]
      refine Option.eq_none_iff_forall_ne_some.mpr fun found run => ?_
      have less := (gone found.1 found.2 run).1.ahead_lt
      rw [List.length_nil] at few
      omega
    rw [answer_end none, itemsUpTo, List.getElem?_nil]
  | cons t fuel ih =>
    unfold itemsUpTo
    cases run : c.item? levels with
    | none =>
      rw [run] at same
      exact answer_end same calls
    | some found =>
      obtain ⟨item, d⟩ := found
      rw [run] at same
      dsimp only
      cases calls with
      | zero => rw [answer, same, Option.map_some, List.getElem?_cons_zero]
      | succ calls =>
        have next : c.afterCall levels' = d := by rw [afterCall, same]
        have way := (gone item d run).1
        have inside := nestingBound_le_of_suffix way.suffix
        have fits := Nat.le_trans inside enough
        have fits' := Nat.le_trans inside enough'
        obtain ⟨same', gone'⟩ := item?_progress fits fits'
        have less := Nat.lt_of_lt_of_le way.ahead_lt few
        rw [answer, next, List.getElem?_cons_succ]
        exact ih fits fits' (Nat.le_of_lt_succ less) calls same' gone'

theorem itemsUpTo_settled {fuel : List Token} (enough : nestingBound c.tokens ≤ levels) :
    (c.itemsUpTo levels fuel).length ≤ (ahead c.tokens).length ∧
      ∀ item ∈ c.itemsUpTo levels fuel, Settled item := by
  induction fuel generalizing c with
  | nil => exact ⟨Nat.zero_le _, List.forall_mem_nil _⟩
  | cons t fuel ih =>
    unfold itemsUpTo
    cases run : c.item? levels with
    | none => exact ⟨Nat.zero_le _, List.forall_mem_nil _⟩
    | some found =>
      obtain ⟨item, d⟩ := found
      obtain ⟨way, settled⟩ := (item?_progress enough enough).2 item d run
      obtain ⟨few, rest⟩ := ih (Nat.le_trans (nestingBound_le_of_suffix way.suffix) enough)
      refine ⟨?_, List.forall_mem_cons.mpr ⟨settled, rest⟩⟩
      exact Nat.lt_of_le_of_lt few way.ahead_lt

/-! ### Items and their bounds -/

/-- How many levels and items are allowed does not matter as long as the tokens need no more. -/
theorem itemsUpTo_bounds (enough : nestingBound c.tokens ≤ levels)
    (enough' : nestingBound c.tokens ≤ levels') (few : (ahead c.tokens).length ≤ fuel.length)
    (few' : (ahead c.tokens).length ≤ fuel'.length) :
    c.itemsUpTo levels' fuel' = c.itemsUpTo levels fuel := by
  refine List.ext_getElem? fun calls => ?_
  rw [← answer_itemsUpTo enough enough' few, ← answer_itemsUpTo enough' enough' few']

theorem itemsUpTo_none (run : c.item? levels = none) : c.itemsUpTo levels fuel = [] := by
  cases fuel with
  | nil => rfl
  | cons t fuel => rw [itemsUpTo, run]

theorem itemsUpTo_some {item : Except SyntaxError Stmt} (enough : nestingBound c.tokens ≤ levels)
    (few : (ahead c.tokens).length ≤ fuel.length) (run : c.item? levels = some (item, d)) :
    c.itemsUpTo levels fuel = item :: d.itemsUpTo levels fuel := by
  have gone := ((item?_progress enough enough).2 item d run).1
  have less := gone.ahead_lt
  have inside := Nat.le_trans (nestingBound_le_of_suffix gone.suffix) enough
  cases fuel with
  | nil =>
    rw [List.length_nil] at few
    omega
  | cons t fuel =>
    rw [List.length_cons] at few
    rw [itemsUpTo, run]
    refine congrArg (item :: ·) (itemsUpTo_bounds inside inside ?_ ?_)
    · exact Nat.le_trans (Nat.le_of_lt less) few
    · exact Nat.le_of_lt_succ (Nat.lt_of_lt_of_le less few)

/-- Items start behind the newlines in front. -/
theorem item?_congr
    (same : Cursor.skipNewlines c.tokens c.last = Cursor.skipNewlines d.tokens d.last) :
    c.item? levels = d.item? levels := by
  rw [item?, item?, same]

theorem itemsUpTo_congr (same : c.item? levels = d.item? levels) :
    c.itemsUpTo levels fuel = d.itemsUpTo levels fuel := by
  cases fuel with
  | nil => rfl
  | cons t fuel => rw [itemsUpTo, itemsUpTo, same]

theorem item?_eq_none_iff : c.item? levels = none ↔
    (Cursor.skipNewlines c.tokens c.last).kind.isEnd := by
  unfold item?
  dsimp only
  cases (Cursor.skipNewlines c.tokens c.last).kind.isEnd with
  | true => exact ⟨fun _ => rfl, fun _ => rfl⟩
  | false =>
    rw [if_neg Bool.false_ne_true]
    refine ⟨fun none => ?_, nofun⟩
    split at none <;> cases none

theorem item?_eq_ok_iff {s : Stmt} : c.item? levels = some (.ok s, d) ↔
    (Cursor.skipNewlines c.tokens c.last).kind.isEnd = false ∧
      Parse.item levels (Cursor.skipNewlines c.tokens c.last) = .ok s d := by
  unfold item?
  dsimp only
  generalize Cursor.skipNewlines c.tokens c.last = start
  cases start.kind.isEnd with
  | true => exact ⟨nofun, fun found => Bool.noConfusion found.1⟩
  | false =>
    rw [if_neg Bool.false_ne_true]
    cases Parse.item levels start with
    | ok s' d' => simp
    | error e d' => simp

/-! ### Readable tokens -/

theorem Leads.readable {k : Nat} (h : c.Leads k d)
    (rest : ∀ t ∈ ahead d.tokens, t.kind.isReadable) :
    ∀ t ∈ ahead c.tokens, t.kind.isReadable := by
  obtain ⟨xs, split, -, readable⟩ := h
  rw [split, ahead_append fun t there => TokenKind.isEnd_of_isReadable (readable t there)]
  exact List.forall_mem_append.mpr ⟨readable, rest⟩

theorem ahead_of_isEnd (ends : c.kind.isEnd) : ahead c.tokens = [] := by
  obtain ⟨_ | ⟨t, rest⟩, last⟩ := c
  · rfl
  · have stop : t.kind.isEnd = true := ends
    rw [ahead, List.takeWhile_cons_of_neg]
    simp [stop]

/-- Where all items are statements, all tokens could be read. -/
theorem itemsUpTo_readable (enough : nestingBound c.tokens ≤ levels)
    (few : (ahead c.tokens).length ≤ fuel.length)
    (accepted : ∀ item ∈ c.itemsUpTo levels fuel, item.isOk) :
    ∀ t ∈ ahead c.tokens, t.kind.isReadable := by
  induction count : (ahead c.tokens).length using Nat.strongRecOn generalizing c with
  | ind n ih =>
    subst count
    have skipped : c.Leads 0 (Cursor.skipNewlines c.tokens c.last) := .skipNewlines _ _
    cases run : c.item? levels with
    | none =>
      refine skipped.readable ?_
      rw [ahead_of_isEnd (item?_eq_none_iff.mp run)]
      exact nofun
    | some found =>
      obtain ⟨item, d⟩ := found
      have way := ((item?_progress enough enough).2 item d run).1
      have inside := Nat.le_trans (nestingBound_le_of_suffix way.suffix) enough
      rw [itemsUpTo_some enough few run, List.forall_mem_cons] at accepted
      have rest := ih _ way.ahead_lt inside (Nat.le_trans (Nat.le_of_lt way.ahead_lt) few)
        accepted.2 rfl
      cases item with
      | error e => cases accepted.1
      | ok s =>
        have read := Consumes.item (Nat.le_refl levels) (Nat.le_refl levels) _
          (Nat.le_trans skipped.nesting enough)
        unfold Proceeds at read
        rw [(item?_eq_ok_iff.mp run).2] at read
        exact (skipped.trans read.2).readable rest

end Cursor

/-! ### Scripts -/

/-- Results without errors are all there is, told by any two functions that pick errors and results.
-/
theorem filterMap_ok {ε α : Type} {error? : Except ε α → Option ε} {ok? : Except ε α → Option α}
    (errors : ∀ e, error? (.error e) = some e) (none_ : ∀ a, error? (.ok a) = none)
    (oks : ∀ a, ok? (.ok a) = some a) {found : List (Except ε α)} {as : List α} :
    found.filterMap error? = [] ∧ found.filterMap ok? = as ↔ found = as.map .ok := by
  induction found generalizing as with
  | nil => cases as <;> simp
  | cons item found ih =>
    cases item with
    | error e =>
      rw [List.filterMap_cons_some (errors e)]
      cases as <;> simp
    | ok a =>
      rw [List.filterMap_cons_none (none_ a), List.filterMap_cons_some (oks a)]
      cases as with
      | nil => simp
      | cons b as =>
        rw [List.map_cons, List.cons.injEq, List.cons.injEq, Except.ok.injEq, and_left_comm, ih]

/-- A text is a script if all of its items are statements. -/
theorem parseModule_eq_ok_iff {source : String} {body : List Stmt} :
    parseModule source = .ok body ↔ items (tokens source) = body.map .ok := by
  unfold parseModule
  dsimp only
  split
  · rename_i none_
    rw [Except.ok.injEq]
    refine Iff.trans ⟨fun same => ⟨List.isEmpty_iff.mp none_, same⟩, And.right⟩
      (filterMap_ok ?_ ?_ ?_)
    · exact fun _ => rfl
    · exact fun _ => rfl
    · exact fun _ => rfl
  · rename_i some_
    refine ⟨nofun, fun found => absurd ?_ some_⟩
    rw [found, List.isEmpty_iff]
    simp

theorem parseModule_isOk_iff {source : String} :
    (parseModule source).isOk ↔ ∀ item ∈ items (tokens source), item.isOk := by
  have oks {found : List (Except SyntaxError Stmt)} (all : ∀ item ∈ found, item.isOk) :
      ∃ body, found = List.map .ok body := by
    induction found with
    | nil => exact ⟨[], rfl⟩
    | cons item found ih =>
      obtain ⟨first, rest⟩ := List.forall_mem_cons.mp all
      obtain ⟨body, rfl⟩ := ih rest
      cases item with
      | error e => cases first
      | ok s => exact ⟨s :: body, rfl⟩
  refine ⟨fun accepted item there => ?_, fun all => ?_⟩
  · cases run : parseModule source with
    | error errors =>
      rw [run] at accepted
      cases accepted
    | ok body =>
      rw [parseModule_eq_ok_iff.mp run] at there
      obtain ⟨s, -, rfl⟩ := List.mem_map.mp there
      rfl
  · obtain ⟨body, found⟩ := oks all
    rw [parseModule_eq_ok_iff.mpr found]
    rfl

end

/-! ### The end of the reading -/

/-- The reading of any tokens comes to an end, for instance of the tokens of a text where some in
front are dropped and any number of the others is kept. Each item uses up a token in front of the
end of input, so that there are no more items than such tokens; a call for the next item gives the
next of them, and nothing when they have all been given. The reader never lacks levels, and finds
the same with more of them: it does not matter how deep interpolated source is nested. -/
theorem reading_ends (ts : List Token) :
    (∀ c d : Cursor, ∀ item levels, c.tokens <:+ ts → nestingBound ts ≤ levels →
      c.item? levels = some (item, d) → c.Gone d ∧ Settled item) ∧
    (items ts).length ≤ (ahead ts).length ∧ (∀ item ∈ items ts, Settled item) ∧
    ∀ levels ≥ nestingBound ts, ∀ calls,
      (Cursor.start ts).answer levels calls = (items ts)[calls]? := by
  have whole : nestingBound (Cursor.start ts).tokens ≤ nestingBound ts := Nat.le_refl _
  obtain ⟨few, settled⟩ := @Cursor.itemsUpTo_settled _ _ ts whole
  refine ⟨fun c d item levels part enough run => ?_, few, settled, fun levels enough calls => ?_⟩
  · have small := Nat.le_trans (nestingBound_le_of_suffix part) enough
    exact (Cursor.item?_progress small small).2 item d run
  · exact Cursor.answer_itemsUpTo whole enough (length_ahead_le ts) calls

/-- A text that is cut off has no end of input. Its one item here is a fault, behind three tokens.
-/
example : (items ((tokens "if (a) b").take 3)).length = 1 ∧
    (ahead ((tokens "if (a) b").take 3)).length = 3 := by decide +kernel

end ScriptHost
