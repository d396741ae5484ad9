import ScriptHost.Proofs.Grammar
import ScriptHost.Proofs.Lossless
import ScriptHost.Proofs.Placement.Finds
import ScriptHost.Proofs.Progress

/-! The faults of a script. A fault is at the next token, at one that its item has read, or in the
source inside one; and what is skipped behind it goes past that place. So each item has at most one
fault, in front of the items behind it, and the faults come in the order of the text. -/

namespace ScriptHost

open Parse

variable {text : List UInt8} {top lo : Nat} {c d e : Cursor} {α β : Type}

/-! ### Cursors -/

theorem Row.le_start {ts : List Token} (h : Row text top lo ts) {t : Token} (there : t ∈ ts) :
    lo ≤ t.span.start.offset := by
  induction h with
  | nil => cases there
  | cons start sits _ ih =>
    obtain ⟨⟩ | ⟨_, there⟩ := there
    · exact start
    · exact Nat.le_trans start (Nat.le_trans sits.span.ordered (ih there))

namespace Cursor

/-- The offset that no fault at the cursor is behind: the start of the next token, or the end of the
last one if none is left. -/
def limit (c : Cursor) : Nat :=
  match c.tokens with
  | [] => c.last.stop.offset
  | t :: _ => t.span.start.offset

/-- The cursor `d` is a later one than `c`, or the same, along a row of tokens. -/
structure Onward (text : List UInt8) (top : Nat) (c d : Cursor) : Prop extends
    d.Sound text top where
  suffix : d.tokens <:+ c.tokens
  start : c.span.start.offset ≤ d.span.start.offset

theorem Onward.refl (h : c.Sound text top) : c.Onward text top c :=
  ⟨h, List.suffix_rfl, Nat.le_refl _⟩

theorem Onward.trans (h : c.Onward text top d) (k : d.Onward text top e) : c.Onward text top e :=
  ⟨k.toSound, k.suffix.trans h.suffix, Nat.le_trans h.start k.start⟩

theorem Sound.start_le_limit (h : c.Sound text top) : c.span.start.offset ≤ c.limit := by
  have ordered := h.last.ordered
  obtain ⟨_ | ⟨t, rest⟩, last⟩ := c
  · exact ordered
  · exact Nat.le_refl _

theorem Sound.limit_le_top (h : c.Sound text top) : c.limit ≤ top := by
  have row := h.row
  unfold limit
  split
  · exact h.le_top
  · rename_i t rest tokens
    rw [tokens] at row
    cases row with
    | cons _ sits rest => exact Nat.le_trans sits.span.ordered rest.le_top

theorem Sound.onward_next (h : c.Sound text top) : c.Onward text top c.next := by
  have next := h.next
  have row := h.row
  obtain ⟨_ | ⟨t, _ | ⟨u, rest⟩⟩, last⟩ := c
  · exact .refl h
  · exact ⟨next, List.suffix_cons _ _, Nat.le_refl _⟩
  · cases row with
    | cons _ sits row =>
      refine ⟨next, List.suffix_cons _ _, ?_⟩
      exact Nat.le_trans sits.span.ordered (row.le_start List.mem_cons_self)

theorem Sound.onward_skipNewlines (h : c.Sound text top) :
    c.Onward text top (Cursor.skipNewlines c.tokens c.last) := by
  obtain ⟨ts, last⟩ := c
  induction ts generalizing last with
  | nil => exact .refl h
  | cons t rest ih =>
    unfold Cursor.skipNewlines
    split
    · exact h.onward_next.trans (ih t.span h.next)
    · exact .refl h

/-- The end of the token that was just read is in front of the next one. -/
theorem Sound.stop_le_limit (h : c.Sound text top) (some_ : c.tokens ≠ []) :
    c.span.stop.offset ≤ c.next.limit := by
  have row := h.row
  obtain ⟨_ | ⟨t, _ | ⟨u, rest⟩⟩, last⟩ := c
  · exact absurd rfl some_
  · exact Nat.le_refl _
  · cases row with
    | cons _ _ row => exact row.le_start List.mem_cons_self

end Cursor

/-! ### What a reader leaves -/

/-- Along a row of tokens, the action goes on to a later cursor; if it finds a fault, this is
between the two. -/
def Faults (text : List UInt8) {γ : Type} (x : Parse γ) (c : Cursor) : Prop :=
  ∀ top, c.Sound text top →
    match x c with
    | .ok _ d => c.Onward text top d
    | .error f d => c.Onward text top d ∧
      c.span.start.offset ≤ f.span.start.offset ∧ f.span.start.offset ≤ d.limit

/-- The action reads no token; if it finds a fault, this is inside the span. -/
def FaultsIn (s : Span) (x : Parse α) (c : Cursor) : Prop :=
  match x c with
  | .ok _ d => d = c
  | .error f d => d = c ∧ s.start.offset < f.span.start.offset ∧
    f.span.start.offset < s.stop.offset

theorem FaultsIn.bind {s : Span} {x : Parse α} {f : α → Parse β} (first : FaultsIn s x c)
    (second : ∀ a, FaultsIn s (f a) c) : FaultsIn s (x >>= f) c := by
  have step : (x >>= f) c = EStateM.bind x f c := rfl
  unfold FaultsIn at first second ⊢
  rw [step]
  unfold EStateM.bind
  cases run : x c with
  | error e d =>
    rw [run] at first
    exact first
  | ok a d =>
    rw [run] at first
    cases first
    exact second a

namespace Faults

theorem pure (a : α) (c : Cursor) : Faults text (Pure.pure a) c := fun _ sound => .refl sound

theorem bind {x : Parse α} {f : α → Parse β} (first : Faults text x c)
    (second : ∀ a d, Faults text (f a) d) : Faults text (x >>= f) c := by
  intro top sound
  have first := first top sound
  have step : (x >>= f) c = EStateM.bind x f c := rfl
  rw [step]
  unfold EStateM.bind
  cases run : x c with
  | error e d =>
    rw [run] at first
    exact first
  | ok a d =>
    rw [run] at first
    have second := second a d top first.toSound
    dsimp only
    cases run' : f a d with
    | ok b e =>
      rw [run'] at second
      exact first.trans second
    | error e d' =>
      rw [run'] at second
      exact ⟨first.trans second.1, Nat.le_trans first.start second.2.1, second.2.2⟩

theorem fail (fault : SyntaxFault) (c : Cursor) : Faults text (Parse.fail fault : Parse α) c :=
  fun _ sound => ⟨.refl sound, Nat.le_refl _, sound.start_le_limit⟩

theorem advance (c : Cursor) : Faults text Parse.advance c := fun _ sound => sound.onward_next

theorem accept (test : TokenKind → Bool) (c : Cursor) : Faults text (Parse.accept test) c := by
  intro top sound
  unfold Parse.accept
  cases test c.kind with
  | true => exact sound.onward_next
  | false => exact .refl sound

theorem skipNewlines (c : Cursor) : Faults text Parse.skipNewlines c :=
  fun _ sound => sound.onward_skipNewlines

section

variable {nested : Parse Expr} (expression : ∀ c, Faults text nested c)
include expression

/-! ### Interpolated source -/

theorem whole (c : Cursor) : Faults text (Parse.whole nested) c := by
  refine (skipNewlines c).bind fun _ d => ?_
  refine ((expression d).bind fun e f => (skipNewlines f).bind fun _ g => pure e g).bind
    fun e f => ?_
  have last : Faults text (if f.kind.isEnd then Pure.pure e else Parse.fail .fragmentRest) f := by
    split
    · exact pure e f
    · exact fail _ f
  exact last

/-- A fault in interpolated source is inside the token that the source stands in. -/
theorem fragment {s : Span} {source : String} {start : Position}
    (there : SourceAt text s source start) (c : Cursor) :
    FaultsIn s (Parse.fragment nested source start) c := by
  have row := there.row
  have found := whole expression _ _ (Cursor.ahead_start row).toSound
  have first : start.offset ≤
      (Cursor.start ((tokens source).map (Token.rebase start))).span.start.offset := by
    obtain ⟨others, whole, -⟩ := (tokensFrom_cut .origin (Utf8.encode source)).ends
    cases cut : tokens source with
    | nil =>
      rw [tokens, whole] at cut
      simp at cut
    | cons t rest =>
      rw [cut] at row
      exact row.le_start List.mem_cons_self
  unfold FaultsIn Parse.fragment
  cases run : Parse.whole nested (.start ((tokens source).map (Token.rebase start))) with
  | ok e d => rfl
  | error f d =>
    rw [run] at found
    have front := there.front
    have back := there.back
    have below := Nat.le_trans found.2.2 found.1.limit_le_top
    have above := found.2.1
    exact ⟨rfl, by omega, by omega⟩

theorem fragments {s : Span} {parts : List StringPart}
    (there : ∀ source start, .code source start ∈ parts → SourceAt text s source start)
    (c : Cursor) : FaultsIn s (Parse.fragments nested parts) c := by
  induction parts with
  | nil => rfl
  | cons part parts ih =>
    have rest := ih fun source start part => there source start (List.mem_cons_of_mem _ part)
    cases part with
    | literal text => exact rest.bind fun fs => rfl
    | code source start =>
      refine (fragment expression (there source start List.mem_cons_self) c).bind fun e => ?_
      exact rest.bind fun fs => rfl

/-- A string token and its interpolated source. -/
theorem string {parts : List StringPart} (kind : c.kind = .string parts) :
    Faults text (Parse.advance >>= fun _ => Parse.string nested c.span parts) c := by
  intro top sound
  have some_ : c.tokens ≠ [] := by
    intro none
    rw [Cursor.kind, none] at kind
    cases kind
  have there : ∀ source start, .code source start ∈ parts → SourceAt text c.span source start := by
    intro source start part
    refine sound.code ?_
    rw [kind]
    exact part
  have inside : FaultsIn c.span (Parse.string nested c.span parts) c.next := by
    unfold Parse.string
    split
    · rfl
    · exact (fragments expression there c.next).bind fun fs => rfl
  have behind := sound.stop_le_limit some_
  have step : (Parse.advance >>= fun _ => Parse.string nested c.span parts) c =
      Parse.string nested c.span parts c.next := rfl
  unfold FaultsIn at inside
  rw [step]
  cases run : Parse.string nested c.span parts c.next with
  | ok e d =>
    rw [run] at inside
    cases inside
    exact sound.onward_next
  | error f d =>
    rw [run] at inside
    obtain ⟨rfl, front, back⟩ := inside
    exact ⟨sound.onward_next, Nat.le_of_lt front, by omega⟩

/-- An assignment to what is no target is a fault at its mark. -/
theorem assigned (left : Expr) (c : Cursor) : Faults text (Parse.assigned nested left) c := by
  intro top sound
  have value := ((skipNewlines c.next).bind fun _ d => expression d) top sound.next
  have onward := sound.onward_next
  have step : Parse.assigned nested left c =
      EStateM.bind (Parse.skipNewlines >>= fun _ => nested) (Parse.settled left c.span) c.next :=
    rfl
  rw [step]
  unfold EStateM.bind
  cases run : (Parse.skipNewlines >>= fun _ => nested) c.next with
  | error f d =>
    rw [run] at value
    exact ⟨onward.trans value.1, Nat.le_trans onward.start value.2.1, value.2.2⟩
  | ok e d =>
    rw [run] at value
    have later := onward.trans value
    dsimp only
    unfold Parse.settled
    cases target? left with
    | some target => exact later
    | none => exact ⟨later, Nat.le_refl _, Nat.le_trans later.start later.start_le_limit⟩

end

theorem rules (text : List UInt8) : GrammarRules (@Faults text) where
  pure := pure
  bind := bind
  cursor h := h
  peek h := h
  peekSpan h := h
  lastSpan h := h
  fail := fail
  advance := advance
  accept := accept
  skipNewlines := skipNewlines
  string expression kind := string expression kind
  assigned left c expression := assigned expression left c

end Faults

/-! ### Items -/

/-- Tokens that cover some bytes, but for the end of input. -/
def Lengthy (ts : List Token) : Prop :=
  ∀ t ∈ ts, t.kind.isEnd = false → t.span.start.offset < t.span.stop.offset

namespace Cursor

variable {levels : Nat} {item : Except SyntaxError Stmt}

/-- The offset where the next item starts, if there is one. -/
def itemStart (c : Cursor) : Nat := (Cursor.skipNewlines c.tokens c.last).span.start.offset

/-- A token behind others starts behind the first of them. -/
theorem Sound.limit_lt {t : Token} {rest : List Token} (h : c.Sound text top)
    (tokens : c.tokens = t :: rest) (long : t.span.start.offset < t.span.stop.offset)
    (suffix : d.tokens <:+ rest) (more : d.kind.isEnd = false) :
    c.limit < d.span.start.offset := by
  have row := h.row
  rw [tokens] at row
  have here : c.limit = t.span.start.offset := by rw [limit, tokens]
  obtain ⟨_ | ⟨u, us⟩, last⟩ := d
  · cases more
  · cases row with
    | cons _ _ row =>
      have behind := row.le_start (suffix.subset List.mem_cons_self)
      rw [here]
      exact Nat.lt_of_lt_of_le long behind

/-- Recovery goes past the place of the fault, unless it comes to the end of input. -/
theorem Sound.limit_lt_recovered (h : c.Sound text top) (long : Lengthy c.tokens)
    (more : (Cursor.skipNewlines (Cursor.recover 0 c.tokens c.last).tokens
      (Cursor.recover 0 c.tokens c.last).last).kind.isEnd = false) :
    c.limit < (Cursor.recover 0 c.tokens c.last).itemStart := by
  have skips (d : Cursor) : (Cursor.skipNewlines d.tokens d.last).tokens <:+ d.tokens :=
    (Leads.skipNewlines d.tokens d.last).suffix
  obtain ⟨_ | ⟨t, rest⟩, last⟩ := c
  · cases more
  · have goes : t.kind.isEnd = false := by
      by_contra stop
      have stop : t.kind.isEnd = true := by simpa using stop
      have line : t.kind.isNewline = false := by
        by_contra line
        rw [TokenKind.isEnd_of_isNewline (by simpa using line)] at stop
        cases stop
      rw [Cursor.recover, stop, Bool.true_or, if_pos rfl, Cursor.skipNewlines, line] at more
      exact absurd more (by simp [kind, stop])
    have own := long t List.mem_cons_self goes
    refine h.limit_lt rfl own ?_ more
    have behind (depth : Nat) : (Cursor.recover depth rest t.span).tokens <:+ rest := by
      obtain ⟨xs, split, -⟩ := recover_skips depth rest t.span
      exact ⟨xs, split.symm⟩
    unfold Cursor.recover
    rw [goes, Bool.false_or]
    split
    · rename_i stops
      have line : t.kind.isNewline := by
        rw [Bool.and_eq_true] at stops
        exact stops.1
      rw [Cursor.skipNewlines, if_pos line]
      exact (Leads.skipNewlines rest t.span).suffix
    · split
      · exact (skips _).trans (behind _)
      · split
        · exact (skips _).trans (behind _)
        · exact (skips _).trans (behind _)

/-- An item leaves a later cursor. Its fault, if it is one, is between the place where it starts and
the place where the next one does. -/
theorem item?_faults (sound : c.Sound text top) (long : Lengthy c.tokens)
    (found : c.item? levels = some (item, d)) :
    d.Sound text top ∧ d.tokens <:+ c.tokens ∧
      (∀ f, item = .error f → c.itemStart ≤ f.span.start.offset) ∧
      ((Cursor.skipNewlines d.tokens d.last).kind.isEnd = false → c.itemStart ≤ d.itemStart ∧
        ∀ f, item = .error f → f.span.start.offset < d.itemStart) := by
  have first := sound.onward_skipNewlines
  have start : c.itemStart = (Cursor.skipNewlines c.tokens c.last).span.start.offset := rfl
  unfold item? at found
  dsimp only at found
  rw [start]
  generalize Cursor.skipNewlines c.tokens c.last = here at found first
  have read := (Faults.rules text).item levels here top first.toSound
  split at found
  · cases found
  · cases run : Parse.item levels here with
    | ok s rest =>
      rw [run] at found read
      cases found
      refine ⟨read.toSound, read.suffix.trans first.suffix, nofun, fun _ => ⟨?_, nofun⟩⟩
      exact Nat.le_trans read.start read.toSound.onward_skipNewlines.start
    | error f rest =>
      rw [run] at found read
      cases found
      obtain ⟨onward, above, below⟩ := read
      have suffix := onward.suffix.trans first.suffix
      have long : Lengthy rest.tokens := fun t there => long t (suffix.subset there)
      refine ⟨onward.toSound.recover 0, ?_, ?_, fun more => ?_⟩
      · obtain ⟨xs, split, -⟩ := recover_skips 0 rest.tokens rest.last
        exact (List.IsSuffix.trans ⟨xs, split.symm⟩ suffix)
      · rintro _ ⟨⟩
        exact above
      · have past := onward.toSound.limit_lt_recovered long more
        refine ⟨by omega, ?_⟩
        rintro _ ⟨⟩
        omega

/-- The items, each with the offset where it starts. -/
def placedUpTo (levels : Nat) : List Token → Cursor → List (Nat × Except SyntaxError Stmt)
  | [], _ => []
  | _ :: fuel, c =>
    match c.item? levels with
    | none => []
    | some (item, rest) => (c.itemStart, item) :: placedUpTo levels fuel rest

theorem map_placedUpTo (levels : Nat) (fuel : List Token) (c : Cursor) :
    (c.placedUpTo levels fuel).map Prod.snd = c.itemsUpTo levels fuel := by
  induction fuel generalizing c with
  | nil => rfl
  | cons t fuel ih =>
    rw [placedUpTo, itemsUpTo]
    cases c.item? levels with
    | none => rfl
    | some found => exact congrArg (_ :: ·) (ih found.2)

end Cursor

/-- One item starts in front of another one, and its fault, if it is one, is in front of it, too. -/
def InFront (a b : Nat × Except SyntaxError Stmt) : Prop :=
  a.1 ≤ b.1 ∧ ∀ f, a.2 = .error f → f.span.start.offset < b.1

/-- The items from a cursor on. -/
theorem placedUpTo_inFront {levels : Nat} {fuel : List Token} (sound : c.Sound text top)
    (long : Lengthy c.tokens) :
    (∀ a ∈ c.placedUpTo levels fuel, c.itemStart ≤ a.1 ∧
      ∀ f, a.2 = .error f → a.1 ≤ f.span.start.offset) ∧
      (c.placedUpTo levels fuel).Pairwise InFront := by
  induction fuel generalizing c with
  | nil => exact ⟨nofun, .nil⟩
  | cons t fuel ih =>
    unfold Cursor.placedUpTo
    cases run : c.item? levels with
    | none => exact ⟨nofun, .nil⟩
    | some found =>
      obtain ⟨item, d⟩ := found
      obtain ⟨sound', suffix, own, next⟩ := Cursor.item?_faults sound long run
      obtain ⟨above, ordered⟩ := ih sound' fun t there => long t (suffix.subset there)
      dsimp only
      have behind : ∀ b ∈ d.placedUpTo levels fuel, c.itemStart ≤ d.itemStart ∧
          ∀ f, item = .error f → f.span.start.offset < d.itemStart := by
        intro b there
        refine next ?_
        -- There is another item, so that the end of input is not next.
        by_contra ends
        cases fuel with
        | nil => cases there
        | cons u fuel =>
          rw [Cursor.placedUpTo, Cursor.item?_eq_none_iff.mpr (by simpa using ends)] at there
          cases there
      refine ⟨List.forall_mem_cons.mpr ⟨⟨Nat.le_refl _, own⟩, fun b there => ?_⟩, .cons ?_ ordered⟩
      · exact ⟨Nat.le_trans (behind b there).1 (above b there).1, (above b there).2⟩
      · intro b there
        refine ⟨Nat.le_trans (behind b there).1 (above b there).1, fun f fault => ?_⟩
        exact Nat.lt_of_lt_of_le ((behind b there).2 f fault) (above b there).1

/-! ### Scripts -/

/-- The items of some tokens, each with the offset where it starts. -/
def placedItems (ts : List Token) : List (Nat × Except SyntaxError Stmt) :=
  (Cursor.start ts).placedUpTo (nestingBound ts) ts

theorem map_placedItems (ts : List Token) : (placedItems ts).map Prod.snd = items ts :=
  Cursor.map_placedUpTo _ _ _

theorem placedItems_inFront (source : String) :
    (∀ a ∈ placedItems (tokens source), ∀ f, a.2 = .error f → a.1 ≤ f.span.start.offset) ∧
      (placedItems (tokens source)).Pairwise InFront := by
  have sound := (Cursor.ahead_start (row_tokens source)).toSound
  have long : Lengthy (Cursor.start (tokens source)).tokens := by
    obtain ⟨others, whole, covers⟩ := (tokens_lossless source).ends
    intro t there goes
    rw [Cursor.start, whole, List.mem_append, List.mem_singleton] at there
    obtain there | rfl := there
    · exact (covers t there).2
    · cases goes
  obtain ⟨above, ordered⟩ :=
    @placedUpTo_inFront _ _ _ (nestingBound (tokens source)) (tokens source) sound long
  exact ⟨fun a there => (above a there).2, ordered⟩

/-- The errors among some results, told by any function that picks them. -/
theorem map_filterMap_error {ε α : Type} {error? : Except ε α → Option ε}
    (errors : ∀ e, error? (.error e) = some e) (none_ : ∀ a, error? (.ok a) = none)
    (found : List (Except ε α)) :
    (found.filterMap error?).map .error = found.filter (!·.isOk) := by
  induction found with
  | nil => rfl
  | cons item found ih =>
    cases item with
    | error e =>
      rw [List.filterMap_cons_some (errors e), List.map_cons, ih]
      rfl
    | ok a =>
      rw [List.filterMap_cons_none (none_ a), ih]
      rfl

/-- A text is no script if there are faults among its items; these are its faults, in their order.
-/
theorem parseModule_eq_error_iff {source : String} {faults : List SyntaxError} :
    parseModule source = .error faults ↔
      faults ≠ [] ∧ faults.map .error = (items (tokens source)).filter (!·.isOk) := by
  unfold parseModule
  dsimp only
  split
  · rename_i none_
    refine ⟨nofun, fun ⟨some_, same⟩ => absurd ?_ some_⟩
    have none_ := congrArg (List.map (Except.error (α := Stmt))) (List.isEmpty_iff.mp none_)
    rw [map_filterMap_error] at none_
    · rw [none_, List.map_nil, List.map_eq_nil_iff] at same
      exact same
    · exact fun _ => rfl
    · exact fun _ => rfl
  · rename_i some_
    rw [← map_filterMap_error, List.map_inj_right fun _ _ => Except.error.inj, Except.error.injEq]
    · refine ⟨?_, fun same => same.2.symm⟩
      rintro rfl
      exact ⟨fun none_ => some_ (List.isEmpty_iff.mpr none_), rfl⟩
    · exact fun _ => rfl
    · exact fun _ => rfl

/-- Each item of a script has at most one fault. The fault is not in front of the item, and in front
of the items behind it; so the faults of a script come in the order of the text, and no two of them
are at one place. A text without faults is a script of the statements that are its items. -/
theorem faults_in_order (source : String) :
    (placedItems (tokens source)).map Prod.snd = items (tokens source) ∧
      (∀ a ∈ placedItems (tokens source), ∀ f, a.2 = .error f → a.1 ≤ f.span.start.offset) ∧
      (placedItems (tokens source)).Pairwise InFront ∧
      (∀ faults, parseModule source = .error faults →
        faults.Pairwise fun e f => e.span.start.offset < f.span.start.offset) ∧
      (∀ faults, parseModule source = .error faults ↔
        faults ≠ [] ∧ faults.map .error = (items (tokens source)).filter (!·.isOk)) ∧
      ∀ body, parseModule source = .ok body ↔ items (tokens source) = body.map .ok := by
  obtain ⟨above, ordered⟩ := placedItems_inFront source
  refine ⟨map_placedItems _, above, ordered, fun faults rejected => ?_,
    fun _ => parseModule_eq_error_iff, fun _ => parseModule_eq_ok_iff⟩
  have among : (faults.map Except.error).Sublist (items (tokens source)) := by
    rw [(parseModule_eq_error_iff.mp rejected).2]
    exact List.filter_sublist
  have apart : (items (tokens source)).Pairwise fun x y => ∀ e f, x = .error e → y = .error f →
      e.span.start.offset < f.span.start.offset := by
    rw [← map_placedItems, List.pairwise_map]
    refine ordered.imp_of_mem fun {a b} _ there inFront e f first second => ?_
    exact Nat.lt_of_lt_of_le (inFront.2 e first) (above b there f second)
  exact (List.pairwise_map.mp (apart.sublist among)).imp fun {e f} before => before e f rfl rfl

/-- A missing newline and a target that is none are faults, each in its own item. -/
example : (placedItems (tokens "a b\n1 = 2\nc")).map (fun a => (a.1, a.2.isOk)) =
    [(0, false), (4, false), (10, true)] := by decide +kernel

end ScriptHost
