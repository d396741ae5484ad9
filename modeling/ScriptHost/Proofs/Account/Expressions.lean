import ScriptHost.Proofs.Account.Spends

/-! An expression says what the tokens say that it was read from: for every rule of the grammar, the
leaves of what is found are those of the tokens taken for it. -/

namespace ScriptHost

open Parse

variable {c : Cursor}

/-- A reader of expressions that loses no leaf, adds none and keeps their order. -/
def Accounts (x : Parse Expr) : Prop := ∀ c, Spends x c fun e ts _ => Carries ts e.leaves

/-! ### Interpolated source -/

theorem StringPart.leafPart_rebase (base : Position) (code : String → List Leaf)
    (part : StringPart) : (part.rebase base).leafPart code = part.leafPart code := by
  cases part <;> rfl

theorem TokenKind.leaf?_rebase (base : Position) (code : String → List Leaf) (kind : TokenKind) :
    (kind.rebase base).leaf? code = kind.leaf? code := by
  cases kind with
  | string parts =>
    refine congrArg (fun parts => some (Leaf.string parts)) ?_
    rw [List.map_map]
    exact List.map_congr_left fun part _ => part.leafPart_rebase base code
  | keyword k => cases k <;> rfl
  | _ => rfl

/-- Only strings change when they are moved. -/
theorem TokenKind.eq_of_rebase {base : Position} {kind kind' : TokenKind}
    (moved : kind.rebase base = kind') (plain : kind'.parts = []) : kind = kind' := by
  cases kind with
  | string parts =>
    rw [← moved, TokenKind.rebase, TokenKind.parts, List.map_eq_nil_iff] at plain
    rw [← moved, plain]
    rfl
  | _ => exact moved

theorem withoutIn_rebase (base : Position) (kinds : List TokenKind) :
    withoutIn (kinds.map (TokenKind.rebase base)) =
      (withoutIn kinds).map (TokenKind.rebase base) := by
  fun_induction withoutIn kinds with
  | case1 word rest ih => exact congrArg (_ :: _ :: _ :: ·) ih
  | case2 kind rest other ih =>
    rw [List.map_cons, List.map_cons, withoutIn, ih]
    -- Moved tokens start a header only if they did before.
    rintro word rest' first header
    obtain ⟨open_, rest, rfl, opens, header⟩ := List.map_eq_cons_iff.mp header
    obtain ⟨name, rest, rfl, names, header⟩ := List.map_eq_cons_iff.mp header
    obtain ⟨in_, rest, rfl, ins, -⟩ := List.map_eq_cons_iff.mp header
    refine other word rest (TokenKind.eq_of_rebase first rfl) ?_
    rw [TokenKind.eq_of_rebase opens rfl, TokenKind.eq_of_rebase names rfl,
      TokenKind.eq_of_rebase ins rfl]
  | case3 => rfl

theorem leavesOf_rebase (base : Position) (code : String → List Leaf) (kinds : List TokenKind) :
    leavesOf code (kinds.map (TokenKind.rebase base)) = leavesOf code kinds := by
  rw [leavesOf, withoutIn_rebase, List.filterMap_map]
  exact List.filterMap_congr fun kind _ => kind.leaf?_rebase base code

theorem TokenKind.Sound.of_rebase {base : Position} {kind : TokenKind}
    (h : (kind.rebase base).Sound) : kind.isInvalid = false ∧
      ∀ inner start, .code inner start ∈ kind.parts → Faultless inner := by
  obtain ⟨readable, code⟩ := h
  cases kind with
  | string parts =>
    refine ⟨rfl, fun inner start part => code inner (base.rebase start) ?_⟩
    exact List.mem_map_of_mem part
  | invalid => cases readable
  | _ => exact ⟨rfl, nofun⟩

/-- Tokens taken up to the end of input are all tokens of a text, and tell what it says. -/
theorem Carries.source {source : String} {base : Position} {ts : List TokenKind} {l : List Leaf}
    (carried : Carries ts l) {d : Cursor}
    (split : (tokenKinds source).map (TokenKind.rebase base) = ts ++ d.kinds)
    (ends : d.kind.isEnd) :
    d.kinds = [.endOfInput] ∧ Faultless source ∧ sourceLeaves source = l := by
  obtain ⟨others, all, inside⟩ := (tokensFrom_cut .origin (Utf8.encode source)).ends
  have kinds : tokenKinds source = others.map Token.kind ++ [.endOfInput] := by
    rw [tokenKinds, tokens, all, List.map_append]
    rfl
  have noEnd : .endOfInput ∉ ts := fun there => Bool.noConfusion (carried.sound _ there).readable
  have both : ts = (others.map Token.kind).map (TokenKind.rebase base) ∧
      d.kinds = [.endOfInput] := by
    rw [kinds, List.map_append] at split
    obtain ⟨more, taken, rest⟩ | ⟨more, left, rest⟩ := List.append_eq_append_iff.mp split
    · cases more with
      | nil => exact ⟨by simpa using taken, rest.symm⟩
      | cons kind more =>
        refine absurd (taken ▸ List.mem_append_right _ ?_) noEnd
        rw [← (List.cons.inj rest).1]
        exact List.mem_cons_self
    · cases more with
      | nil => exact ⟨by simpa using left.symm, rest⟩
      | cons kind more =>
        have front : kind ∈ (others.map Token.kind).map (TokenKind.rebase base) :=
          left ▸ List.mem_append_right _ List.mem_cons_self
        simp only [List.map_map, List.mem_map, Function.comp_apply] at front
        obtain ⟨t, there, rfl⟩ := front
        rw [Cursor.kind_of_kinds rest, TokenKind.isEnd_rebase, (inside t there).1] at ends
        cases ends
  obtain ⟨taken, left⟩ := both
  refine ⟨left, ?_, ?_⟩
  · have sound : ∀ kind ∈ tokenKinds source, kind.isInvalid = false ∧
        ∀ inner start, .code inner start ∈ kind.parts → Faultless inner := by
      rw [kinds]
      refine List.forall_mem_append.mpr ⟨fun kind there => ?_, List.forall_mem_singleton.mpr ?_⟩
      · exact (carried.sound _ (taken ▸ List.mem_map_of_mem there)).of_rebase
      · exact ⟨rfl, nofun⟩
    exact ⟨fun kind there => (sound kind there).1, fun kind there => (sound kind there).2⟩
  · rw [sourceLeaves_eq, ← leavesOf_rebase base, split, carried.told, left]
    exact List.append_nil l

namespace Accounts

variable {x : Parse Expr}

section

variable (nested : Accounts x)
include nested

theorem whole : Spends (Parse.whole x) c fun e ts d => Carries ts e.leaves ∧ d.kind.isEnd := by
  refine Spends.skipped.bind fun _ ts d lines => ?_
  refine (Spends.thenNewlines (nested d)).bind fun e us f carried => .peek ?_
  split
  · rename_i ends
    exact .pure ⟨lines.behind (carried.before .nil), ends⟩
  · exact .fail _

theorem fragment (source : String) (start : Position) :
    Spends (Parse.fragment x source start) c fun e ts _ =>
      ts = [] ∧ Faultless source ∧ sourceLeaves source = e.leaves := by
  intro e d run
  unfold Parse.fragment at run
  split at run
  · rename_i e' f inner
    cases run
    obtain ⟨ts, split, carried, ends⟩ := nested.whole e f inner
    have kinds : (tokenKinds source).map (TokenKind.rebase start) = ts ++ f.kinds := by
      rw [← split, Cursor.kinds, Cursor.start, tokenKinds, List.map_map, List.map_map]
      rfl
    exact ⟨[], rfl, rfl, (carried.source kinds ends).2⟩
  · cases run

/-- The parts of a string say what the parts of its token say. -/
theorem fragments (parts : List StringPart) :
    Spends (Parse.fragments x parts) c fun found ts _ => ts = [] ∧
      parts.map (StringPart.leafPart sourceLeaves) = found.map Fragment.leafPart ∧
      ∀ inner start, .code inner start ∈ parts → Faultless inner := by
  induction parts generalizing c with
  | nil => exact .pure ⟨rfl, rfl, nofun⟩
  | cons part parts ih =>
    cases part with
    | literal text =>
      refine ih.bind fun found ts d ⟨empty, same, sound⟩ => .pure ⟨by simp [empty], ?_, ?_⟩
      · rw [List.map_cons, List.map_cons, same]
        rfl
      · simpa using sound
    | code source start =>
      refine (nested.fragment source start).bind fun e ts d ⟨empty, faultless, told⟩ => ?_
      refine ih.bind fun found us f ⟨empty', same, sound⟩ => .pure ⟨by simp [empty, empty'], ?_, ?_⟩
      · rw [List.map_cons, List.map_cons, same, StringPart.leafPart, told]
        rfl
      · rintro inner start' (⟨⟩ | ⟨_, there⟩)
        · exact faultless
        · exact sound inner start' there

/-- A string says what its token says. -/
theorem string (span : Span) (parts : List StringPart) :
    Spends (Parse.string x span parts) c fun e ts _ => ts = [] ∧
      Carries [.string parts] e.leaves := by
  have leaf {l : List LeafPart} (same : parts.map (StringPart.leafPart sourceLeaves) = l)
      (sound : ∀ inner start, .code inner start ∈ parts → Faultless inner) :
      Carries [.string parts] [.string l] :=
    same ▸ .token rfl ⟨rfl, sound⟩
  unfold Parse.string
  split
  · exact .pure ⟨rfl, leaf rfl (by simp)⟩
  · refine (nested.fragments parts).bind fun found ts d ⟨empty, same, sound⟩ => .pure ?_
    rw [Expr.leaves, Fragment.leafParts_eq]
    exact ⟨by simp [empty], leaf same sound⟩

/-! ### Operands -/

theorem separated {stop : Parse Bool} (stops : ∀ d, Spends stop d fun _ ts _ => Carries ts []) :
    Spends (Parse.separated (Parse.thenNewlines x) stop) c fun es ts _ =>
      Carries ts (Expr.leavesAll es) := by
  simp only [Expr.leavesAll_eq]
  exact .separated_carries (fun d => .thenNewlines (nested d)) stops

theorem arguments : Spends (Parse.arguments x) c fun args ts _ =>
    Carries ts (Expr.leavesAll (args.getD [])) := by
  have close (args : List Expr) {ts : List TokenKind} (d : Cursor)
      (carried : Carries ts (Expr.leavesAll args)) :
      Spends (Parse.require .afterArguments >>= fun _ => Pure.pure (some args)) d
        fun args us _ => Carries (ts ++ us) (Expr.leavesAll (args.getD [])) :=
    (Spends.require .afterArguments).bind fun _ _ _ taken =>
      .pure (carried.before (taken ▸ Carries.symbol _))
  refine .acceptSymbol (fun d => ?_) fun _ => .pure .nil
  refine Spends.skipped.bind fun _ ts e lines => .atSymbol ?_
  split
  · exact (close [] e lines).mono fun args us f carried => .behind (.symbol _) carried
  · refine (nested.separated fun d => .pure .nil).bind fun args us f carried => ?_
    refine (close args f carried).mono fun args vs g carried => .behind (.symbol _) ?_
    exact lines.behind carried

theorem primary : Spends (Parse.primary x) c fun e ts _ => Carries ts e.leaves := by
  refine .peekSpan (.peek ?_)
  have leaf {kind : TokenKind} {l : List Leaf} (same : c.kind = kind) (goes : kind.isEnd = false)
      (single : Carries [kind] l) (e : Expr) (leaves : e.leaves = l) :
      Spends (Parse.advance >>= fun _ => Pure.pure e) c fun e ts _ => Carries ts e.leaves :=
    (Spends.advance same goes).bind fun _ _ _ taken =>
      .pure (by rw [taken, leaves]; exact single.before .nil)
  cases kind : c.kind with
  | number z => exact leaf kind rfl (.token rfl ⟨rfl, nofun⟩) _ rfl
  | field name => exact leaf kind rfl (.token rfl ⟨rfl, nofun⟩) _ rfl
  | string parts =>
    refine (Spends.advance kind rfl).bind fun _ ts d taken => ?_
    refine (nested.string c.span parts).mono fun e us f ⟨empty, carried⟩ => ?_
    rwa [taken, empty]
  | name name =>
    refine (Spends.advance kind rfl).bind fun _ ts d taken => ?_
    refine nested.arguments.bind fun args us e carried => ?_
    subst taken
    cases args with
    | none => exact .pure ((Carries.name name).append (carried.before .nil))
    | some args => exact .lastSpan (.pure ((Carries.name name).append (carried.before .nil)))
  | keyword k =>
    cases k with
    | true => exact leaf kind rfl (.token rfl ⟨rfl, nofun⟩) _ rfl
    | false => exact leaf kind rfl (.token rfl ⟨rfl, nofun⟩) _ rfl
    | null => exact leaf kind rfl (.token rfl ⟨rfl, nofun⟩) _ rfl
    | this => exact leaf kind rfl (.keyword nofun rfl) _ rfl
    | _ => exact .fail _
  | symbol s =>
    cases s with
    | leftParen =>
      refine (Spends.advance kind rfl).bind fun _ ts d opened => ?_
      refine Spends.skipped.bind fun _ us e lines => ?_
      refine (Spends.thenNewlines (nested e)).bind fun e vs f carried => ?_
      refine (Spends.require .afterExpression).bind fun _ ws g closed => .pure ?_
      subst opened closed
      exact .behind (.symbol _) (lines.behind (carried.before (.symbol _)))
    | leftBracket =>
      refine (Spends.advance kind rfl).bind fun _ ts d opened => ?_
      refine Spends.skipped.bind fun _ us e lines => .atSymbol ?_
      subst opened
      split
      · refine (Spends.require .afterListElements).bind fun _ ws g closed => .pure ?_
        exact .behind (.symbol _) (lines.behind (closed ▸ Carries.symbol _))
      · refine (nested.separated fun d => .atSymbol (.pure .nil)).bind fun es vs f carried => ?_
        refine (Spends.require .afterListElements).bind fun _ ws g closed => .pure ?_
        subst closed
        exact .behind (.symbol _) (lines.behind (carried.before (.symbol _)))
    | _ => exact .fail _
  | _ => exact .fail _

/-- A member or a subscript adds leaves behind those of the expression that it is of. -/
theorem selector (e : Expr) : Spends (Parse.selector x e) c fun next ts _ =>
    ∃ l, Carries ts l ∧ (next.getD e).leaves = e.leaves ++ l := by
  refine .acceptSymbol (fun d => ?_) fun _ => .acceptSymbol (fun d => ?_) fun _ => .pure ?_
  · refine (Spends.name .member).bind fun name ts f taken => ?_
    refine nested.arguments.bind fun args us g carried => .lastSpan (.pure ?_)
    subst taken
    refine ⟨_, .behind (.symbol _) ((Carries.name name.1).append (carried.before .nil)), ?_⟩
    cases args <;> rfl
  · refine Spends.skipped.bind fun _ ts f lines => ?_
    refine (Spends.thenNewlines (nested f)).bind fun index us g carried => ?_
    refine (Spends.require .afterSubscript).bind fun _ vs h closed => .pure ?_
    subst closed
    exact ⟨_, .behind (.symbol _) (lines.behind (carried.before (.symbol _))), rfl⟩
  · exact ⟨[], .nil, (List.append_nil _).symm⟩

end

/-- An expression that grows to the right. -/
theorem grows {step : Expr → Parse (Option Expr)} (nested : Accounts x)
    (steps : ∀ e d, Spends (step e) d fun next ts _ =>
      ∃ l, Carries ts l ∧ (next.getD e).leaves = e.leaves ++ l) :
    Accounts (x >>= loop step) := fun c => by
  refine (nested c).bind fun e ts d carried => ?_
  refine .loop (I := fun e us _ => Carries (ts ++ us) e.leaves) (fun e us f before => ?_)
    (carried.before .nil)
  refine (steps e f).mono fun next vs g ⟨l, behind, leaves⟩ => ?_
  have more := before.append behind
  rw [← leaves, List.append_assoc] at more
  cases next with
  | none => exact more
  | some b => exact more

theorem postfixed (nested : Accounts x) : Accounts (Parse.postfixed x) :=
  grows (fun _ => nested.primary) fun e _ => nested.selector e

theorem unaryOps : Spends Parse.unaryOps c fun _ ts _ => Carries ts [] := by
  refine .loop (I := fun _ ts _ => Carries ts []) (fun ops ts d before => .peek ?_) .nil
  split
  · rename_i op known
    cases kind : d.kind with
    | symbol s =>
      refine (Spends.advance kind rfl).bind fun _ us e taken => .pure ?_
      exact taken ▸ before.before (.symbol s)
    | _ =>
      rw [kind] at known
      cases known
  · exact .pure (before.before .nil)

theorem leaves_applyUnary (operand : Expr) (ops : List (UnaryOp × Span)) :
    (ops.foldl applyUnary operand).leaves = operand.leaves := by
  induction ops generalizing operand with
  | nil => rfl
  | cons op ops ih => exact ih (applyUnary operand op)

theorem unary (nested : Accounts x) : Accounts (Parse.unary x) := fun c => by
  refine unaryOps.bind fun ops ts d silent => ?_
  refine (nested.postfixed d).bind fun operand us e carried => .pure ?_
  rw [leaves_applyUnary]
  exact silent.behind (carried.before .nil)

/-! ### Operators -/

theorem infixed (nested : Accounts x) (level : Nat) (lhs : Expr) :
    Spends (Parse.infixed x level lhs) c fun next ts _ =>
      ∃ l, Carries ts l ∧ (next.getD lhs).leaves = lhs.leaves ++ l := by
  refine .peek ?_
  split
  · exact .pure ⟨[], .nil, (List.append_nil _).symm⟩
  · rename_i op known
    cases kind : c.kind with
    | symbol s =>
      refine (Spends.advance kind rfl).bind fun _ ts d taken => ?_
      refine Spends.skipped.bind fun _ us e lines => ?_
      refine (nested e).bind fun rhs vs f carried => .pure ?_
      subst taken
      refine ⟨_, .behind (.symbol s) (lines.behind (carried.before .nil)), ?_⟩
      cases op <;> rfl
    | _ =>
      rw [kind] at known
      cases known

theorem operands (nested : Accounts x) (level : Nat) : Accounts (Parse.operands x level) := by
  induction level with
  | zero => exact nested.unary
  | succ level ih => exact grows ih fun e _ => ih.infixed (level + 1) e

theorem leaves_target {e : Expr} {target : Target} (h : target? e = some target) :
    e.leaves = [target.leaf] := by
  cases e <;> cases h <;> rfl

theorem expressionOver (nested : Accounts x) : Accounts (Parse.expressionOver x) := fun c => by
  refine (nested.operands 6 c).bind fun left ts d before => .atSymbol ?_
  split
  · rename_i assigned
    refine (Spends.advance (TokenKind.eq_symbol assigned) rfl).bind fun mark us e taken => ?_
    refine Spends.skipped.bind fun _ vs f lines => ?_
    refine (nested f).bind fun value ws g carried => ?_
    subst taken
    split
    · rename_i target known
      rw [leaves_target known] at before
      exact .pure (before.append (.behind (.symbol _) (lines.behind (carried.before .nil))))
    · exact .throw _
  · exact .pure (before.before .nil)

/-- An expression says what its tokens say, at any depth of nesting. -/
theorem expressionUpTo (levels : Nat) : Accounts (Parse.expressionUpTo levels) := by
  induction levels with
  | zero => exact fun c => .fail _
  | succ levels ih => exact ih.expressionOver

end Accounts
end ScriptHost
