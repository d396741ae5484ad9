import ScriptHost.Proofs.Account.Leaves

/-! The tokens that a statement is written with. Its leaves are among them, in order; and a list of
statements is written on lines: each statement but the first one of a list has a newline in front,
behind the statement before it. -/

namespace ScriptHost

/-- Items written one after the other, where `R` says what one of them is written with. The flag
tells whether another item may follow: at the very start, or behind a newline. -/
inductive Lines {α : Type} (R : α → List TokenKind → Prop) :
    Bool → List α → List TokenKind → Prop
  | nil : Lines R true [] []
  | newline {b items ts} : Lines R b items ts → Lines R true items (ts ++ [.newline])
  | item {items ts a us} : Lines R true items ts → R a us → Lines R false (items ++ [a]) (ts ++ us)

namespace Lines

variable {α : Type} {R : α → List TokenKind → Prop} {b : Bool} {items : List α}
  {ts us : List TokenKind}

theorem newlines (h : Lines R true items ts) (n : Nat) :
    Lines R true items (ts ++ List.replicate n .newline) := by
  induction n with
  | zero => simpa using h
  | succ n ih =>
    have more := ih.newline
    rwa [List.append_assoc, ← List.replicate_succ'] at more

/-- Items end with the last of them, or some newlines stand behind it. -/
theorem last_inv {a : α} {front : List α} (h : Lines R b items ts) (split : items = front ++ [a]) :
    ∃ before us n, ts = before ++ (us ++ List.replicate n .newline) ∧
      Lines R true front before ∧ R a us ∧ (b = true → n ≠ 0) := by
  induction h with
  | nil => simp at split
  | newline _ ih =>
    obtain ⟨before, us, n, rfl, lines, here, -⟩ := ih split
    refine ⟨before, us, n + 1, ?_, lines, here, fun _ => Nat.succ_ne_zero n⟩
    rw [List.replicate_succ']
    simp only [List.append_assoc]
  | item lines here =>
    obtain ⟨rfl, same⟩ := List.append_inj' split rfl
    obtain rfl : _ = a := List.singleton_inj.mp same
    exact ⟨_, _, 0, by simp, lines, here, nofun⟩

/-- Two items in a row have a newline between them. -/
theorem between {front behind : List α} {x y : α} (h : Lines R b items ts)
    (split : items = front ++ x :: y :: behind) :
    ∃ before us n vs after,
      ts = before ++ (us ++ (List.replicate (n + 1) .newline ++ (vs ++ after))) ∧
        R x us ∧ R y vs := by
  induction h generalizing behind with
  | nil => simp at split
  | newline _ ih =>
    obtain ⟨before, us, n, vs, after, rfl, here, there⟩ := ih split
    exact ⟨before, us, n, vs, after ++ [.newline], by simp, here, there⟩
  | @item items ts a vs lines there ih =>
    obtain rfl | ⟨inner, z, rfl⟩ := List.eq_nil_or_concat behind
    · have split : items ++ [a] = (front ++ [x]) ++ [y] := by simpa using split
      obtain ⟨rfl, same⟩ := List.append_inj' split rfl
      obtain rfl : a = y := List.singleton_inj.mp same
      obtain ⟨before, us, n, rfl, -, here, some_⟩ := lines.last_inv rfl
      obtain ⟨n, rfl⟩ := Nat.exists_eq_succ_of_ne_zero (some_ rfl)
      exact ⟨before, us, n, vs, [], by simp, here, there⟩
    · have split : items ++ [a] = (front ++ x :: y :: inner) ++ [z] := by simpa using split
      obtain ⟨rfl, -⟩ := List.append_inj' split rfl
      obtain ⟨before, us, n, ws, after, rfl, here, next⟩ := ih rfl
      exact ⟨before, us, n, ws, after ++ vs, by simp, here, next⟩

end Lines

/-- A statement without statements inside. -/
def Stmt.isPlain : Stmt → Bool
  | .expr _ | .var .. | .returnValue .. | .breakLoop _ | .importNames .. => true
  | .ifElse .. | .whileLoop .. | .forLoop .. | .block _ | .classDecl _ => false

mutual

/-- The tokens that a statement is written with. -/
inductive Stmt.Written : Stmt → List TokenKind → Prop
  | plain {s : Stmt} {ts} : s.isPlain → Carries ts s.leaves → s.Written ts
  | ifThen {e : Expr} {s : Stmt} {ts us} : Carries ts e.leaves → s.Written us →
    Stmt.Written (.ifElse e s none) (ts ++ us)
  | ifElse {e : Expr} {s t : Stmt} {ts us vs} : Carries ts e.leaves → s.Written us →
    t.Written vs → Stmt.Written (.ifElse e s (some t)) (ts ++ (us ++ .keyword .else_ :: vs))
  | whileLoop {e : Expr} {s : Stmt} {ts us} : Carries ts e.leaves → s.Written us →
    Stmt.Written (.whileLoop e s) (ts ++ us)
  | forLoop {name : String} {e : Expr} {s : Stmt} {ts us} : Carries ts (.name name :: e.leaves) →
    s.Written us → Stmt.Written (.forLoop name e s) (ts ++ us)
  | block {b body ts} : Lines Stmt.Written b body ts →
    Stmt.Written (.block body) (.symbol .leftBrace :: (ts ++ [.symbol .rightBrace]))
  | classDecl {decl : ClassDecl} {b ts us} : Carries ts [.name decl.name] →
    Lines MethodDecl.Written b decl.methods us →
    Stmt.Written (.classDecl decl) (ts ++ (us ++ [.symbol .rightBrace]))

/-- The tokens that a method is written with. The statement of a body on one line is a list, too. -/
inductive MethodDecl.Written : MethodDecl → List TokenKind → Prop
  | foreign {m : MethodDecl} {ts} : Carries ts (.name m.name :: m.params.map .name) →
    m.body = none → m.Written ts
  | scripted {m : MethodDecl} {body b ts us} : Carries ts (.name m.name :: m.params.map .name) →
    m.body = some body → Lines Stmt.Written b body us →
    m.Written (ts ++ .symbol .leftBrace :: (us ++ [.symbol .rightBrace]))

end

theorem MethodDecl.leaves_eq (m : MethodDecl) :
    m.leaves = (.name m.name :: m.params.map .name) ++ Stmt.leavesBody m.body := by
  cases m
  rfl

theorem ClassDecl.leaves_eq (decl : ClassDecl) :
    decl.leaves = [.name decl.name] ++ MethodDecl.leavesAll decl.methods := by
  cases decl
  rfl

/-! ### The leaves of written statements -/

theorem Carries.braced {ts : List TokenKind} {l : List Leaf} (h : Carries ts l) :
    Carries (.symbol .leftBrace :: (ts ++ [.symbol .rightBrace])) l :=
  .behind (.symbol .leftBrace) (h.before (.symbol .rightBrace))

mutual

theorem Stmt.Written.carries {s : Stmt} {ts : List TokenKind} :
    s.Written ts → Carries ts s.leaves
  | .plain _ own => own
  | .ifThen own inner => by
    rw [Stmt.leaves, Stmt.leavesOption, List.append_nil]
    exact own.append inner.carries
  | .ifElse own inner other =>
    own.append (inner.carries.append ((Carries.keyword Keyword.noConfusion rfl).behind
      other.carries))
  | .whileLoop own inner => own.append inner.carries
  | .forLoop own inner => own.append inner.carries
  | .block lines => (statements_carry lines).braced
  | .classDecl own lines => by
    rw [Stmt.leaves, ClassDecl.leaves_eq]
    exact own.append ((methods_carry lines).before (.symbol _))

theorem MethodDecl.Written.carries {m : MethodDecl} {ts : List TokenKind} :
    m.Written ts → Carries ts m.leaves
  | .foreign own noBody => by
    rw [MethodDecl.leaves_eq, noBody, Stmt.leavesBody, List.append_nil]
    exact own
  | .scripted own body lines => by
    rw [MethodDecl.leaves_eq, body]
    exact own.append (statements_carry lines).braced

theorem statements_carry {b : Bool} {body : List Stmt} {ts : List TokenKind} :
    Lines Stmt.Written b body ts → Carries ts (Stmt.leavesAll body)
  | .nil => .nil
  | .newline lines => (statements_carry lines).before .newline
  | .item lines here => by
    have both := (statements_carry lines).append here.carries
    simpa only [Stmt.leavesAll_eq, List.flatMap_append, List.flatMap_singleton] using both

theorem methods_carry {b : Bool} {methods : List MethodDecl} {ts : List TokenKind} :
    Lines MethodDecl.Written b methods ts → Carries ts (MethodDecl.leavesAll methods)
  | .nil => .nil
  | .newline lines => (methods_carry lines).before .newline
  | .item lines here => by
    have both := (methods_carry lines).append here.carries
    simpa only [MethodDecl.leavesAll_eq, List.flatMap_append, List.flatMap_singleton] using both

end
end ScriptHost
