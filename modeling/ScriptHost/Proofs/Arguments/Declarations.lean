import ScriptHost.Proofs.Arguments.Signatures
import ScriptHost.Proofs.Simulation.Laws

/-! Declarations as they are read from a text. A getter has no parameters, at whatever depth it is
declared; with names that have no brackets, the signature of a method or constructor asks for as
many arguments as it has parameters. -/

namespace ScriptHost

mutual

/-- Getters that are declared inside a statement have no parameters. -/
def Stmt.Shaped : Stmt → Prop
  | .ifElse _ thenBranch none => thenBranch.Shaped
  | .ifElse _ thenBranch (some other) => thenBranch.Shaped ∧ other.Shaped
  | .whileLoop _ body | .forLoop _ _ body => body.Shaped
  | .block body => Stmt.ShapedAll body
  | .classDecl decl => decl.Shaped
  | _ => True

def Stmt.ShapedAll : List Stmt → Prop
  | [] => True
  | s :: ss => s.Shaped ∧ Stmt.ShapedAll ss

def Stmt.ShapedBody : Option (List Stmt) → Prop
  | none => True
  | some body => Stmt.ShapedAll body

def MethodDecl.Shaped : MethodDecl → Prop
  | ⟨_, kind, params, _, _, _, body⟩ => (kind = .getter → params = []) ∧ Stmt.ShapedBody body

def MethodDecl.ShapedAll : List MethodDecl → Prop
  | [] => True
  | m :: ms => m.Shaped ∧ MethodDecl.ShapedAll ms

def ClassDecl.Shaped : ClassDecl → Prop
  | ⟨_, _, _, methods⟩ => MethodDecl.ShapedAll methods

end

theorem Stmt.shapedAll_iff {ss : List Stmt} : Stmt.ShapedAll ss ↔ ∀ s ∈ ss, s.Shaped := by
  induction ss with
  | nil => exact ⟨fun _ => nofun, fun _ => trivial⟩
  | cons s ss ih => rw [Stmt.ShapedAll, ih, List.forall_mem_cons]

theorem MethodDecl.shapedAll_iff {ms : List MethodDecl} :
    MethodDecl.ShapedAll ms ↔ ∀ m ∈ ms, m.Shaped := by
  induction ms with
  | nil => exact ⟨fun _ => nofun, fun _ => trivial⟩
  | cons m ms ih => rw [MethodDecl.ShapedAll, ih, List.forall_mem_cons]

/-! ### What a reader finds -/

/-- Whatever an action finds, from whatever cursor. -/
def Parse.Finds {α : Type} (x : Parse α) (P : α → Prop) : Prop := ∀ c a d, x c = .ok a d → P a

namespace Parse

variable {α β : Type} {P : α → Prop} {Q : β → Prop}

namespace Finds

theorem pure {a : α} (h : P a) : Finds (Pure.pure a) P := by
  rintro c _ _ ⟨⟩
  exact h

theorem fail (fault : SyntaxFault) : Finds (Parse.fail fault) P := nofun

theorem bind {x : Parse α} {f : α → Parse β} (h : Finds x P) (hf : ∀ a, P a → Finds (f a) Q) :
    Finds (x >>= f) Q := by
  intro c b e run
  change EStateM.bind x f c = .ok b e at run
  unfold EStateM.bind at run
  split at run
  · rename_i a d found
    exact hf a (h c a d found) d b e run
  · cases run

/-- An action about whose finds nothing has to be known. -/
theorem skip {x : Parse α} {f : α → Parse β} (hf : ∀ a, Finds (f a) Q) : Finds (x >>= f) Q :=
  bind (P := fun _ => True) (fun _ _ _ _ => trivial) fun a _ => hf a

/-- An action that fails before it finds anything. -/
theorem failed (fault : SyntaxFault) {f : α → Parse β} : Finds (Parse.fail fault >>= f) Q :=
  bind (P := fun _ => False) (Finds.fail fault) fun _ none => none.elim

theorem loop {step : α → Parse (Option α)} (steps : ∀ a, P a → Finds (step a) (∀ b ∈ ·, P b))
    {a : α} (h : P a) : Finds (Parse.loop step a) P := by
  have iterate (fuel : List Token) (a : α) (h : P a) : Finds (Parse.iterate step fuel a) P := by
    induction fuel generalizing a with
    | nil =>
      refine (steps a h).bind fun next kept => ?_
      cases next with
      | none => exact .pure h
      | some b => exact .fail _
    | cons _ fuel ih =>
      refine (steps a h).bind fun next kept => ?_
      cases next with
      | none => exact .pure h
      | some b => exact ih b (kept b rfl)
  exact fun c => iterate c.tokens a h c

end Finds

/-! ### Declarations -/

theorem bracedLines_finds {line : Parse α} (lines : Finds line P) (unclosed : SyntaxFault) :
    Finds (bracedLines line unclosed) (∀ a ∈ ·, P a) := by
  refine (Finds.loop (P := fun state : List α × Bool => ∀ a ∈ state.1, P a) ?_
    (List.forall_mem_nil P)).bind ?_
  · rintro ⟨items, closed⟩ kept
    cases closed with
    | true => exact .pure fun _ none => nomatch none
    | false =>
      refine .skip fun _ => .skip fun brace => ?_
      split
      · exact .pure fun _ same => Option.some.inj same ▸ kept
      · refine .skip fun kind => ?_
        split
        · exact .failed _
        · refine lines.bind fun a found => .pure fun _ same => Option.some.inj same ▸ ?_
          exact List.forall_mem_cons.mpr ⟨found, kept⟩
  · rintro ⟨items, closed⟩ kept
    exact .pure fun a there => kept a (List.mem_reverse.mp there)

theorem methodShape_finds (isConstructor : Bool) :
    Finds (methodShape isConstructor) fun shape => shape.1 = .getter → shape.2 = [] := by
  refine .skip fun paren => ?_
  split
  · refine .skip fun params => .pure ?_
    split <;> exact nofun
  · split
    · exact .fail _
    · exact .pure fun _ => rfl

/-- Readers of what a statement can hold, which find getters without parameters. -/
structure Nested.Shaped (nested : Nested) : Prop where
  statement : Finds nested.statement Stmt.Shaped
  declaration : Finds nested.declaration Stmt.Shaped

namespace Nested.Shaped

variable {nested : Nested} (shaped : nested.Shaped)
include shaped

theorem block : Finds (Parse.block nested) Stmt.ShapedAll := by
  intro c body d run
  refine Stmt.shapedAll_iff.mpr (bracedLines_finds ?_ _ c body d run)
  exact shaped.declaration.bind fun s found => .skip fun _ => .pure found

theorem body : Finds (Parse.body nested) Stmt.Shaped := by
  refine .skip fun brace => ?_
  split
  · exact shaped.block.bind fun body found => .pure found
  · exact shaped.statement

theorem methodBody : Finds (Parse.methodBody nested) Stmt.ShapedAll := by
  refine .skip fun _ => .skip fun brace => ?_
  split
  · exact .pure trivial
  · refine .skip fun kind => ?_
    split
    · exact shaped.block
    · refine shaped.declaration.bind fun s found => .skip fun _ => .pure ⟨?_, trivial⟩
      cases s <;> exact found

theorem method : Finds (Parse.method nested) MethodDecl.Shaped := by
  refine .skip fun isForeign => .skip fun isStatic => .skip fun isConstructor => ?_
  have read : Finds (Parse.name .method >>= fun named =>
      Parse.methodShape isConstructor >>= fun shape => do
        let body ← if isForeign then Pure.pure none else some <$> Parse.methodBody nested
        Pure.pure
          (⟨named.1, shape.1, shape.2, isStatic, isForeign, named.2, body⟩ : MethodDecl))
      MethodDecl.Shaped := by
    refine .skip fun named => (methodShape_finds isConstructor).bind fun shape getter => ?_
    cases isForeign with
    | true => exact .pure ⟨getter, trivial⟩
    | false =>
      have scripted : Finds (some <$> Parse.methodBody nested) Stmt.ShapedBody := by
        rw [map_eq_pure_bind]
        exact shaped.methodBody.bind fun body found => .pure found
      exact scripted.bind fun body found => .pure ⟨getter, found⟩
  cases isConstructor && (isForeign || isStatic) with
  | true => exact .failed _
  | false => exact read

theorem classDecl (isForeign : Bool) : Finds (Parse.classDecl nested isForeign) Stmt.Shaped := by
  refine .skip fun named => .skip fun _ => Finds.bind (bracedLines_finds ?_ _) fun methods found =>
    .pure (MethodDecl.shapedAll_iff.mpr found)
  refine shaped.method.bind fun m found => .skip fun brace => ?_
  split
  · exact .skip fun _ => .pure found
  · exact .pure found

/-! ### Statements -/

theorem ifElse : Finds (Parse.ifElse nested) Stmt.Shaped := by
  refine .skip fun _ => .skip fun e => shaped.body.bind fun _ found => .skip fun more => ?_
  split
  · exact shaped.body.bind fun t found' => .pure ⟨found, found'⟩
  · exact .pure found

theorem forLoop : Finds (Parse.forLoop nested) Stmt.Shaped := by
  refine .skip fun _ => .skip fun _ => .skip fun named => .skip fun kind => ?_
  split
  · exact .skip fun _ => .skip fun sequence => .skip fun _ => shaped.body.bind fun s found =>
      .pure found
  · exact .failed _

theorem statementOver : Finds (Parse.statementOver nested) Stmt.Shaped := by
  refine .skip fun kind => ?_
  split
  · exact shaped.ifElse
  · exact .skip fun _ => .skip fun e => shaped.body.bind fun _ found => .pure found
  · exact shaped.forLoop
  · refine .skip fun span => .skip fun kind => ?_
    split
    · exact .pure trivial
    · exact .pure trivial
    · exact .pure trivial
    · exact .skip fun value => .pure trivial
  · exact .skip fun span => .pure trivial
  · exact .skip fun _ => shaped.block.bind fun body found => .pure found
  · exact .skip fun e => .pure trivial

theorem declarationOver : Finds (Parse.declarationOver nested) Stmt.Shaped := by
  refine .skip fun kind => ?_
  split
  · exact .skip fun _ => shaped.classDecl false
  · exact .skip fun _ => .skip fun _ => shaped.classDecl true
  · refine .skip fun span => .skip fun source => .skip fun more => ?_
    split
    · exact .skip fun names => .pure trivial
    · exact .pure trivial
  · refine .skip fun span => .skip fun named => .skip fun more => ?_
    split
    · exact .skip fun _ => .skip fun init => .pure trivial
    · exact .pure trivial
  · exact shaped.statementOver

omit shaped in
theorem nestedUpTo (expression : Parse Expr) (levels : Nat) :
    (Parse.nestedUpTo expression levels).Shaped := by
  induction levels with
  | zero => exact ⟨.fail _, .fail _⟩
  | succ levels ih => exact ⟨fun c => ih.statementOver c, fun c => ih.declarationOver c⟩

end Nested.Shaped

theorem item_finds (levels : Nat) : Finds (item levels) Stmt.Shaped :=
  (Nested.Shaped.nestedUpTo _ levels).declaration.bind fun _ found => .skip fun _ => .pure found

end Parse

theorem itemsUpTo_shaped {levels : Nat} {fuel : List Token} {c : Cursor} {s : Stmt}
    (read : .ok s ∈ c.itemsUpTo levels fuel) : s.Shaped := by
  induction fuel generalizing c with
  | nil => cases read
  | cons _ fuel ih =>
    unfold Cursor.itemsUpTo at read
    split at read
    · cases read
    · rename_i item rest run
      obtain same | read := List.mem_cons.mp read
      · subst same
        obtain ⟨-, found⟩ := Cursor.item?_eq_ok_iff.mp run
        exact Parse.item_finds levels _ s rest found
      · exact ih read

/-- What is read from a text has getters without parameters. -/
theorem parseModule_shaped {source : String} {body : List Stmt}
    (accepted : parseModule source = .ok body) : Stmt.ShapedAll body := by
  have read : (Cursor.start (tokens source)).itemsUpTo _ (tokens source) = body.map .ok :=
    parseModule_eq_ok_iff.mp accepted
  refine Stmt.shapedAll_iff.mpr fun s there => ?_
  have among := List.mem_map_of_mem (f := (.ok : Stmt → Except SyntaxError Stmt)) there
  rw [← read] at among
  exact itemsUpTo_shaped among

/-! ### What a declaration says -/

/-- The name of a method is one of its leaves. -/
theorem MethodDecl.name_leaf (decl : MethodDecl) : .name decl.name ∈ decl.leaves := by
  rw [MethodDecl.leaves_eq]
  exact List.mem_append_left _ List.mem_cons_self

theorem MethodDecl.body_leaves (decl : MethodDecl) :
    Stmt.leavesAll (decl.body.getD []) ⊆ decl.leaves := by
  obtain ⟨name, kind, params, _, _, _, body⟩ := decl
  cases body with
  | none => exact List.nil_subset _
  | some body => exact fun leaf there => List.mem_cons_of_mem _ (List.mem_append_right _ there)

theorem ClassDecl.method_leaves {decl : ClassDecl} {m : MethodDecl} (there : m ∈ decl.methods) :
    m.leaves ⊆ decl.leaves := by
  intro leaf among
  rw [ClassDecl.leaves_eq, MethodDecl.leavesAll_eq]
  exact List.mem_append_right _ (List.mem_flatMap.mpr ⟨m, there, among⟩)

mutual

/-- The classes that a statement comes upon say nothing that it does not say. -/
theorem Stmt.declarations_leaves {s : Stmt} : ∀ d ∈ s.declarations, d.leaves ⊆ s.leaves := by
  cases s with
  | ifElse condition thenBranch elseBranch =>
    have first : ∀ d ∈ thenBranch.declarations,
        d.leaves ⊆ Stmt.leaves (.ifElse condition thenBranch elseBranch) :=
      fun d there leaf among => List.mem_append_right _
        (List.mem_append_left _ (thenBranch.declarations_leaves d there among))
    cases elseBranch with
    | none => exact first
    | some other =>
      exact List.forall_mem_append.mpr ⟨first, fun d there leaf among => List.mem_append_right _
        (List.mem_append_right _ (other.declarations_leaves d there among))⟩
  | whileLoop condition body =>
    exact fun d there leaf among =>
      List.mem_append_right _ (body.declarations_leaves d there among)
  | forLoop name sequence body =>
    exact fun d there leaf among => List.mem_cons_of_mem _
      (List.mem_append_right _ (body.declarations_leaves d there among))
  | block body => exact declarationsOf_leaves
  | classDecl decl => exact List.forall_mem_singleton.mpr (List.Subset.refl _)
  | expr | var | returnValue | breakLoop | importNames => exact List.forall_mem_nil _
termination_by structural s

theorem declarationsOf_leaves {body : List Stmt} :
    ∀ d ∈ declarationsOf body, d.leaves ⊆ Stmt.leavesAll body := by
  cases body with
  | nil => exact List.forall_mem_nil _
  | cons s rest =>
    exact List.forall_mem_append.mpr
      ⟨fun d there leaf among => List.mem_append_left _ (s.declarations_leaves d there among),
        fun d there leaf among => List.mem_append_right _ (declarationsOf_leaves d there among)⟩
termination_by structural body

end

mutual

/-- The classes that a statement comes upon have getters without parameters, as it has. -/
theorem Stmt.declarations_shaped {s : Stmt} (shaped : s.Shaped) :
    ∀ d ∈ s.declarations, d.Shaped := by
  cases s with
  | ifElse condition thenBranch elseBranch =>
    cases elseBranch with
    | none => exact thenBranch.declarations_shaped shaped
    | some other =>
      exact List.forall_mem_append.mpr
        ⟨thenBranch.declarations_shaped shaped.1, other.declarations_shaped shaped.2⟩
  | whileLoop condition body => exact body.declarations_shaped shaped
  | forLoop name sequence body => exact body.declarations_shaped shaped
  | block body => exact declarationsOf_shaped shaped
  | classDecl decl => exact List.forall_mem_singleton.mpr shaped
  | expr | var | returnValue | breakLoop | importNames => exact List.forall_mem_nil _
termination_by structural s

theorem declarationsOf_shaped {body : List Stmt} (shaped : Stmt.ShapedAll body) :
    ∀ d ∈ declarationsOf body, d.Shaped := by
  cases body with
  | nil => exact List.forall_mem_nil _
  | cons s rest =>
    exact List.forall_mem_append.mpr
      ⟨s.declarations_shaped shaped.1, declarationsOf_shaped shaped.2⟩
termination_by structural body

end

/-! ### Well-formed declarations -/

/-- A declaration as it is read from a text. -/
structure MethodDecl.Formed (decl : MethodDecl) : Prop where
  bare : ∀ leaf ∈ decl.leaves, leaf.Bare
  shaped : decl.Shaped

@[inherit_doc MethodDecl.Formed]
structure ClassDecl.Formed (decl : ClassDecl) : Prop where
  bare : ∀ leaf ∈ decl.leaves, leaf.Bare
  shaped : decl.Shaped

theorem Leaf.Bare.bareName {text : String} (bare : (Leaf.name text).Bare) : BareName text := by
  cases bare with
  | name bare => exact bare

namespace MethodDecl.Formed

variable {decl : MethodDecl} (formed : decl.Formed)
include formed

/-- The signature of a method has a hole for each parameter. -/
theorem arity : signatureArity decl.signature = decl.params.length := by
  have bare : BareName decl.name := (formed.bare _ decl.name_leaf).bareName
  obtain ⟨name, kind, params, _, _, _, body⟩ := decl
  cases kind with
  | getter =>
    obtain rfl : params = [] := formed.shaped.1 rfl
    exact signatureArity_getter bare
  | method | constructor => exact signatureArity_call bare params.length

theorem body_bare : ∀ leaf ∈ Stmt.leavesAll (decl.body.getD []), leaf.Bare :=
  fun leaf there => formed.bare leaf (decl.body_leaves there)

theorem body_shaped : Stmt.ShapedAll (decl.body.getD []) := by
  obtain ⟨name, kind, params, _, _, _, body⟩ := decl
  cases body with
  | none => trivial
  | some body => exact formed.shaped.2

end MethodDecl.Formed

/-- The methods of a declared class. -/
theorem ClassDecl.Formed.methods {decl : ClassDecl} (formed : decl.Formed) :
    ∀ m ∈ decl.methods, m.Formed := by
  intro m there
  refine ⟨fun leaf among => formed.bare leaf (ClassDecl.method_leaves there among), ?_⟩
  obtain ⟨name, _, _, methods⟩ := decl
  exact MethodDecl.shapedAll_iff.mp formed.shaped m there

/-- The classes that a body comes upon. -/
theorem declarationsOf_formed {body : List Stmt} (bare : ∀ leaf ∈ Stmt.leavesAll body, leaf.Bare)
    (shaped : Stmt.ShapedAll body) : ∀ d ∈ declarationsOf body, d.Formed :=
  fun d there => ⟨fun leaf among => bare leaf (declarationsOf_leaves d there among),
    declarationsOf_shaped shaped d there⟩

end ScriptHost
