import ScriptHost.Proofs.Splitting.Runs

/-! Expressions and statements of moved code. An expression is evaluated as it would be where it
stood; a statement leaves its own line behind for a fault, and a class keeps the moved declarations
of its methods. By induction on the code. -/

namespace ScriptHost

variable {H : Type} {s : Split H} {g : Footing} {engine : Engine H} {b : Position} {c : Frame}

/-! ### Expressions do not look at places -/

mutual

theorem eval_rebase (engine : Engine H) (b : Position) (e : Expr) :
    eval engine (e.rebase b) = eval engine e := by
  cases e with
  | interpolation _ parts =>
    simp only [Expr.rebase, eval, evalFragments_rebase engine b parts]
  | list _ elements => simp only [Expr.rebase, eval, evalAll_rebase engine b elements]
  | unary _ _ operand => simp only [Expr.rebase, eval, eval_rebase engine b operand]
  | binary _ _ lhs rhs =>
    simp only [Expr.rebase, eval, eval_rebase engine b lhs, eval_rebase engine b rhs]
  | logical _ _ lhs rhs =>
    simp only [Expr.rebase, eval, eval_rebase engine b lhs, eval_rebase engine b rhs]
  | assign _ _ value => simp only [Expr.rebase, eval, eval_rebase engine b value]
  | getter _ receiver _ => simp only [Expr.rebase, eval, eval_rebase engine b receiver]
  | call _ receiver _ args =>
    have length : (Expr.rebaseAll b args).length = args.length := by
      rw [Expr.rebaseAll_eq, List.length_map]
    simp only [Expr.rebase, eval, eval_rebase engine b receiver, evalAll_rebase engine b args,
      length]
  | subscript _ receiver index =>
    simp only [Expr.rebase, eval, eval_rebase engine b receiver, eval_rebase engine b index]
  | _ => simp only [Expr.rebase, eval]
termination_by structural e

theorem evalAll_rebase (engine : Engine H) (b : Position) (es : List Expr) :
    evalAll engine (Expr.rebaseAll b es) = evalAll engine es := by
  cases es with
  | nil => rfl
  | cons e es =>
    simp only [Expr.rebaseAll, evalAll, eval_rebase engine b e, evalAll_rebase engine b es]
termination_by structural es

theorem evalFragments_rebase (engine : Engine H) (b : Position) (parts : List Fragment) :
    evalFragments engine (Fragment.rebaseAll b parts) = evalFragments engine parts := by
  cases parts with
  | nil => rfl
  | cons part parts =>
    cases part with
    | literal text =>
      simp only [Fragment.rebaseAll, Fragment.rebase, evalFragments,
        evalFragments_rebase engine b parts]
    | code e =>
      simp only [Fragment.rebaseAll, Fragment.rebase, evalFragments, eval_rebase engine b e,
        evalFragments_rebase engine b parts]
termination_by structural parts

end

/-! ### Messages and callbacks -/

namespace Engine.Blind

variable (blind : engine.Blind s)
include blind

theorem send (v : Value) (signature : String) (args : List Value) :
    s.RunAlike g Eq (engine.send v signature args) (engine.send v signature args) :=
  blind.perform g _

theorem textOf (v : Value) : s.RunAlike g Eq (engine.textOf v) (engine.textOf v) := by
  have described : s.RunAlike g Eq (do return (← get).heap.describe v : Run H String)
      (do return (← get).heap.describe v) := by
    refine .get_bind fun {m n} alike => ?_
    rw [alike.heap.describe]
    exact Split.RunAlike.pure rfl alike
  unfold Engine.textOf
  split
  · exact .pure rfl
  · exact .pure rfl
  · refine (blind.send v "toString" []).bind_eq fun answer => ?_
    split
    · exact .pure rfl
    · exact described

theorem textsOf (vs : List Value) : s.RunAlike g Eq (engine.textsOf vs) (engine.textsOf vs) := by
  induction vs with
  | nil => exact .pure rfl
  | cons v vs ih => exact (blind.textOf v).bind_eq fun _ => ih.bind_eq fun _ => .pure rfl

theorem told (text : String) : s.LiveAlike g Eq (engine.write text) (engine.write text) :=
  .modifyGet fun alike => alike.onHost (blind.callbacks.write text)

theorem reportAll {rs rs' : List Report} (moved : List.Forall₂ (Report.Moved s.base) rs rs') :
    s.LiveAlike g Eq (engine.reportAll rs) (engine.reportAll rs') := by
  induction moved with
  | nil => exact .pure rfl
  | cons first _ ih =>
    refine Split.LiveAlike.bind (P := Eq) (.modifyGet fun alike => ?_) fun _ => ih
    exact alike.onHost (blind.callbacks.report first)

end Engine.Blind

/-! ### Variables -/

namespace Frame.Moved

variable {known : Prop} {k l : Frame} (h : Frame.Moved b c known k l)
include h

theorem same_moduleName : l.moduleName = k.moduleName := by rw [h.same]

theorem same_this : l.this = k.this := by rw [h.same]

theorem same_scopes : l.scopes = k.scopes := by rw [h.same]

theorem withScopes {scopes : List Bindings} (length : scopes.length = k.scopes.length) :
    Frame.Moved b c known { k with scopes } { l with scopes } :=
  ⟨h.moduleName, h.this, h.function, length.trans h.scopes, by rw [h.same], h.line⟩

end Frame.Moved

theorem Frame.assignLocal?_length {name : String} {v : Value} {scopes scopes' : List Bindings}
    (assigned : Frame.assignLocal? name v scopes = some scopes') :
    scopes'.length = scopes.length := by
  induction scopes generalizing scopes' with
  | nil => cases assigned
  | cons scope outer ih =>
    unfold Frame.assignLocal? at assigned
    split at assigned
    · cases assigned
      rfl
    · obtain ⟨outer', found, rfl⟩ := Option.map_eq_some_iff.mp assigned
      rw [List.length_cons, List.length_cons, ih found]

namespace Script

theorem lookup_alike (name : String) :
    s.ScriptAlike g b c True Eq (lookup (H := H) name) (lookup name) := by
  refine .getFrame_bind fun {k l} frames => .get_bind fun {m n} alike => ?_
  rw [Frame.local?, Frame.local?, frames.same_scopes, frames.same_moduleName, alike.vm]
  split
  · exact .pure rfl
  · split
    · exact .pure rfl
    · exact .fault _

theorem define_alike (moduleName name : String) (v : Value) {known : Prop} :
    s.ScriptAlike g b c known Eq (modifyThe (Machine H) (·.onVm (·.define moduleName name v)))
      (modifyThe (Machine H) (·.onVm (·.define moduleName name v))) :=
  .modify fun alike => alike.define moduleName name v

theorem assign_alike (name : String) (v : Value) :
    s.ScriptAlike g b c True Eq (assign (H := H) name v) (assign name v) := by
  refine .getFrame_bind fun {k l} frames => .get_bind fun {m n} alike => ?_
  rw [frames.same_scopes, frames.same_moduleName, alike.vm]
  cases assigned : Frame.assignLocal? name v k.scopes with
  | some scopes =>
    have length := (Frame.assignLocal?_length assigned).trans frames.scopes
    exact .modifyFrame fun frames' => frames'.withScopes (length.trans frames'.scopes.symm)
  | none =>
    dsimp only
    split
    · exact define_alike k.moduleName name v
    · exact .fault _

theorem declare_alike (name : String) (v : Value) :
    s.ScriptAlike g b c True Eq (declare (H := H) name v) (declare name v) := by
  refine .getFrame_bind fun {k l} frames => ?_
  rw [frames.same_scopes, frames.same_moduleName]
  cases here : k.scopes with
  | nil => exact define_alike k.moduleName name v
  | cons scope outer =>
    have length : (scope.set name v :: outer).length = c.scopes.length := by
      rw [← frames.scopes, here]
      rfl
    exact .modifyFrame fun frames' => frames'.withScopes (length.trans frames'.scopes.symm)

theorem readField_alike (name : String) :
    s.ScriptAlike g b c True Eq (readField (H := H) name) (readField name) := by
  refine .getFrame_bind fun {k l} frames => ?_
  rw [frames.same_this]
  split
  · refine .get_bind fun {m n} alike => ?_
    rw [alike.heap.field]
    exact .pure rfl
  · exact .fault _

theorem writeField_alike (name : String) (v : Value) :
    s.ScriptAlike g b c True Eq (writeField (H := H) name v) (writeField name v) := by
  refine .getFrame_bind fun {k l} frames => ?_
  rw [frames.same_this]
  split
  · exact .modify fun alike => alike.mapHeap (alike.heap.setField _ name v) (Nat.le_refl _)
  · exact .fault _

theorem assignTo_alike (target : Target) (v : Value) :
    s.ScriptAlike g b c True Eq (assignTo (H := H) target v) (assignTo target v) := by
  cases target with
  | «variable» name => exact assign_alike name v
  | field name => exact writeField_alike name v

theorem newList_alike (items : List Value) :
    s.ScriptAlike g b c True Eq (newList (H := H) items) (newList items) :=
  (Split.ScriptAlike.modifyGet fun alike =>
    alike.onHeap (alike.heap.addList items.toArray) (Nat.le_refl _)).bind_eq fun _ => .pure rfl

theorem send_alike (blind : engine.Blind s) (v : Value) (signature : String) (args : List Value) :
    s.ScriptAlike g b c True Eq (send engine v signature args) (send engine v signature args) :=
  .ofRun (blind.send v signature args)

end Script

/-! ### Expressions -/

mutual

theorem eval_alike (blind : engine.Blind s) (e : Expr) :
    s.ScriptAlike g b c True Eq (eval engine e) (eval engine e) := by
  cases e with
  | this =>
    simp only [eval]
    refine .getFrame_bind fun {k l} frames => ?_
    rw [frames.same_this]
    split
    · exact .pure rfl
    · exact .fault _
  | «variable» _ name => simp only [eval]; exact Script.lookup_alike name
  | field _ name => simp only [eval]; exact Script.readField_alike name
  | interpolation _ parts =>
    simp only [eval]
    exact (evalFragments_alike blind parts).bind_eq fun _ => .pure rfl
  | list _ elements =>
    simp only [eval]
    exact (evalAll_alike blind elements).bind_eq fun vs => Script.newList_alike vs
  | unary _ op operand =>
    simp only [eval]
    exact (eval_alike blind operand).bind_eq fun v => Script.send_alike blind v _ _
  | binary _ op lhs rhs =>
    simp only [eval]
    refine (eval_alike blind lhs).bind_eq fun v => ?_
    exact (eval_alike blind rhs).bind_eq fun w => Script.send_alike blind v _ _
  | logical _ op lhs rhs =>
    simp only [eval]
    refine (eval_alike blind lhs).bind_eq fun v => ?_
    split
    · exact .pure rfl
    · exact .pure rfl
    · exact eval_alike blind rhs
  | assign _ target value =>
    simp only [eval]
    refine (eval_alike blind value).bind_eq fun v => ?_
    exact (Script.assignTo_alike target v).bind_eq fun _ => .pure rfl
  | getter _ receiver name =>
    simp only [eval]
    exact (eval_alike blind receiver).bind_eq fun v => Script.send_alike blind v _ _
  | call _ receiver name args =>
    simp only [eval]
    refine (eval_alike blind receiver).bind_eq fun v => ?_
    exact (evalAll_alike blind args).bind_eq fun vs => Script.send_alike blind v _ _
  | subscript _ receiver index =>
    simp only [eval]
    refine (eval_alike blind receiver).bind_eq fun v => ?_
    exact (eval_alike blind index).bind_eq fun i => Script.send_alike blind v _ _
  | _ => simp only [eval]; exact .pure rfl
termination_by structural e

theorem evalAll_alike (blind : engine.Blind s) (es : List Expr) :
    s.ScriptAlike g b c True Eq (evalAll engine es) (evalAll engine es) := by
  cases es with
  | nil => simp only [evalAll]; exact .pure rfl
  | cons e es =>
    simp only [evalAll]
    refine (eval_alike blind e).bind_eq fun v => ?_
    exact (evalAll_alike blind es).bind_eq fun vs => .pure rfl
termination_by structural es

theorem evalFragments_alike (blind : engine.Blind s) (parts : List Fragment) :
    s.ScriptAlike g b c True Eq (evalFragments engine parts) (evalFragments engine parts) := by
  cases parts with
  | nil => simp only [evalFragments]; exact .pure rfl
  | cons part parts =>
    cases part with
    | literal text =>
      simp only [evalFragments]
      exact (evalFragments_alike blind parts).bind_eq fun _ => .pure rfl
    | code e =>
      simp only [evalFragments]
      refine (eval_alike blind e).bind_eq fun v => ?_
      refine (Split.ScriptAlike.ofRun (blind.textOf v)).bind_eq fun text => ?_
      exact (evalFragments_alike blind parts).bind_eq fun _ => .pure rfl
termination_by structural parts

end

/-! ### Classes -/

theorem bindMethod_alike (blind : engine.Blind s) (moduleName className : String)
    (decl : MethodDecl) :
    s.RunAlike g (fun m m' => m' = m.rebase b) (bindMethod engine moduleName className decl)
      (bindMethod engine moduleName className (decl.rebase b)) := by
  simp only [bindMethod, MethodDecl.rebase_isForeign, MethodDecl.rebase_isStatic,
    MethodDecl.rebase_signature, MethodDecl.rebase_kind]
  split
  · refine (Split.RunAlike.modifyGet fun alike =>
      alike.onHost (blind.callbacks.bindMethod _)).bind_eq fun found => ?_
    split
    · exact .pure rfl
    · exact .fault _
  · split
    · exact .pure rfl
    · exact .pure rfl

theorem bindMethods_alike (blind : engine.Blind s) (o : ClassObject) (decls : List MethodDecl) :
    s.RunAlike g (fun o o' => o' = o.rebase b) (bindMethods engine o decls)
      (bindMethods engine (o.rebase b) (MethodDecl.rebaseAll b decls)) := by
  induction decls generalizing o with
  | nil => exact .pure rfl
  | cons decl rest ih =>
    unfold MethodDecl.rebaseAll bindMethods
    refine (bindMethod_alike blind o.moduleName o.name decl).bind ?_
    rintro m _ rfl
    simp only [MethodDecl.rebase_onClass, MethodDecl.rebase_signature]
    split
    · have entered : { o.rebase b with
          statics := (o.rebase b).statics.set decl.signature (m.rebase b) } =
          ClassObject.rebase b { o with statics := o.statics.set decl.signature m } := by
        rw [ClassObject.rebase, ClassObject.rebase, Table.set_mapValues]
      rw [entered]
      exact ih _
    · have entered : { o.rebase b with
          methods := (o.rebase b).methods.set decl.signature (m.rebase b) } =
          ClassObject.rebase b { o with methods := o.methods.set decl.signature m } := by
        rw [ClassObject.rebase, ClassObject.rebase, Table.set_mapValues]
      rw [entered]
      exact ih _

theorem bindClass_alike (blind : engine.Blind s) (moduleName : String) (decl : ClassDecl) :
    s.RunAlike g Eq (bindClass engine moduleName decl)
      (bindClass engine moduleName (decl.rebase b)) := by
  simp only [bindClass, ClassDecl.rebase_name, ClassDecl.rebase_isForeign]
  split
  · refine (Split.RunAlike.modifyGet fun alike =>
      alike.onHost (blind.callbacks.bindClass _ _)).bind_eq fun found => ?_
    split
    · exact .halt _
    · split
      · exact .fault _
      · exact .pure rfl
  · exact .pure rfl

theorem defineClass_alike (blind : engine.Blind s) (landing : Landing s.base b)
    (moduleName : String) (decl : ClassDecl) :
    s.RunAlike g Eq (defineClass engine moduleName decl)
      (defineClass engine moduleName (decl.rebase b)) := by
  unfold defineClass
  refine (bindClass_alike blind moduleName decl).bind_eq fun binding => ?_
  have bound : s.RunAlike g (fun o o' => o' = o.rebase b)
      (bindMethods engine ⟨decl.name, moduleName, decl.isForeign, [], [], binding⟩ decl.methods)
      (bindMethods engine ⟨(decl.rebase b).name, moduleName, (decl.rebase b).isForeign, [], [],
        binding⟩ (decl.rebase b).methods) := by
    cases decl with
    | mk name isForeign span methods => exact bindMethods_alike blind _ methods
  refine bound.bind ?_
  rintro o _ rfl
  refine .modifyGet fun {m n} alike => ?_
  have grows : m.heap.classes.size ≤ (m.heap.addClass o).2.classes.size := by
    rw [Heap.addClass, Array.size_push]
    omega
  exact alike.onHeap (alike.heap.addClass alike.classes landing o) grows

/-! ### Imports -/

theorem copyNames_alike (source into : String) (names : List String) :
    s.RunAlike g Eq (copyNames (H := H) source into names) (copyNames source into names) := by
  induction names with
  | nil => exact .pure rfl
  | cons name rest ih =>
    refine .get_bind fun {m n} alike => ?_
    rw [alike.vm]
    cases m.vm.binding? source name with
    | none => exact Split.RunAlike.fault _ alike
    | some v =>
      have defined : s.RunAlike g Eq (modify (·.onVm (·.define into name v)) : Run H Unit)
          (modify (·.onVm (·.define into name v))) := .modify fun alike => alike.define into name v
      exact (defined.bind_eq fun _ => ih) alike

theorem importNames_alike (blind : engine.Blind s) (source into : String) (names : List String) :
    s.RunAlike g Eq (importNames engine source into names)
      (importNames engine source into names) := by
  have copied : s.RunAlike g Eq (copyNames (H := H) source into names)
    (copyNames source into names) := copyNames_alike source into names
  refine .get_bind fun {m n} alike => ?_
  rw [alike.vm]
  cases m.vm.hasModule source with
  | true => exact copied alike
  | false => exact ((blind.perform g (.load source)).bind_eq fun _ => copied) alike

/-! ### Control flow -/

variable {known : Prop}

theorem branch_alike (body : Stmt) {x y : Script H Flow}
    (h : ∀ c, s.ScriptAlike g b c known Eq x y) :
    s.ScriptAlike g b c known Eq (branch body x) (branch (body.rebase b) y) := by
  have isBlock : (body.rebase b).isBlock = body.isBlock := by
    cases body <;> rw [Stmt.rebase] <;> rfl
  unfold branch
  rw [isBlock]
  split
  · exact h c
  · exact .inScope (h _)

theorem repeatWhile_alike {condition condition' : Script H Value} {body body' : Script H Flow}
    (hc : s.ScriptAlike g b c known Eq condition condition')
    (hb : s.ScriptAlike g b c known Eq body body') (turns : Nat) :
    s.ScriptAlike g b c known Eq (repeatWhile condition body turns)
      (repeatWhile condition' body' turns) := by
  induction turns with
  | zero => exact .halt _
  | succ turns ih =>
    refine hc.bind_eq fun v => ?_
    split
    · refine hb.bind_eq fun flow => ?_
      cases flow with
      | normal => exact ih
      | broken => exact .pure rfl
      | returned v => exact .pure rfl
    · exact .pure rfl

theorem forEach_alike (name : String) {body body' : Script H Flow} (vs : List Value)
    (hb : ∀ c, s.ScriptAlike g b c known Eq body body') :
    s.ScriptAlike g b c known Eq (forEach name body vs) (forEach name body' vs) := by
  induction vs with
  | nil => exact .pure rfl
  | cons v rest ih =>
    refine (Split.ScriptAlike.inScope (hb _)).bind_eq fun flow => ?_
    cases flow with
    | normal => exact ih
    | broken => exact .pure rfl
    | returned v => exact .pure rfl

theorem elementsOf_alike (v : Value) :
    s.ScriptAlike g b c True Eq (elementsOf (H := H) v) (elementsOf v) := by
  unfold elementsOf
  split
  · refine .get_bind fun {m n} alike => ?_
    rw [alike.heap.list]
    exact .pure rfl
  · exact .fault _

/-! ### Statements -/

mutual

/-- A statement that landed at `b` is executed as it is where it stands in the other run. -/
theorem exec_alike (blind : engine.Blind s) (landing : Landing s.base b) {c : Frame}
    {known : Prop} (t : Stmt) :
    s.ScriptAlike g b c known Eq (exec engine t) (exec engine (t.rebase b)) := by
  cases t with
  | expr e =>
    simp only [Stmt.rebase, exec, eval_rebase]
    refine .marked (t := .expr e) rfl ?_
    exact (eval_alike blind e).bind_eq fun _ => .pure rfl
  | var span name init =>
    cases init with
    | none =>
      simp only [Stmt.rebase, Option.map_none, exec]
      refine .marked (t := .var span name none) rfl ?_
      exact (Script.declare_alike name .null).bind_eq fun _ => .pure rfl
    | some e =>
      simp only [Stmt.rebase, Option.map_some, exec, eval_rebase]
      refine .marked (t := .var span name (some e)) rfl ?_
      refine (eval_alike blind e).bind_eq fun v => ?_
      exact (Script.declare_alike name v).bind_eq fun _ => .pure rfl
  | ifElse condition thenBranch elseBranch =>
    cases elseBranch with
    | none =>
      simp only [Stmt.rebase, Stmt.rebaseOption, exec, eval_rebase]
      refine .marked (t := .ifElse condition thenBranch none) rfl ?_
      refine (eval_alike blind condition).bind_eq fun v => ?_
      split
      · exact branch_alike thenBranch fun _ => exec_alike blind landing thenBranch
      · exact .pure rfl
    | some other =>
      simp only [Stmt.rebase, Stmt.rebaseOption, exec, eval_rebase]
      refine .marked (t := .ifElse condition thenBranch (some other)) rfl ?_
      refine (eval_alike blind condition).bind_eq fun v => ?_
      split
      · exact branch_alike thenBranch fun _ => exec_alike blind landing thenBranch
      · exact branch_alike other fun _ => exec_alike blind landing other
  | whileLoop condition body =>
    simp only [Stmt.rebase, exec, eval_rebase]
    refine .marked (t := .whileLoop condition body) rfl ?_
    exact repeatWhile_alike (eval_alike blind condition)
      (branch_alike body fun _ => exec_alike blind landing body) engine.limit
  | forLoop name sequence body =>
    simp only [Stmt.rebase, exec, eval_rebase]
    refine .marked (t := .forLoop name sequence body) rfl ?_
    refine (eval_alike blind sequence).bind_eq fun v => ?_
    refine (elementsOf_alike v).bind_eq fun vs => ?_
    exact forEach_alike name vs fun _ => exec_alike blind landing body
  | block body =>
    -- A block has no line: the activation stays where it was, at a line or before the first.
    simp only [Stmt.rebase, exec]
    have stays : s.ScriptAlike g b c known Eq (markLine (H := H) (.block body))
      (markLine (.block (Stmt.rebaseAll b body))) := .pure rfl
    exact stays.bind_eq fun _ => .inScope (execAll_alike blind landing body)
  | returnValue span value =>
    cases value with
    | none =>
      simp only [Stmt.rebase, Option.map_none, exec]
      exact .marked (t := .returnValue span none) rfl (.pure rfl)
    | some e =>
      simp only [Stmt.rebase, Option.map_some, exec, eval_rebase]
      refine .marked (t := .returnValue span (some e)) rfl ?_
      exact (eval_alike blind e).bind_eq fun v => .pure rfl
  | breakLoop span =>
    simp only [Stmt.rebase, exec]
    exact .marked (t := .breakLoop span) rfl (.pure rfl)
  | classDecl decl =>
    simp only [Stmt.rebase, exec]
    refine .marked (t := .classDecl decl) rfl (.getFrame_bind fun {k l} frames => ?_)
    rw [frames.same_moduleName, ClassDecl.rebase_name]
    refine (Split.ScriptAlike.ofRun (defineClass_alike blind landing _ decl)).bind_eq fun id => ?_
    exact (Script.declare_alike decl.name _).bind_eq fun _ => .pure rfl
  | importNames span source names =>
    simp only [Stmt.rebase, exec]
    refine .marked (t := .importNames span source names) rfl (.getFrame_bind fun {k l} frames => ?_)
    rw [frames.same_moduleName]
    exact (Split.ScriptAlike.ofRun (importNames_alike blind source _ names)).bind_eq fun _ =>
      .pure rfl
termination_by structural t

theorem execAll_alike (blind : engine.Blind s) (landing : Landing s.base b) {c : Frame}
    {known : Prop} (body : List Stmt) :
    s.ScriptAlike g b c known Eq (execAll engine body)
      (execAll engine (Stmt.rebaseAll b body)) := by
  cases body with
  | nil => simp only [Stmt.rebaseAll, execAll]; exact .pure rfl
  | cons t rest =>
    simp only [Stmt.rebaseAll, execAll]
    refine (exec_alike blind landing t).bind_eq fun flow => ?_
    cases flow with
    | normal => exact execAll_alike blind landing rest
    | broken => exact .pure rfl
    | returned v => exact .pure rfl
termination_by structural body

end

end ScriptHost
