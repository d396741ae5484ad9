import ScriptHost.Proofs.Depth.Requests
import ScriptHost.Proofs.Scoping.Rules

/-! Block scoping. A statement leaves its activation with the scopes that it found, and only a
declaration that stands directly in the innermost one adds a name to it; an expression adds none. So
what is declared in a block, a branch or a turn of a loop is gone after it, however it ended, and an
assignment finds the variable that is declared nearest. -/

namespace ScriptHost

variable {H α : Type}

namespace Engine

variable (engine : Engine H)

/-! ### Further code -/

/-- A step that leaves the modules as they are. -/
theorem Leads.modifyGet {home : String} {declared imported : List String}
    {f : Machine H → α × Machine H} (h : ∀ m, (f m).2.vm.modules = m.vm.modules) :
    Run.Does (engine.Leads home declared imported) (modifyGet f) :=
  .modifyGet fun m => .still (congrArg (List.map _) (h m))

variable {home : String}

theorem textOf_leads (v : Value) : Run.Does (engine.Leads home [] []) (engine.textOf v) := by
  cases v with
  | string s => exact .pure s
  | number x => exact .pure _
  | _ =>
    refine Run.Does.bind (fun m r m' ran => .performed ran) fun answer => ?_
    cases answer with
    | string s => exact .pure s
    | _ => exact .get_bind fun m => .pure _

theorem bindMethod_leads (moduleName className : String) (decl : MethodDecl) :
    Run.Does (engine.Leads home [] []) (bindMethod engine moduleName className decl) := by
  unfold bindMethod
  split
  · refine (Leads.modifyGet engine fun m => rfl).bind fun found => ?_
    cases found with
    | some f => exact .pure _
    | none => exact .fault _
  · split <;> exact .pure _

theorem bindMethods_leads (c : ClassObject) (decls : List MethodDecl) :
    Run.Does (engine.Leads home [] []) (bindMethods engine c decls) := by
  induction decls generalizing c with
  | nil => exact .pure c
  | cons decl rest ih =>
    unfold bindMethods
    exact (bindMethod_leads engine c.moduleName c.name decl).bind fun method => ih _

theorem defineClass_leads (moduleName : String) (decl : ClassDecl) :
    Run.Does (engine.Leads home [] []) (defineClass engine moduleName decl) := by
  have bound : Run.Does (engine.Leads home [] []) (bindClass engine moduleName decl) := by
    unfold bindClass
    split
    · refine (Leads.modifyGet engine fun m => rfl).bind fun answer => ?_
      cases answer with
      | error message => exact .halt _
      | ok binding =>
        dsimp only
        split
        · exact .fault _
        · exact .pure binding
    · exact .pure _
  refine bound.bind fun binding => (bindMethods_leads engine _ decl.methods).bind fun c => ?_
  exact Leads.modifyGet engine fun m => rfl

theorem copyNames_leads (source : String) {names imported : List String}
    (listed : names ⊆ imported) :
    Run.Does (engine.Leads home [] imported) (copyNames source home names) := by
  induction names with
  | nil => exact .pure ()
  | cons name rest ih =>
    obtain ⟨first, later⟩ := List.cons_subset.mp listed
    refine .get_bind fun m => ?_
    cases m.vm.binding? source name with
    | some v => exact (Run.Does.modify fun m => .imports v first).bind fun _ => ih later
    | none => exact .fault _

theorem importNames_leads (source : String) (names : List String) :
    Run.Does (engine.Leads home [] names) (importNames engine source home names) := by
  have copied : Run.Does (engine.Leads home [] names) (copyNames source home names) :=
    copyNames_leads engine source (List.Subset.refl names)
  refine .get_bind fun m => ?_
  cases m.vm.hasModule source with
  | true => exact copied
  | false => exact Run.Does.bind (fun m r m' ran => .performed ran) fun _ => copied

/-! ### Expressions -/

theorem send_evaluates (receiver : Value) (signature : String) (args : List Value) :
    Script.Does engine.Evaluates (Script.send engine receiver signature args) :=
  Evaluates.ofRun fun _ _ _ _ ran => .performed ran

theorem readField_evaluates (name : String) :
    Script.Does engine.Evaluates (Script.readField name) := by
  refine .getFrame_bind fun f => ?_
  rcases f.this with _ | _ | _
  case some.object id => exact Script.Does.get_bind (fun m => .pure _) f
  all_goals exact Script.Does.fault _ f

theorem lookup_evaluates (name : String) : Script.Does engine.Evaluates (Script.lookup name) := by
  refine .getFrame_bind fun f => Script.Does.get_bind (fun m => ?_) f
  cases f.local? name with
  | some v => exact .pure v
  | none =>
    dsimp only
    cases m.vm.binding? f.moduleName name with
    | some v => exact .pure v
    | none => exact .fault _

end Engine

theorem Script.assign_at (name : String) (v : Value) (f : Frame) (m : Machine H) :
    (Script.assign name v).run.run f m =
      (match Frame.assignLocal? name v f.scopes with
      | some scopes => modifyThe Frame fun f => { f with scopes }
      | none =>
        if (m.vm.binding? f.moduleName name).isSome then
          modifyThe (Machine H) (·.onVm (·.define f.moduleName name v))
        else fault (.undefinedVariable name) : Script H Unit).run.run f m :=
  rfl

theorem Script.assign_run (name : String) (v : Value) (f : Frame) (m : Machine H) :
    (Script.assign name v).run.run f m =
      match Frame.assignLocal? name v f.scopes with
      | some scopes => .ok (.ok (), { f with scopes }) m
      | none =>
        if (m.vm.binding? f.moduleName name).isSome then
          .ok (.ok (), f) (m.onVm (·.define f.moduleName name v))
        else .ok (.error ⟨.undefinedVariable name, []⟩, f) m := by
  rw [assign_at]
  cases Frame.assignLocal? name v f.scopes with
  | some scopes => rfl
  | none => cases (m.vm.binding? f.moduleName name).isSome <;> rfl

theorem Script.declare_at (name : String) (v : Value) (f : Frame) (m : Machine H) :
    (Script.declare name v).run.run f m =
      (match f.scopes with
      | [] => modifyThe (Machine H) (·.onVm (·.define f.moduleName name v))
      | scope :: outer => modifyThe Frame fun f => { f with scopes := scope.set name v :: outer } :
        Script H Unit).run.run f m :=
  rfl

theorem Script.declare_run (name : String) (v : Value) (f : Frame) (m : Machine H) :
    (Script.declare name v).run.run f m =
      match f.scopes with
      | [] => .ok (.ok (), f) (m.onVm (·.define f.moduleName name v))
      | scope :: outer => .ok (.ok (), { f with scopes := scope.set name v :: outer }) m := by
  rw [declare_at]
  cases f.scopes with
  | nil => rfl
  | cons scope outer => rfl

namespace Engine

variable (engine : Engine H)

theorem assign_evaluates (name : String) (v : Value) :
    Script.Does engine.Evaluates (Script.assign name v) := by
  intro f m r f' m' ran
  rw [Script.assign_run] at ran
  cases assigned : Frame.assignLocal? name v f.scopes with
  | some scopes =>
    rw [assigned] at ran
    cases ran
    exact ⟨rfl, Frame.assignLocal?_names assigned, .still rfl⟩
  | none =>
    rw [assigned] at ran
    dsimp only at ran
    split at ran
    · cases ran
      exact ⟨rfl, rfl, .still (Vm.names_define ‹_› v)⟩
    · cases ran
      exact Chains.refl _

theorem assignTo_evaluates (target : Target) (v : Value) :
    Script.Does engine.Evaluates (Script.assignTo target v) := by
  cases target with
  | «variable» name => exact assign_evaluates engine name v
  | field name =>
    refine .getFrame_bind fun f => ?_
    rcases f.this with _ | _ | _
    case some.object id =>
      exact Script.Does.modifyGet (fun _ _ => ⟨rfl, rfl, .still rfl⟩) f
    all_goals exact Script.Does.fault _ f

theorem newList_evaluates (items : List Value) :
    Script.Does engine.Evaluates (Script.newList items) :=
  (Script.Does.modifyGet fun _ _ => ⟨rfl, rfl, .still rfl⟩).bind fun _ => .pure _

mutual

theorem eval_evaluates (e : Expr) : Script.Does engine.Evaluates (eval engine e) := by
  cases e with
  | number _ x => simp only [eval]; exact .pure _
  | string _ s => simp only [eval]; exact .pure _
  | interpolation _ parts =>
    simp only [eval]
    exact (evalFragments_evaluates parts).bind fun _ => .pure _
  | bool _ b => simp only [eval]; exact .pure _
  | null _ => simp only [eval]; exact .pure _
  | this _ =>
    simp only [eval]
    refine .getFrame_bind fun f => ?_
    cases f.this with
    | some v => exact Script.Does.pure v f
    | none => exact Script.Does.fault _ f
  | «variable» _ name => simp only [eval]; exact lookup_evaluates engine name
  | field _ name => simp only [eval]; exact readField_evaluates engine name
  | list _ elements =>
    simp only [eval]
    exact (evalAll_evaluates elements).bind fun _ => newList_evaluates engine _
  | unary _ op operand =>
    simp only [eval]
    exact (eval_evaluates operand).bind fun v => send_evaluates engine v _ _
  | binary _ op lhs rhs =>
    simp only [eval]
    exact (eval_evaluates lhs).bind fun a => (eval_evaluates rhs).bind fun b =>
      send_evaluates engine a _ _
  | logical _ op lhs rhs =>
    simp only [eval]
    refine (eval_evaluates lhs).bind fun a => ?_
    split
    · exact .pure a
    · exact .pure a
    · exact eval_evaluates rhs
  | assign _ target value =>
    simp only [eval]
    exact (eval_evaluates value).bind fun v =>
      (assignTo_evaluates engine target v).bind fun _ => .pure v
  | getter _ receiver name =>
    simp only [eval]
    exact (eval_evaluates receiver).bind fun v => send_evaluates engine v _ _
  | call _ receiver name args =>
    simp only [eval]
    exact (eval_evaluates receiver).bind fun v => (evalAll_evaluates args).bind fun _ =>
      send_evaluates engine v _ _
  | subscript _ receiver index =>
    simp only [eval]
    exact (eval_evaluates receiver).bind fun v => (eval_evaluates index).bind fun _ =>
      send_evaluates engine v _ _
termination_by structural e

theorem evalAll_evaluates (es : List Expr) : Script.Does engine.Evaluates (evalAll engine es) := by
  cases es with
  | nil => simp only [evalAll]; exact .pure []
  | cons e rest =>
    simp only [evalAll]
    exact (eval_evaluates e).bind fun _ => (evalAll_evaluates rest).bind fun _ => .pure _
termination_by structural es

theorem evalFragments_evaluates (fragments : List Fragment) :
    Script.Does engine.Evaluates (evalFragments engine fragments) := by
  cases fragments with
  | nil => simp only [evalFragments]; exact .pure ""
  | cons fragment rest =>
    cases fragment with
    | literal text =>
      simp only [evalFragments]
      exact (evalFragments_evaluates rest).bind fun _ => .pure _
    | code e =>
      simp only [evalFragments]
      refine (eval_evaluates e).bind fun v => ?_
      have texts : Script.Does engine.Evaluates (Script.ofRun (engine.textOf v)) :=
        Evaluates.ofRun fun _ => textOf_leads engine v
      exact texts.bind fun _ => (evalFragments_evaluates rest).bind fun _ => .pure _
termination_by structural fragments

end

/-! ### Statements -/

variable {declared imported : List String}

/-- An expression, wherever it stands. -/
theorem eval_executes (e : Expr) :
    Script.Does (engine.Executes declared imported) (eval engine e) :=
  (eval_evaluates engine e).imp fun h => h.executes declared imported

theorem markLine_executes (s : Stmt) :
    Script.Does (engine.Executes declared imported) (markLine s) := by
  unfold markLine
  split
  · exact .modifyFrame fun f m => ⟨rfl, rfl, rfl, ⟨[], List.nil_subset _, (widen_nil _).symm⟩,
      .still rfl⟩
  · exact .pure ()

theorem declare_executes (name : String) (v : Value) :
    Script.Does (engine.Executes [name] imported) (Script.declare name v) := by
  intro f m r f' m' ran
  rw [Script.declare_run] at ran
  cases scopes : f.scopes with
  | nil =>
    rw [scopes] at ran
    cases ran
    refine ⟨rfl, rfl, rfl, ⟨[], List.nil_subset _, (widen_nil _).symm⟩, .declares v ?_⟩
    dsimp only
    rw [scopes]
    exact List.mem_singleton_self name
  | cons scope outer =>
    rw [scopes] at ran
    cases ran
    obtain ⟨gained, within, eq, -⟩ := Table.names_set_gains scope name v
    refine ⟨rfl, rfl, rfl, ⟨gained, within, ?_⟩, .still rfl⟩
    unfold Frame.names
    dsimp only
    rw [scopes, List.map_cons, List.map_cons, eq]
    rfl

theorem branch_executes (body : Stmt) (h : Script.Does (engine.Executes body.declares imported)
    (exec engine body)) :
    Script.Does (engine.Executes [] imported) (branch body (exec engine body)) := by
  unfold branch
  cases body with
  | block body => exact h
  | _ => exact Executes.inScope [] h

theorem repeatWhile_executes {condition : Script H Value} {body : Script H Flow}
    (asked : Script.Does (engine.Executes [] imported) condition)
    (h : Script.Does (engine.Executes [] imported) body) (turns : Nat) :
    Script.Does (engine.Executes [] imported) (repeatWhile condition body turns) := by
  induction turns with
  | zero => exact .halt _
  | succ turns ih =>
    refine asked.bind fun v => ?_
    split
    · refine h.bind fun flow => ?_
      cases flow with
      | normal => exact ih
      | broken => exact .pure _
      | returned v => exact .pure _
    · exact .pure _

theorem forEach_executes (name : String) {body : Script H Flow}
    (h : Script.Does (engine.Executes declared imported) body) (vs : List Value) :
    Script.Does (engine.Executes [] imported) (forEach name body vs) := by
  induction vs with
  | nil => exact .pure _
  | cons v rest ih =>
    refine (Executes.inScope [(name, v)] h).bind fun flow => ?_
    cases flow with
    | normal => exact ih
    | broken => exact .pure _
    | returned v => exact .pure _

theorem elementsOf_executes (v : Value) :
    Script.Does (engine.Executes declared imported) (elementsOf v) := by
  cases v with
  | list id => exact .get_bind fun m => .pure _
  | _ => exact .fault _

mutual

theorem exec_executes (s : Stmt) :
    Script.Does (engine.Executes s.declares s.importedNames) (exec engine s) := by
  cases s with
  | expr e =>
    simp only [exec]
    exact (markLine_executes engine _).bind fun _ => (eval_executes engine e).bind fun _ => .pure _
  | var span name init =>
    cases init with
    | some e =>
      simp only [exec]
      exact (markLine_executes engine _).bind fun _ => (eval_executes engine e).bind fun v =>
        (declare_executes engine name v).bind fun _ => .pure _
    | none =>
      simp only [exec]
      exact (markLine_executes engine _).bind fun _ =>
        (declare_executes engine name .null).bind fun _ => .pure _
  | ifElse condition thenBranch elseBranch =>
    cases elseBranch with
    | none =>
      simp only [exec]
      refine (markLine_executes engine _).bind fun _ => (eval_executes engine condition).bind ?_
      intro v
      split
      · exact branch_executes engine thenBranch (exec_executes thenBranch)
      · exact .pure _
    | some other =>
      simp only [exec]
      refine (markLine_executes engine _).bind fun _ => (eval_executes engine condition).bind ?_
      intro v
      split
      · exact (branch_executes engine thenBranch (exec_executes thenBranch)).imp fun h =>
          h.mono (List.Subset.refl _) (List.subset_append_left _ _)
      · exact (branch_executes engine other (exec_executes other)).imp fun h =>
          h.mono (List.Subset.refl _) (List.subset_append_right _ _)
  | whileLoop condition body =>
    simp only [exec]
    exact (markLine_executes engine _).bind fun _ =>
      repeatWhile_executes engine (eval_executes engine condition)
        (branch_executes engine body (exec_executes body)) engine.limit
  | forLoop name sequence body =>
    simp only [exec]
    exact (markLine_executes engine _).bind fun _ => (eval_executes engine sequence).bind fun v =>
      (elementsOf_executes engine v).bind fun vs =>
        forEach_executes engine name (exec_executes body) vs
  | block body =>
    simp only [exec]
    exact (markLine_executes engine _).bind fun _ => Executes.inScope [] (execAll_executes body)
  | returnValue span value =>
    cases value with
    | some e =>
      simp only [exec]
      exact (markLine_executes engine _).bind fun _ => (eval_executes engine e).bind fun _ =>
        .pure _
    | none =>
      simp only [exec]
      exact (markLine_executes engine _).bind fun _ => .pure _
  | breakLoop span =>
    simp only [exec]
    exact (markLine_executes engine _).bind fun _ => .pure _
  | classDecl decl =>
    simp only [exec]
    refine (markLine_executes engine _).bind fun _ => .getFrame_ofRun (fun f => ?_) fun id =>
      (declare_executes engine decl.name _).bind fun _ => .pure _
    exact (defineClass_leads engine f.moduleName decl).imp (Executes.ofLeads f)
  | importNames span source names =>
    simp only [exec]
    refine (markLine_executes engine _).bind fun _ => .getFrame_ofRun (fun f => ?_) fun _ =>
      .pure _
    exact (importNames_leads engine source names).imp (Executes.ofLeads f)
termination_by structural s

theorem execAll_executes (statements : List Stmt) :
    Script.Does (engine.Executes (statements.flatMap Stmt.declares) (importedNamesOf statements))
      (execAll engine statements) := by
  cases statements with
  | nil => simp only [execAll]; exact .pure _
  | cons s rest =>
    simp only [execAll]
    have first := (exec_executes s).imp fun h =>
      h.mono (List.subset_append_left s.declares (rest.flatMap Stmt.declares))
        (List.subset_append_left s.importedNames (importedNamesOf rest))
    refine first.bind fun flow => ?_
    cases flow with
    | normal =>
      exact (execAll_executes rest).imp fun h =>
        h.mono (List.subset_append_right _ _) (List.subset_append_right _ _)
    | broken => exact .pure _
    | returned v => exact .pure _
termination_by structural statements

end

end Engine

/-! ### What a declaration leaves -/

/-- A variable stands where a declaration puts it: in the innermost scope, or in the module if there
is none. -/
def Frame.Has (f : Frame) (vm : Vm) (name : String) : Prop :=
  match f.scopes with
  | [] => vm.hasModule f.moduleName = true → (vm.binding? f.moduleName name).isSome = true
  | scope :: _ => scope.has name = true

theorem Script.declare_leaves (name : String) (v : Value) (flow : Flow) :
    Script.Leaves (fun _ (t : Situation H) => t.1.Has t.2.vm name)
      (Script.declare name v >>= fun _ => Pure.pure flow) := by
  intro f m a f' m' ran
  obtain ⟨_, failed, -⟩ | ⟨_, k, n, declared, ended⟩ := Script.bind_inv ran
  · cases failed
  rw [Script.declare_run] at declared
  cases scopes : f.scopes with
  | nil =>
    rw [scopes] at declared
    cases declared
    cases ended
    unfold Frame.Has
    rw [scopes]
    intro known
    change ((m.vm.define f.moduleName name v).binding? f.moduleName name).isSome = true
    obtain ⟨vars, there⟩ := Table.has_iff.mp ((Table.has_update _ _ _ _).symm.trans known)
    rw [Vm.binding?_define, if_pos ⟨rfl, rfl⟩, there]
    rfl
  | cons scope outer =>
    rw [scopes] at declared
    cases declared
    cases ended
    exact (Table.has_set _ _ _).mpr (.inl rfl)

theorem exec_leaves (engine : Engine H) (s : Stmt) {name : String} (listed : name ∈ s.declares) :
    Script.Leaves (fun _ (t : Situation H) => t.1.Has t.2.vm name) (exec engine s) := by
  cases s with
  | var span declared init =>
    obtain rfl := List.mem_singleton.mp listed
    simp only [exec]
    cases init with
    | some e => exact .bind fun _ => .bind fun v => Script.declare_leaves name v .normal
    | none => exact .bind fun _ => Script.declare_leaves name .null .normal
  | classDecl decl =>
    obtain rfl := List.mem_singleton.mp listed
    simp only [exec]
    exact .bind fun _ => .bind fun f => .bind fun id => Script.declare_leaves decl.name _ .normal
  | _ => cases listed

/-! ### What an assignment changes -/

/-- What an assignment of a value to a variable comes to: the innermost scope that has the name gets
the value, else the module if it has the name; else there is a fault, and nothing is changed. -/
inductive Frame.Assigns (name : String) (v : Value) (f : Frame) (m : Machine H) :
    EStateM.Result Halt (Machine H) (Except RuntimeError Value × Frame) → Prop
  | scope {inner scope outer} : f.scopes = inner ++ scope :: outer →
    (∀ nearer ∈ inner, nearer.has name = false) → scope.has name = true →
    Assigns name v f m (.ok (.ok v, { f with scopes := inner ++ scope.set name v :: outer }) m)
  | ofModule : f.local? name = none → (m.vm.binding? f.moduleName name).isSome = true →
    Assigns name v f m (.ok (.ok v, f) (m.onVm (·.define f.moduleName name v)))
  | undefined : f.local? name = none → (m.vm.binding? f.moduleName name).isSome = false →
    Assigns name v f m (.ok (.error ⟨.undefinedVariable name, []⟩, f) m)

theorem Frame.assignLocal?_some {name : String} {v : Value} {scopes scopes' : List Bindings}
    (assigned : Frame.assignLocal? name v scopes = some scopes') :
    ∃ inner scope outer, scopes = inner ++ scope :: outer ∧
      (∀ nearer ∈ inner, nearer.has name = false) ∧ scope.has name = true ∧
      scopes' = inner ++ scope.set name v :: outer := by
  induction scopes generalizing scopes' with
  | nil => cases assigned
  | cons scope outer ih =>
    unfold Frame.assignLocal? at assigned
    split at assigned
    · cases assigned
      exact ⟨[], scope, outer, rfl, List.forall_mem_nil _, ‹_›, rfl⟩
    · obtain ⟨_, found, rfl⟩ := Option.map_eq_some_iff.mp assigned
      obtain ⟨inner, there, rest, rfl, lacking, has, rfl⟩ := ih found
      refine ⟨scope :: inner, there, rest, rfl, ?_, has, rfl⟩
      exact List.forall_mem_cons.mpr ⟨Bool.eq_false_iff.mpr ‹_›, lacking⟩

theorem Frame.assignLocal?_none {name : String} {v : Value} {scopes : List Bindings}
    (lacking : Frame.assignLocal? name v scopes = none) :
    scopes.findSome? (·.get? name) = none := by
  induction scopes with
  | nil => rfl
  | cons scope outer ih =>
    unfold Frame.assignLocal? at lacking
    split at lacking
    · cases lacking
    · have absent : scope.get? name = none := by
        simpa [Table.has] using ‹¬scope.has name = true›
      rw [List.findSome?_cons, absent]
      exact ih (Option.map_eq_none_iff.mp lacking)

theorem eval_assigns (engine : Engine H) (span : Span) (name : String) (value : Expr) {v : Value}
    {f f' : Frame} {m m' : Machine H}
    (ran : (eval engine value).run.run f m = .ok (.ok v, f') m') :
    f'.Assigns name v m' ((eval engine (.assign span (.variable name) value)).run.run f m) := by
  have assigned : (eval engine (.assign span (.variable name) value)).run.run f m =
      (Script.assign name v >>= fun _ => Pure.pure v : Script H Value).run.run f' m' := by
    simp only [eval]
    exact Script.bind_run ran
  rw [assigned]
  have run := Script.assign_run name v f' m'
  cases found : Frame.assignLocal? name v f'.scopes with
  | some scopes =>
    rw [found] at run
    obtain ⟨inner, scope, outer, eq, lacking, has, rfl⟩ := Frame.assignLocal?_some found
    rw [Script.bind_run run]
    exact .scope eq lacking has
  | none =>
    rw [found] at run
    have absent : f'.local? name = none := Frame.assignLocal?_none found
    cases known : (m'.vm.binding? f'.moduleName name).isSome with
    | true =>
      rw [known] at run
      rw [Script.bind_run run]
      exact .ofModule absent known
    | false =>
      rw [known] at run
      rw [Script.bind_failed run]
      exact .undefined absent known

/-! ### Scopes -/

/-- Whatever a statement does and however it ends, its activation is the same one with as many
scopes. The innermost gains at most the variable that the statement itself declares, and has it if
all goes well; the others gain nothing. Where there is no scope, it is the module that gains; else
the module gains what is imported alone, apart from what further code does. Every other name means
a local variable just if it did. An expression leaves all of the activation but the values of its
variables; an assignment sets the innermost variable of its name. -/
theorem scopes_kept (engine : Engine H) :
    (∀ (s : Stmt) (f : Frame) (m : Machine H) r f' m',
      (exec engine s).run.run f m = .ok (r, f') m' →
      (f'.moduleName = f.moduleName ∧ f'.this = f.this ∧ f'.function = f.function) ∧
      f'.scopes.length = f.scopes.length ∧
      (∃ gained, gained ⊆ s.declares ∧ f'.names = widen gained f.names) ∧
      (r = .ok .normal → ∀ x ∈ s.declares, f'.Has m'.vm x) ∧
      (∀ x ∉ s.declares, (f'.local? x).isSome = (f.local? x).isSome) ∧
      engine.Leads f.moduleName (if f.scopes.isEmpty then s.declares else []) s.importedNames m m' ∧
      ∀ home x, (m.vm.binding? home x).isSome = false → (m'.vm.binding? home x).isSome = true →
        home = f.moduleName ∧ (f.scopes = [] ∧ x ∈ s.declares ∨ x ∈ s.importedNames) ∨
          engine.Binds home x) ∧
    (∀ (e : Expr) (f : Frame) (m : Machine H) r f' m',
      (eval engine e).run.run f m = .ok (r, f') m' →
      f' = { f with scopes := f'.scopes } ∧ f'.names = f.names ∧
      engine.Leads f.moduleName [] [] m m') ∧
    ∀ (span : Span) (name : String) (value : Expr) (f : Frame) (m : Machine H) v f' m',
      (eval engine value).run.run f m = .ok (.ok v, f') m' →
      f'.Assigns name v m' ((eval engine (.assign span (.variable name) value)).run.run f m) := by
  refine ⟨fun s f m r f' m' ran => ?_, fun e f m r f' m' ran => ?_,
    fun span name value f m v f' m' ran => eval_assigns engine span name value ran⟩
  · have does := engine.exec_executes s f m r f' m' ran
    obtain ⟨gained, within, eq⟩ := does.names
    refine ⟨⟨does.moduleName, does.this, does.function⟩, ?_, ⟨gained, within, eq⟩, ?_, ?_,
      does.leads, ?_⟩
    · rw [← f'.length_names, eq, length_widen, f.length_names]
    · rintro rfl x listed
      exact exec_leaves engine s listed f m .normal f' m' ran
    · intro x absent
      have outside : x ∉ gained := fun listed => absent (within listed)
      rw [Bool.eq_iff_iff, Frame.local?_isSome, Frame.local?_isSome, eq, mem_widen outside]
    · intro home x new there
      refine (does.leads.gained new there).imp_left fun ⟨here, cause⟩ => ⟨here, ?_⟩
      refine cause.imp_left fun listed => ?_
      split at listed
      · exact ⟨List.isEmpty_iff.mp ‹_›, listed⟩
      · cases listed
  · have does := engine.eval_evaluates e f m r f' m' ran
    exact ⟨does.rest, does.names, does.leads⟩

/-- A block inside a scope: what it declares is gone after it, and what it assigned to is not. -/
theorem scopes_kept_block :
    let engine := (Plan.conduct ⟨[], [], [], ⟨true, true, true, true, true⟩⟩).host.engine 1
    let s : Stmt := .block [.var default "a" none,
      .expr (.assign default (.variable "b") (.bool default true))]
    let f : Frame := ⟨"main", none, [[("b", .null)]], 0, "(script)"⟩
    ∃ f', (exec engine s).run.run f (.fresh .empty) = .ok (.ok .normal, f') (.fresh .empty) ∧
      f'.local? "b" = some (.bool true) ∧ (f'.local? "a").isSome = (f.local? "a").isSome := by
  intro engine s f
  have ran : (exec engine s).run.run f (.fresh .empty) =
      .ok (.ok .normal, ⟨"main", none, [[("b", .bool true)]], 0, "(script)"⟩) (.fresh .empty) := rfl
  obtain ⟨-, -, -, -, others, -⟩ := (scopes_kept engine).1 s f _ _ _ _ ran
  exact ⟨_, ran, rfl, others "a" (by decide)⟩

end ScriptHost
