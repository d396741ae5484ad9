import ScriptHost.Proofs.Homes.Keeping
import ScriptHost.Proofs.Simulation.Execution

/-! Code that is noted. By induction on the expression and on the statement: code that runs for a
class in the module of that class does what it does without notes, and every note that it makes is
true. -/

namespace ScriptHost
namespace Diaried

variable {H α β : Type} {core : ClassId} {known : ClassId → String → Prop}
  {host₁ : Host (Diaried H)} {host₂ : Host H} {e₁ : Engine (Diaried H)} {e₂ : Engine H}
  {ρ : Renaming} {moduleName : String} {v w : Value} {owner : Option ClassId}

/-- Code that runs for a class runs in the module of that class. -/
def Owned (known : ClassId → String → Prop) (owner : Option ClassId) (moduleName : String) : Prop :=
  ∀ classId, owner = some classId → known classId moduleName

theorem owned_none : Owned known none moduleName := nofun

/-! ### Names -/

theorem noteFree_sim {P : Results α β} {x : Script (Diaried H) α} {y : Script H β} {f : Frame}
    (owned : Owned known owner f.moduleName) (name : String) (assigned : Bool)
    (h : ScriptSim (erasure H core known) ρ moduleName P x y) :
    ScriptSim (erasure H core known) ρ moduleName P
      (noteFree owner f name assigned >>= fun _ => x) y := by
  cases owner with
  | none => exact h
  | some classId =>
    rintro k l m _ hkl ⟨rfl, rfl, keeping⟩
    have there := keeping.classes classId f.moduleName (owned classId rfl)
    exact h k l (noted (.free classId ⟨m.vm.core, f.moduleName⟩ name assigned) m) _ hkl
      ⟨rfl, rfl, keeping.noted keeping.running there⟩

theorem lookup_sim (laws : Lawful (erasure H core known) host₁ host₂)
    (owned : Owned known owner moduleName) (name : String) :
    ScriptSim (erasure H core known) ρ moduleName .alike (lookup owner name)
      (Script.lookup (H := H) name) := by
  refine .getFrame_bind fun k l hkl => .get_bind fun m n hmn => ?_
  rw [← hkl.first] at owned
  obtain ⟨hk, hl⟩ | ⟨v, w, hk, hl, hvw⟩ := optionRel_cases (hkl.local? name)
  · rw [hk, hl]
    refine noteFree_sim owned name false ?_
    rw [hkl.first, hkl.second]
    obtain ⟨hm, hn⟩ | ⟨v, w, hm, hn, hvw⟩ :=
      optionRel_cases (laws.binding? hmn moduleName name)
    · rw [hm, hn]
      exact laws.scriptFault _ rfl
    · rw [hm, hn]
      exact .pure hvw
  · rw [hk, hl]
    exact .pure hvw

theorem assign_sim (laws : Lawful (erasure H core known) host₁ host₂)
    (owned : Owned known owner moduleName) (name : String) (hv : v.Alike ρ w) :
    ScriptSim (erasure H core known) ρ moduleName .same (assign owner name v)
      (Script.assign (H := H) name w) := by
  refine .getFrame_bind fun k l hkl => .get_bind fun m n hmn => ?_
  rw [← hkl.first] at owned
  obtain ⟨hk, hl⟩ | ⟨s, t, hk, hl, hst⟩ :=
    optionRel_cases (Frame.assignLocal?_alike name hv hkl.scopes)
  · rw [hk, hl]
    refine noteFree_sim owned name true ?_
    rw [hkl.first, hkl.second, optionRel_isSome (laws.binding? hmn moduleName name)]
    split
    · exact Script.define_sim laws name hv
    · exact laws.scriptFault _ rfl
  · rw [hk, hl]
    exact .modifyFrame fun _ _ h => h.withScopes hst

theorem assignTo_sim (laws : Lawful (erasure H core known) host₁ host₂)
    (owned : Owned known owner moduleName) (target : Target) (hv : v.Alike ρ w) :
    ScriptSim (erasure H core known) ρ moduleName .same (assignTo owner target v)
      (Script.assignTo (H := H) target w) := by
  cases target with
  | «variable» name => exact assign_sim laws owned name hv
  | field name => exact Script.writeField_sim laws name hv

/-! ### Expressions -/

mutual

theorem eval_sim (laws : Lawful (erasure H core known) host₁ host₂)
    (engines : Engine.Alike (erasure H core known) host₁ host₂ e₁ e₂)
    (owned : Owned known owner moduleName) {ρ : Renaming} (e : Expr) :
    ScriptSim (erasure H core known) ρ moduleName .alike (eval owner e₁ e)
      (ScriptHost.eval e₂ e) := by
  cases e with
  | number _ x => simp only [eval, ScriptHost.eval]; exact .pure (.number x)
  | string _ s => simp only [eval, ScriptHost.eval]; exact .pure (.string s)
  | bool _ b => simp only [eval, ScriptHost.eval]; exact .pure (.bool b)
  | null _ => simp only [eval, ScriptHost.eval]; exact .pure .null
  | this span =>
    rw [eval]
    exact Script.this_sim laws span
  | «variable» _ name => simp only [eval, ScriptHost.eval]; exact lookup_sim laws owned name
  | field _ name => simp only [eval, ScriptHost.eval]; exact Script.readField_sim laws name
  | interpolation _ parts =>
    simp only [eval, ScriptHost.eval]
    refine (evalFragments_sim laws engines owned parts).bind fun _ same => ?_
    obtain rfl := same
    exact .pure (.string _)
  | list _ elements =>
    simp only [eval, ScriptHost.eval]
    exact (evalAll_sim laws engines owned elements).bind fun _ h => Script.newList_sim laws h
  | unary _ op operand =>
    simp only [eval, ScriptHost.eval]
    exact (eval_sim laws engines owned operand).bind fun _ h =>
      Script.send_sim engines h op.text .nil
  | binary _ op lhs rhs =>
    simp only [eval, ScriptHost.eval]
    refine (eval_sim laws engines owned lhs).bind fun _ ha => ?_
    refine (eval_sim laws engines owned rhs).bind fun le hb => ?_
    exact Script.send_sim engines (ha.mono le) _ (.cons hb .nil)
  | logical _ op lhs rhs =>
    simp only [eval, ScriptHost.eval]
    refine (eval_sim laws engines owned lhs).bind fun {σ a b} _ ha => ?_
    rw [ha.isTrue]
    cases op with
    | and =>
      cases b.isTrue with
      | false => exact .pure ha
      | true => exact eval_sim laws engines owned rhs
    | or =>
      cases b.isTrue with
      | false => exact eval_sim laws engines owned rhs
      | true => exact .pure ha
  | assign _ target value =>
    simp only [eval, ScriptHost.eval]
    refine (eval_sim laws engines owned value).bind fun _ hv => ?_
    exact (assignTo_sim laws owned target hv).bind fun le _ => .pure (hv.mono le)
  | getter _ receiver name =>
    simp only [eval, ScriptHost.eval]
    exact (eval_sim laws engines owned receiver).bind fun _ h => Script.send_sim engines h _ .nil
  | call _ receiver name args =>
    simp only [eval, ScriptHost.eval]
    refine (eval_sim laws engines owned receiver).bind fun _ hv => ?_
    refine (evalAll_sim laws engines owned args).bind fun le hvs => ?_
    exact Script.send_sim engines (hv.mono le) _ hvs
  | subscript _ receiver index =>
    simp only [eval, ScriptHost.eval]
    refine (eval_sim laws engines owned receiver).bind fun _ hv => ?_
    refine (eval_sim laws engines owned index).bind fun le hi => ?_
    exact Script.send_sim engines (hv.mono le) _ (.cons hi .nil)
termination_by structural e

theorem evalAll_sim (laws : Lawful (erasure H core known) host₁ host₂)
    (engines : Engine.Alike (erasure H core known) host₁ host₂ e₁ e₂)
    (owned : Owned known owner moduleName) {ρ : Renaming} (es : List Expr) :
    ScriptSim (erasure H core known) ρ moduleName .allAlike (evalAll owner e₁ es)
      (ScriptHost.evalAll e₂ es) := by
  cases es with
  | nil => simp only [evalAll, ScriptHost.evalAll]; exact .pure .nil
  | cons e es =>
    simp only [evalAll, ScriptHost.evalAll]
    refine (eval_sim laws engines owned e).bind fun _ hv => ?_
    exact (evalAll_sim laws engines owned es).bind fun le hvs => .pure (.cons (hv.mono le) hvs)
termination_by structural es

theorem evalFragments_sim (laws : Lawful (erasure H core known) host₁ host₂)
    (engines : Engine.Alike (erasure H core known) host₁ host₂ e₁ e₂)
    (owned : Owned known owner moduleName) {ρ : Renaming} (parts : List Fragment) :
    ScriptSim (erasure H core known) ρ moduleName .same (evalFragments owner e₁ parts)
      (ScriptHost.evalFragments e₂ parts) := by
  cases parts with
  | nil => simp only [evalFragments, ScriptHost.evalFragments]; exact .pure rfl
  | cons part parts =>
    cases part with
    | literal text =>
      simp only [evalFragments, ScriptHost.evalFragments]
      refine (evalFragments_sim laws engines owned parts).bind fun _ same => ?_
      obtain rfl := same
      exact .pure rfl
    | code e =>
      simp only [evalFragments, ScriptHost.evalFragments]
      refine (eval_sim laws engines owned e).bind fun _ hv => ?_
      refine (ScriptSim.ofRun (Engine.textOf_sim laws engines hv)).bind fun _ same => ?_
      obtain rfl := same
      refine (evalFragments_sim laws engines owned parts).bind fun _ same => ?_
      obtain rfl := same
      exact .pure rfl
termination_by structural parts

end

/-! ### Statements -/

theorem bindMethods_moduleName {engine : Engine H} {c c' : ClassObject} {decls : List MethodDecl}
    {m m' : Machine H} (bound : (bindMethods engine c decls).run m = .ok (.ok c') m') :
    c'.moduleName = c.moduleName := by
  induction decls generalizing c m with
  | nil =>
    cases bound
    rfl
  | cons decl rest ih =>
    obtain ⟨_ | method, _, -, later⟩ := Live.bind_inv (m := m) bound
    · cases later
    · have same := ih later
      split at same <;> exact same

/-- The class that a declaration makes is of the module that the declaration is executed in. -/
theorem defineClass_inModule {engine : Engine H} {moduleName : String} {decl : ClassDecl}
    {id : ClassId} {m m' : Machine H}
    (made : (ScriptHost.defineClass engine moduleName decl).run m = .ok (.ok id) m') :
    m'.heap.InModule id moduleName := by
  obtain ⟨_ | binding, _, -, later⟩ := Live.bind_inv (m := m) made
  · cases later
  · obtain ⟨_ | c, n, bound, last⟩ := Live.bind_inv later
    · cases last
    · cases last
      refine ⟨c, ?_, bindMethods_moduleName bound⟩
      exact Array.getElem?_push_size

theorem defineClass_sim (laws : Lawful (erasure H core known) host₁ host₂)
    (engines : Engine.Alike (erasure H core known) host₁ host₂ e₁ e₂) (moduleName : String)
    (decl : ClassDecl) :
    RunSim (erasure H core known) ρ (fun σ a b => σ.classes a b) (defineClass e₁ moduleName decl)
      (ScriptHost.defineClass e₂ moduleName decl) := by
  intro m n hmn
  have defined := laws.defineClass engines.callbacks₁ engines.callbacks₂ ρ moduleName decl trivial
    m n hmn
  have inModule := defined.and_left (C := fun r m' => ∀ id, r = .ok id →
    m'.heap.InModule id moduleName) fun made id same => defineClass_inModule (same ▸ made)
  change (erasure H core known).Ended _ _
    (EStateM.bind (ScriptHost.defineClass e₁ moduleName decl).run _ m) _
  unfold EStateM.bind
  revert inModule
  generalize (ScriptHost.defineClass e₁ moduleName decl).run m = r,
    (ScriptHost.defineClass e₂ moduleName decl).run n = s
  rintro (⟨le, ⟨⟨⟨rfl, rfl, keeping⟩, same⟩ | fault, there⟩⟩ | ⟨le, halted⟩ | stopped)
  · exact .ok le (.ok ⟨rfl, rfl, keeping.noted keeping.running (there _ rfl)⟩ same)
  · exact .ok le (.fault fault)
  · exact .halt le halted
  · exact .stopped stopped

mutual

theorem exec_sim (laws : Lawful (erasure H core known) host₁ host₂)
    (engines : Engine.Alike (erasure H core known) host₁ host₂ e₁ e₂)
    (owned : Owned known owner moduleName) {ρ : Renaming} (s : Stmt) :
    ScriptSim (erasure H core known) ρ moduleName Flow.Alike (exec owner e₁ s)
      (ScriptHost.exec e₂ s) := by
  cases s with
  | expr e =>
    simp only [exec, ScriptHost.exec]
    refine (markLine_sim _).bind fun _ _ => ?_
    exact (eval_sim laws engines owned e).bind fun _ _ => .pure .normal
  | var span name init =>
    cases init with
    | none =>
      simp only [exec, ScriptHost.exec]
      refine (markLine_sim _).bind fun _ _ => ?_
      exact (Script.declare_sim laws name .null).bind fun _ _ => .pure .normal
    | some e =>
      simp only [exec, ScriptHost.exec]
      refine (markLine_sim _).bind fun _ _ => ?_
      refine (eval_sim laws engines owned e).bind fun _ h => ?_
      exact (Script.declare_sim laws name h).bind fun _ _ => .pure .normal
  | ifElse condition thenBranch elseBranch =>
    cases elseBranch with
    | none =>
      simp only [exec, ScriptHost.exec]
      refine (markLine_sim _).bind fun _ _ => ?_
      refine (eval_sim laws engines owned condition).bind fun _ hvw => ?_
      rw [hvw.isTrue]
      split
      · exact branch_sim thenBranch (exec_sim laws engines owned thenBranch)
      · exact .pure .normal
    | some other =>
      simp only [exec, ScriptHost.exec]
      refine (markLine_sim _).bind fun _ _ => ?_
      refine (eval_sim laws engines owned condition).bind fun _ hvw => ?_
      rw [hvw.isTrue]
      split
      · exact branch_sim thenBranch (exec_sim laws engines owned thenBranch)
      · exact branch_sim other (exec_sim laws engines owned other)
  | whileLoop condition body =>
    simp only [exec, ScriptHost.exec]
    refine (markLine_sim _).bind fun _ _ => ?_
    rw [engines.limit]
    exact repeatWhile_sim laws (fun _ => eval_sim laws engines owned condition)
      (fun _ => branch_sim body (exec_sim laws engines owned body)) e₂.limit
  | forLoop name sequence body =>
    simp only [exec, ScriptHost.exec]
    refine (markLine_sim _).bind fun _ _ => ?_
    refine (eval_sim laws engines owned sequence).bind fun _ hvw => ?_
    refine (elementsOf_sim laws hvw).bind fun _ hvs => ?_
    exact forEach_sim name hvs fun _ => exec_sim laws engines owned body
  | block body =>
    simp only [exec, ScriptHost.exec]
    refine (markLine_sim _).bind fun _ _ => ?_
    exact .inScope .nil (execAll_sim laws engines owned body)
  | returnValue span value =>
    cases value with
    | none =>
      simp only [exec, ScriptHost.exec]
      exact (markLine_sim _).bind fun _ _ => .pure (.returned .null)
    | some e =>
      simp only [exec, ScriptHost.exec]
      refine (markLine_sim _).bind fun _ _ => ?_
      exact (eval_sim laws engines owned e).bind fun _ h => .pure (.returned h)
  | breakLoop span =>
    simp only [exec, ScriptHost.exec]
    exact (markLine_sim _).bind fun _ _ => .pure .broken
  | classDecl decl =>
    simp only [exec, ScriptHost.exec]
    refine (markLine_sim _).bind fun _ _ => .getFrame_bind fun k l hkl => ?_
    rw [hkl.first, hkl.second]
    refine (ScriptSim.ofRun (defineClass_sim laws engines moduleName decl)).bind fun _ h => ?_
    exact (Script.declare_sim laws decl.name (.classObject h)).bind fun _ _ => .pure .normal
  | importNames span source names =>
    simp only [exec, ScriptHost.exec]
    refine (markLine_sim _).bind fun _ _ => .getFrame_bind fun k l hkl => ?_
    rw [hkl.first, hkl.second]
    refine (ScriptSim.ofRun (importNames_sim laws engines source moduleName names)).bind ?_
    exact fun _ _ => .pure .normal
termination_by structural s

theorem execAll_sim (laws : Lawful (erasure H core known) host₁ host₂)
    (engines : Engine.Alike (erasure H core known) host₁ host₂ e₁ e₂)
    (owned : Owned known owner moduleName) {ρ : Renaming} (statements : List Stmt) :
    ScriptSim (erasure H core known) ρ moduleName Flow.Alike (execAll owner e₁ statements)
      (ScriptHost.execAll e₂ statements) := by
  cases statements with
  | nil => simp only [execAll, ScriptHost.execAll]; exact .pure .normal
  | cons s rest =>
    simp only [execAll, ScriptHost.execAll]
    refine (exec_sim laws engines owned s).bind fun _ flow => ?_
    cases flow with
    | normal => exact execAll_sim laws engines owned rest
    | broken => exact .pure .broken
    | returned h => exact .pure (.returned h)
termination_by structural statements

end

end Diaried
end ScriptHost
