import ScriptHost.Proofs.Simulation.Evaluation

/-! Statements executed by related engines. By induction on the statement: the parts are executed
alike, loops by induction on their turns. -/

namespace ScriptHost

variable {H₁ H₂ : Type} {S : Simulation H₁ H₂} {host₁ : Host H₁} {host₂ : Host H₂}
  {e₁ : Engine H₁} {e₂ : Engine H₂} {ρ : Renaming} {moduleName : String} {v w : Value}

/-- Statements that ended the same way. -/
inductive Flow.Alike (ρ : Renaming) : Flow → Flow → Prop
  | normal : Alike ρ .normal .normal
  | returned {v w : Value} : v.Alike ρ w → Alike ρ (.returned v) (.returned w)
  | broken : Alike ρ .broken .broken

/-! ### Imports -/

theorem copyNames_sim (laws : Lawful S host₁ host₂) (source into : String) (names : List String) :
    RunSim S ρ .same (copyNames (H := H₁) source into names)
      (copyNames (H := H₂) source into names) := by
  induction names generalizing ρ with
  | nil => exact .pure rfl
  | cons name rest ih =>
    refine .get_bind fun m n hmn => ?_
    obtain ⟨hm, hn⟩ | ⟨v, w, hm, hn, hvw⟩ := optionRel_cases (laws.binding? hmn source name)
    · rw [hm, hn]
      exact laws.plainFault _ rfl m n hmn
    · rw [hm, hn]
      have defined : RunSim S ρ .same (modify (·.onVm (·.define into name v)) : Run H₁ Unit)
          (modify (·.onVm (·.define into name w)) : Run H₂ Unit) :=
        .modify fun _ _ hmn => laws.define hmn into name hvw
      exact defined.bind (fun _ _ => ih) m n hmn

theorem importNames_sim (laws : Lawful S host₁ host₂) (engines : Engine.Alike S host₁ host₂ e₁ e₂)
    (source into : String) (names : List String) :
    RunSim S ρ .same (importNames e₁ source into names) (importNames e₂ source into names) := by
  refine .get_bind fun m n hmn => ?_
  have copied {σ : Renaming} : RunSim S σ .same (copyNames (H := H₁) source into names)
    (copyNames (H := H₂) source into names) := copyNames_sim laws source into names
  rw [laws.hasModule hmn source]
  cases n.vm.hasModule source with
  | true => exact copied m n hmn
  | false => exact (engines.perform (.load source)).bind (fun _ _ => copied) m n hmn

/-! ### Control flow -/

theorem branch_sim (body : Stmt) {x : Script H₁ Flow} {y : Script H₂ Flow}
    (h : ScriptSim S ρ moduleName Flow.Alike x y) :
    ScriptSim S ρ moduleName Flow.Alike (branch body x) (branch body y) := by
  unfold branch
  split
  · exact h
  · exact .inScope .nil h

theorem repeatWhile_sim (laws : Lawful S host₁ host₂) {c : Script H₁ Value} {d : Script H₂ Value}
    {x : Script H₁ Flow} {y : Script H₂ Flow}
    (hc : ∀ {σ}, ρ ≤ σ → ScriptSim S σ moduleName .alike c d)
    (hx : ∀ {σ}, ρ ≤ σ → ScriptSim S σ moduleName Flow.Alike x y) (turns : Nat) :
    ScriptSim S ρ moduleName Flow.Alike (repeatWhile c x turns) (repeatWhile d y turns) := by
  induction turns generalizing ρ with
  | zero => exact .halt fun _ _ hmn => laws.exhaust hmn
  | succ turns ih =>
    refine (hc le_rfl).bind fun le hvw => ?_
    rw [hvw.isTrue]
    split
    · refine (hx le).bind fun le' flow => ?_
      cases flow with
      | normal =>
        exact ih (fun le'' => hc (le.trans (le'.trans le'')))
          (fun le'' => hx (le.trans (le'.trans le'')))
      | broken => exact .pure .normal
      | returned h => exact .pure (.returned h)
    · exact .pure .normal

theorem forEach_sim (name : String) {x : Script H₁ Flow} {y : Script H₂ Flow}
    {vs ws : List Value} (hvs : Value.AllAlike ρ vs ws)
    (hx : ∀ {σ}, ρ ≤ σ → ScriptSim S σ moduleName Flow.Alike x y) :
    ScriptSim S ρ moduleName Flow.Alike (forEach name x vs) (forEach name y ws) := by
  induction vs generalizing ρ ws with
  | nil =>
    cases hvs with
    | nil => exact .pure .normal
  | cons v vs ih =>
    cases hvs with
    | @cons _ w _ ws hv hvs =>
      have scope : Bindings.Alike ρ [(name, v)] [(name, w)] := .cons ⟨rfl, hv⟩ .nil
      refine (ScriptSim.inScope scope (hx le_rfl)).bind fun le flow => ?_
      cases flow with
      | normal => exact ih (Value.AllAlike.mono hvs le) fun le' => hx (le.trans le')
      | broken => exact .pure .normal
      | returned h => exact .pure (.returned h)

theorem elementsOf_sim (laws : Lawful S host₁ host₂) (hv : v.Alike ρ w) :
    ScriptSim S ρ moduleName .allAlike (elementsOf (H := H₁) v) (elementsOf (H := H₂) w) := by
  cases hv with
  | list h => exact .get_bind fun m n hmn => .pure (laws.list hmn h)
  | _ => exact laws.scriptFault _ rfl

theorem markLine_sim (s : Stmt) :
    ScriptSim S ρ moduleName .same (markLine (H := H₁) s) (markLine (H := H₂) s) := by
  unfold markLine
  split
  · exact .modifyFrame fun _ _ h => h.atLine _
  · exact .pure rfl

theorem classDecl_sim (laws : Lawful S host₁ host₂) (engines : Engine.Alike S host₁ host₂ e₁ e₂)
    {decl : ClassDecl} (written : S.written moduleName decl) :
    ScriptSim S ρ moduleName Flow.Alike
      (do
        let id ← Script.ofRun (defineClass e₁ (← getThe Frame).moduleName decl)
        Script.declare decl.name (.classObject id)
        return .normal)
      (do
        let id ← Script.ofRun (defineClass e₂ (← getThe Frame).moduleName decl)
        Script.declare decl.name (.classObject id)
        return .normal) := by
  refine .getFrame_bind fun k l hkl => ?_
  rw [hkl.first, hkl.second]
  have defined := laws.defineClass engines.callbacks₁ engines.callbacks₂ ρ moduleName decl written
  refine (ScriptSim.ofRun defined).bind fun _ h => ?_
  exact (Script.declare_sim laws decl.name (.classObject h)).bind fun _ _ => .pure .normal

mutual

theorem exec_sim (laws : Lawful S host₁ host₂) (engines : Engine.Alike S host₁ host₂ e₁ e₂)
    {ρ : Renaming} (s : Stmt) (written : ∀ decl ∈ s.declarations, S.written moduleName decl) :
    ScriptSim S ρ moduleName Flow.Alike (exec e₁ s) (exec e₂ s) := by
  cases s with
  | expr e =>
    simp only [exec]
    refine (markLine_sim _).bind fun _ _ => ?_
    exact (eval_sim laws engines e).bind fun _ _ => .pure .normal
  | var span name init =>
    cases init with
    | none =>
      simp only [exec]
      refine (markLine_sim _).bind fun _ _ => ?_
      exact (Script.declare_sim laws name .null).bind fun _ _ => .pure .normal
    | some e =>
      simp only [exec]
      refine (markLine_sim _).bind fun _ _ => ?_
      refine (eval_sim laws engines e).bind fun _ h => ?_
      exact (Script.declare_sim laws name h).bind fun _ _ => .pure .normal
  | ifElse condition thenBranch elseBranch =>
    cases elseBranch with
    | none =>
      simp only [exec]
      refine (markLine_sim _).bind fun _ _ => ?_
      refine (eval_sim laws engines condition).bind fun _ hvw => ?_
      rw [hvw.isTrue]
      split
      · exact branch_sim thenBranch (exec_sim laws engines thenBranch fun decl h =>
          written decl (by rw [Stmt.declarations]; exact h))
      · exact .pure .normal
    | some other =>
      simp only [exec]
      refine (markLine_sim _).bind fun _ _ => ?_
      refine (eval_sim laws engines condition).bind fun _ hvw => ?_
      rw [hvw.isTrue]
      split
      · exact branch_sim thenBranch (exec_sim laws engines thenBranch fun decl h =>
          written decl (by rw [Stmt.declarations]; exact List.mem_append_left _ h))
      · exact branch_sim other (exec_sim laws engines other fun decl h =>
          written decl (by rw [Stmt.declarations]; exact List.mem_append_right _ h))
  | whileLoop condition body =>
    simp only [exec]
    refine (markLine_sim _).bind fun _ _ => ?_
    rw [engines.limit]
    exact repeatWhile_sim laws (fun _ => eval_sim laws engines condition)
      (fun _ => branch_sim body (exec_sim laws engines body fun decl h =>
        written decl (by rw [Stmt.declarations]; exact h))) e₂.limit
  | forLoop name sequence body =>
    simp only [exec]
    refine (markLine_sim _).bind fun _ _ => ?_
    refine (eval_sim laws engines sequence).bind fun _ hvw => ?_
    refine (elementsOf_sim laws hvw).bind fun _ hvs => ?_
    exact forEach_sim name hvs fun _ => exec_sim laws engines body fun decl h =>
      written decl (by rw [Stmt.declarations]; exact h)
  | block body =>
    simp only [exec]
    refine (markLine_sim _).bind fun _ _ => ?_
    exact .inScope .nil (execAll_sim laws engines body fun decl h =>
      written decl (by rw [Stmt.declarations]; exact h))
  | returnValue span value =>
    cases value with
    | none =>
      simp only [exec]
      exact (markLine_sim _).bind fun _ _ => .pure (.returned .null)
    | some e =>
      simp only [exec]
      refine (markLine_sim _).bind fun _ _ => ?_
      exact (eval_sim laws engines e).bind fun _ h => .pure (.returned h)
  | breakLoop span =>
    simp only [exec]
    exact (markLine_sim _).bind fun _ _ => .pure .broken
  | classDecl decl =>
    simp only [exec]
    have here := written decl (by rw [Stmt.declarations]; exact List.mem_singleton_self decl)
    exact (markLine_sim _).bind fun _ _ => classDecl_sim laws engines here
  | importNames span source names =>
    simp only [exec]
    refine (markLine_sim _).bind fun _ _ => .getFrame_bind fun k l hkl => ?_
    rw [hkl.first, hkl.second]
    refine (ScriptSim.ofRun (importNames_sim laws engines source moduleName names)).bind ?_
    exact fun _ _ => .pure .normal
termination_by structural s

theorem execAll_sim (laws : Lawful S host₁ host₂) (engines : Engine.Alike S host₁ host₂ e₁ e₂)
    {ρ : Renaming} (body : List Stmt)
    (written : ∀ decl ∈ declarationsOf body, S.written moduleName decl) :
    ScriptSim S ρ moduleName Flow.Alike (execAll e₁ body) (execAll e₂ body) := by
  cases body with
  | nil => simp only [execAll]; exact .pure .normal
  | cons s rest =>
    simp only [execAll]
    have written' (decl : ClassDecl) (h : decl ∈ s.declarations ++ declarationsOf rest) :
        S.written moduleName decl := written decl (by rw [declarationsOf]; exact h)
    refine (exec_sim laws engines s fun decl h =>
      written' decl (List.mem_append_left _ h)).bind fun _ flow => ?_
    cases flow with
    | normal =>
      exact execAll_sim laws engines rest fun decl h => written' decl (List.mem_append_right _ h)
    | broken => exact .pure .broken
    | returned h => exact .pure (.returned h)
termination_by structural body

end

end ScriptHost
