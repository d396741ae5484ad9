import ScriptHost.Proofs.Simulation.Laws

/-! Expressions evaluated by related engines. By induction on the expression: each operand is
evaluated alike, and each operator is a message to alike values. -/

namespace ScriptHost

variable {H₁ H₂ : Type} {S : Simulation H₁ H₂} {host₁ : Host H₁} {host₂ : Host H₂}
  {e₁ : Engine H₁} {e₂ : Engine H₂} {ρ : Renaming} {moduleName : String} {v w : Value}

namespace Engine

variable {vs ws : List Value}

theorem send_sim (engines : Engine.Alike S host₁ host₂ e₁ e₂) (hv : v.Alike ρ w)
    (signature : String) (hvs : Value.AllAlike ρ vs ws) :
    RunSim S ρ .alike (e₁.send v signature vs) (e₂.send w signature ws) :=
  engines.perform (.send signature hv hvs)

/-- The answers to `toString` taken as texts; what is no string is described by the host. -/
private theorem answered_sim : ∀ {r s : Value}, r.Alike ρ s →
    ((∃ text, r = .string text) ∨
      ∀ m n, S.going ρ m n → m.heap.describe v = n.heap.describe w) →
    RunSim S ρ .same
      (match r with
        | .string text => return text
        | _ => return (← get).heap.describe v : Run H₁ String)
      (match s with
        | .string text => return text
        | _ => return (← get).heap.describe w : Run H₂ String) := by
  intro r s hrs same
  cases hrs with
  | string text => exact .pure rfl
  | _ =>
    obtain ⟨_, h⟩ | same := same
    · cases h
    · exact .get_bind fun m n hmn => RunSim.pure (same m n hmn) m n hmn

private theorem asked_sim (laws : Lawful S host₁ host₂)
    (engines : Engine.Alike S host₁ host₂ e₁ e₂) (hv : v.Alike ρ w) :
    RunSim S ρ
      (fun σ r s => r.Alike σ s ∧ ((∃ text, r = .string text) ∨
        ∀ m n, S.going σ m n → m.heap.describe v = n.heap.describe w))
      (e₁.send v "toString" []) (e₂.send w "toString" []) := by
  have sent := send_sim engines hv "toString" (List.Forall₂.nil)
  by_cases list : ∃ a b, v = .list a ∧ w = .list b ∧ ρ.lists a b
  · obtain ⟨a, b, rfl, rfl, hab⟩ := list
    obtain same | writes := laws.lists
    · exact sent.imp fun le h => ⟨h, .inr fun m n hmn => same hmn (le.lists hab)⟩
    · have strings := sent.and_left fun hmn hx => engines.lists _ _ _ _ (writes hmn) hx
      exact strings.imp fun _ h => ⟨h.1, .inl h.2⟩
  · have notList : ∀ a, v ≠ .list a := by
      rintro a rfl
      cases hv with
      | list h => exact list ⟨_, _, rfl, rfl, h⟩
    exact sent.imp fun le h => ⟨h, .inr fun m n hmn => laws.describe hmn (hv.mono le) notList⟩

theorem textOf_sim (laws : Lawful S host₁ host₂) (engines : Engine.Alike S host₁ host₂ e₁ e₂)
    (hv : v.Alike ρ w) : RunSim S ρ .same (e₁.textOf v) (e₂.textOf w) := by
  have asked := (asked_sim laws engines hv).bind fun _ h => answered_sim h.1 h.2
  cases hv with
  | string s => exact .pure rfl
  | number x => exact .pure rfl
  | _ => exact asked

theorem textsOf_sim (laws : Lawful S host₁ host₂) (engines : Engine.Alike S host₁ host₂ e₁ e₂)
    (hvs : Value.AllAlike ρ vs ws) : RunSim S ρ .same (e₁.textsOf vs) (e₂.textsOf ws) := by
  induction vs generalizing ρ ws with
  | nil =>
    cases hvs with
    | nil => exact .pure rfl
  | cons v vs ih =>
    cases hvs with
    | cons hv hvs =>
      refine (textOf_sim laws engines hv).bind fun le same => ?_
      obtain rfl := same
      refine (ih (Value.AllAlike.mono hvs le)).bind fun _ same => ?_
      obtain rfl := same
      exact .pure rfl

end Engine

namespace Script

theorem send_sim (engines : Engine.Alike S host₁ host₂ e₁ e₂) {vs ws : List Value}
    (hv : v.Alike ρ w) (signature : String) (hvs : Value.AllAlike ρ vs ws) :
    ScriptSim S ρ moduleName .alike (send e₁ v signature vs) (send e₂ w signature ws) :=
  .ofRun (Engine.send_sim engines hv signature hvs)

theorem lookup_sim (laws : Lawful S host₁ host₂) (name : String) :
    ScriptSim S ρ moduleName .alike (lookup (H := H₁) name) (lookup (H := H₂) name) := by
  refine .getFrame_bind fun k l hkl => .get_bind fun m n hmn => ?_
  obtain ⟨hk, hl⟩ | ⟨v, w, hk, hl, hvw⟩ := optionRel_cases (hkl.local? name)
  · rw [hk, hl, hkl.first, hkl.second]
    obtain ⟨hm, hn⟩ | ⟨v, w, hm, hn, hvw⟩ :=
      optionRel_cases (laws.binding? hmn moduleName name)
    · rw [hm, hn]
      exact laws.scriptFault _ rfl
    · rw [hm, hn]
      exact .pure hvw
  · rw [hk, hl]
    exact .pure hvw

theorem define_sim (laws : Lawful S host₁ host₂) (name : String) (hv : v.Alike ρ w) :
    ScriptSim S ρ moduleName .same
      (modifyThe (Machine H₁) (·.onVm (·.define moduleName name v)))
      (modifyThe (Machine H₂) (·.onVm (·.define moduleName name w))) :=
  .modify fun _ _ hmn => laws.define hmn moduleName name hv

theorem assign_sim (laws : Lawful S host₁ host₂) (name : String) (hv : v.Alike ρ w) :
    ScriptSim S ρ moduleName .same (assign (H := H₁) name v) (assign (H := H₂) name w) := by
  refine .getFrame_bind fun k l hkl => .get_bind fun m n hmn => ?_
  obtain ⟨hk, hl⟩ | ⟨s, t, hk, hl, hst⟩ :=
    optionRel_cases (Frame.assignLocal?_alike name hv hkl.scopes)
  · rw [hk, hl, hkl.first, hkl.second]
    dsimp only
    rw [optionRel_isSome (laws.binding? hmn moduleName name)]
    split
    · exact define_sim laws name hv
    · exact laws.scriptFault _ rfl
  · rw [hk, hl]
    exact .modifyFrame fun _ _ h => h.withScopes hst

theorem declare_sim (laws : Lawful S host₁ host₂) (name : String) (hv : v.Alike ρ w) :
    ScriptSim S ρ moduleName .same (declare (H := H₁) name v) (declare (H := H₂) name w) := by
  refine .getFrame_bind fun k l hkl => ?_
  have scopes := hkl.scopes
  revert scopes
  generalize k.scopes = s, l.scopes = t
  rintro (_ | ⟨hst, hrest⟩)
  · rw [hkl.first, hkl.second]
    exact define_sim laws name hv
  · exact .modifyFrame fun _ _ h => h.withScopes (.cons (Table.Alike.set hst name hv) hrest)

/-- An object that a method was called on, where it has fields. -/
private theorem fields_cases {x y : Option Value} (h : Option.Rel (Value.Alike ρ) x y) :
    ((∀ a, x ≠ some (.object a)) ∧ ∀ b, y ≠ some (.object b)) ∨
      ∃ a b, x = some (.object a) ∧ y = some (.object b) ∧ ρ.instances a b := by
  obtain ⟨rfl, rfl⟩ | ⟨v, w, rfl, rfl, hvw⟩ := optionRel_cases h
  · exact .inl ⟨nofun, nofun⟩
  · cases hvw with
    | object hab => exact .inr ⟨_, _, rfl, rfl, hab⟩
    | _ => exact .inl ⟨nofun, nofun⟩

theorem readField_sim (laws : Lawful S host₁ host₂) (name : String) :
    ScriptSim S ρ moduleName .alike (readField (H := H₁) name) (readField (H := H₂) name) := by
  refine .getFrame_bind fun k l hkl => ?_
  obtain ⟨hk, hl⟩ | ⟨a, b, hk, hl, hab⟩ := fields_cases hkl.this
  · split
    · exact absurd ‹_› (hk _)
    · exact laws.scriptFault _ rfl
  · rw [hk, hl]
    exact .get_bind fun m n hmn => .pure (laws.field hmn hab name)

theorem writeField_sim (laws : Lawful S host₁ host₂) (name : String) (hv : v.Alike ρ w) :
    ScriptSim S ρ moduleName .same (writeField (H := H₁) name v) (writeField (H := H₂) name w) := by
  refine .getFrame_bind fun k l hkl => ?_
  obtain ⟨hk, hl⟩ | ⟨a, b, hk, hl, hab⟩ := fields_cases hkl.this
  · split
    · exact absurd ‹_› (hk _)
    · exact laws.scriptFault _ rfl
  · rw [hk, hl]
    exact .modify fun _ _ hmn => laws.setField hmn name hab hv

theorem assignTo_sim (laws : Lawful S host₁ host₂) (target : Target) (hv : v.Alike ρ w) :
    ScriptSim S ρ moduleName .same (assignTo (H := H₁) target v)
      (assignTo (H := H₂) target w) := by
  cases target with
  | «variable» name => exact assign_sim laws name hv
  | field name => exact writeField_sim laws name hv

theorem newList_sim (laws : Lawful S host₁ host₂) {vs ws : List Value}
    (hvs : Value.AllAlike ρ vs ws) :
    ScriptSim S ρ moduleName .alike (newList (H := H₁) vs) (newList (H := H₂) ws) := by
  refine ScriptSim.bind (P := fun σ a b => σ.lists a b) ?_ fun _ h => .pure (.list h)
  exact .modifyGet fun m n hmn => laws.addList hmn hvs

theorem this_sim (laws : Lawful S host₁ host₂) (span : Span) :
    ScriptSim S ρ moduleName .alike (eval e₁ (.this span)) (eval e₂ (.this span)) := by
  simp only [eval]
  refine .getFrame_bind fun k l hkl => ?_
  obtain ⟨hk, hl⟩ | ⟨v, w, hk, hl, hvw⟩ := optionRel_cases hkl.this
  · rw [hk, hl]
    exact laws.scriptFault _ rfl
  · rw [hk, hl]
    exact .pure hvw

end Script

mutual

/-- An expression evaluated by alike engines comes to alike values. -/
theorem eval_sim (laws : Lawful S host₁ host₂) (engines : Engine.Alike S host₁ host₂ e₁ e₂)
    {ρ : Renaming} (e : Expr) : ScriptSim S ρ moduleName .alike (eval e₁ e) (eval e₂ e) := by
  cases e with
  | number _ x => simp only [eval]; exact .pure (.number x)
  | string _ s => simp only [eval]; exact .pure (.string s)
  | bool _ b => simp only [eval]; exact .pure (.bool b)
  | null _ => simp only [eval]; exact .pure .null
  | this span => exact Script.this_sim laws span
  | «variable» _ name => simp only [eval]; exact Script.lookup_sim laws name
  | field _ name => simp only [eval]; exact Script.readField_sim laws name
  | interpolation _ parts =>
    simp only [eval]
    refine (evalFragments_sim laws engines parts).bind fun _ same => ?_
    obtain rfl := same
    exact .pure (.string _)
  | list _ elements =>
    simp only [eval]
    exact (evalAll_sim laws engines elements).bind fun _ h => Script.newList_sim laws h
  | unary _ op operand =>
    simp only [eval]
    exact (eval_sim laws engines operand).bind fun _ h => Script.send_sim engines h op.text .nil
  | binary _ op lhs rhs =>
    simp only [eval]
    refine (eval_sim laws engines lhs).bind fun _ ha => ?_
    refine (eval_sim laws engines rhs).bind fun le hb => ?_
    exact Script.send_sim engines (ha.mono le) _ (.cons hb .nil)
  | logical _ op lhs rhs =>
    simp only [eval]
    refine (eval_sim laws engines lhs).bind fun _ ha => ?_
    rw [ha.isTrue]
    split
    · exact .pure ha
    · exact .pure ha
    · exact eval_sim laws engines rhs
  | assign _ target value =>
    simp only [eval]
    refine (eval_sim laws engines value).bind fun _ hv => ?_
    exact (Script.assignTo_sim laws target hv).bind fun le _ => .pure (hv.mono le)
  | getter _ receiver name =>
    simp only [eval]
    exact (eval_sim laws engines receiver).bind fun _ h => Script.send_sim engines h _ .nil
  | call _ receiver name args =>
    simp only [eval]
    refine (eval_sim laws engines receiver).bind fun _ hv => ?_
    refine (evalAll_sim laws engines args).bind fun le hvs => ?_
    exact Script.send_sim engines (hv.mono le) _ hvs
  | subscript _ receiver index =>
    simp only [eval]
    refine (eval_sim laws engines receiver).bind fun _ hv => ?_
    refine (eval_sim laws engines index).bind fun le hi => ?_
    exact Script.send_sim engines (hv.mono le) _ (.cons hi .nil)
termination_by structural e

theorem evalAll_sim (laws : Lawful S host₁ host₂) (engines : Engine.Alike S host₁ host₂ e₁ e₂)
    {ρ : Renaming} (es : List Expr) :
    ScriptSim S ρ moduleName .allAlike (evalAll e₁ es) (evalAll e₂ es) := by
  cases es with
  | nil => simp only [evalAll]; exact .pure .nil
  | cons e es =>
    simp only [evalAll]
    refine (eval_sim laws engines e).bind fun _ hv => ?_
    exact (evalAll_sim laws engines es).bind fun le hvs => .pure (.cons (hv.mono le) hvs)
termination_by structural es

theorem evalFragments_sim (laws : Lawful S host₁ host₂)
    (engines : Engine.Alike S host₁ host₂ e₁ e₂) {ρ : Renaming} (parts : List Fragment) :
    ScriptSim S ρ moduleName .same (evalFragments e₁ parts) (evalFragments e₂ parts) := by
  cases parts with
  | nil => simp only [evalFragments]; exact .pure rfl
  | cons part parts =>
    cases part with
    | literal text =>
      simp only [evalFragments]
      refine (evalFragments_sim laws engines parts).bind fun _ same => ?_
      obtain rfl := same
      exact .pure rfl
    | code e =>
      simp only [evalFragments]
      refine (eval_sim laws engines e).bind fun _ hv => ?_
      refine (ScriptSim.ofRun (Engine.textOf_sim laws engines hv)).bind fun _ same => ?_
      obtain rfl := same
      refine (evalFragments_sim laws engines parts).bind fun _ same => ?_
      obtain rfl := same
      exact .pure rfl
termination_by structural parts

end

end ScriptHost
