import ScriptHost.Proofs.Homes.Bodies
import ScriptHost.Proofs.Simulation.Facade

/-! The interpreter that keeps a diary. Methods, constructors and modules run as they do without it,
at every depth, and what they note is true. While a body runs, the module of its class is known. -/

namespace ScriptHost

theorem Heap.InModule.moduleOf {H : Type} {m : Machine H} {v : Value} {moduleName : String}
    (there : m.heap.InModule (m.classOf v) moduleName) : m.moduleOf v = moduleName := by
  obtain ⟨c, found, rfl⟩ := there
  unfold Machine.moduleOf
  rw [found]
  rfl

/-- A value that has a method is of a class that is there. -/
theorem Machine.method?_inModule {H : Type} {m : Machine H} {v : Value} {signature : String}
    {x : Method} (found : m.method? v signature = some x) :
    m.heap.InModule (m.classOf v) (m.moduleOf v) := by
  have there : ∃ c, m.heap.class? (m.classOf v) = some c := by
    cases v <;> exact (Option.bind_eq_some_iff.mp found).imp fun _ h => h.1
  obtain ⟨c, there⟩ := there
  have inModule : m.heap.InModule (m.classOf v) c.moduleName := ⟨c, there, rfl⟩
  rw [inModule.moduleOf]
  exact inModule

namespace Diaried

variable {H α β : Type} {core : ClassId} {known known' : ClassId → String → Prop}
  {host₁ : Host (Diaried H)} {host₂ : Host H} {e₁ : Engine (Diaried H)} {e₂ : Engine H}
  {m : Machine (Diaried H)} {owner : Option ClassId}

theorem going_plain (h : Keeping core known m) : (erasure H core known).going .id m (plain m) :=
  ⟨rfl, rfl, h⟩

/-- Some more is known of one class. -/
def also (known : ClassId → String → Prop) (classId : ClassId) (moduleName : String) :
    ClassId → String → Prop :=
  fun id name => known id name ∨ id = classId ∧ name = moduleName

theorem Keeping.also {classId : ClassId} {moduleName : String} (h : Keeping core known m)
    (there : m.heap.InModule classId moduleName) :
    Keeping core (Diaried.also known classId moduleName) m where
  running := h.running
  classes := by
    rintro id name (fact | ⟨rfl, rfl⟩)
    · exact h.classes id name fact
    · exact there
  notes := h.notes

/-- What was known in addition may be left out again. -/
theorem ended_fewer {ρ : Renaming} {P : Results α β}
    {r : EStateM.Result Halt (Machine (Diaried H)) (Except RuntimeError α)}
    {s : EStateM.Result Halt (Machine H) (Except RuntimeError β)}
    (le : ∀ classId moduleName, known' classId moduleName → known classId moduleName)
    (h : (erasure H core known).Ended ρ ((erasure H core known).Settled P) r s) :
    (erasure H core known').Ended ρ ((erasure H core known').Settled P) r s := by
  cases h with
  | ok le' settled =>
    cases settled with
    | ok going hab => exact .ok le' (.ok ⟨going.1, going.2.1, going.2.2.fewer le⟩ hab)
    | fault f => exact .ok le' (.fault ⟨f.1, f.2.1, f.2.2.fewer le⟩)
  | halt le' halted => exact .halt le' ⟨halted.1, halted.2.1, halted.2.2.fewer le⟩
  | stopped stops => cases stops

/-! ### Modules -/

theorem runModule_sim {ρ : Renaming} (laws : Lawful (erasure H core known) host₁ host₂)
    (engines : Engine.Alike (erasure H core known) host₁ host₂ e₁ e₂) (name : String)
    (statements : List Stmt) :
    RunSim (erasure H core known) ρ .same (runModule e₁ name statements)
      (ScriptHost.runModule e₂ name statements) := by
  have frames : (Frame.ofModule name).Alike ρ name (.ofModule name) :=
    ⟨rfl, rfl, .none, .nil, rfl, rfl⟩
  exact (ScriptSim.activate frames (execAll_sim laws engines owned_none statements)).bind
    fun _ _ => .pure rfl

theorem load_sim {ρ : Renaming} (laws : Lawful (erasure H core known) host₁ host₂)
    (engines : Engine.Alike (erasure H core known) host₁ host₂ e₁ e₂) (name : String) :
    RunSim (erasure H core known) ρ .same (loadBy e₁ (runModule e₁ name) name)
      (loadModule e₂ name) := by
  rw [load_by]
  unfold loadBy
  refine RunSim.bind (P := .same) (.modifyGet ?_) ?_
  · rintro m n hmn
    rw [engines.callbacks₁, engines.callbacks₂]
    obtain ⟨same, hmn, -⟩ := laws.load hmn name
    exact ⟨ρ, le_rfl, hmn, same⟩
  · rintro σ found _ le rfl
    cases found with
    | none => exact laws.plainFault _ rfl
    | some source =>
      dsimp only
      cases parseModule source with
      | error errors =>
        exact (RunSim.lift (Engine.reportAll_sim laws engines _)).bind fun _ _ =>
          laws.plainFault _ rfl
      | ok body =>
        refine RunSim.bind (P := .same) (.modify fun _ _ h => laws.openModule h name) ?_
        exact fun _ _ => runModule_sim laws engines name body

/-! ### Bodies -/

/-- The laws of the run with a diary, whatever is known. -/
def Keeps (core : ClassId) (host₁ : Host (Diaried H)) (host₂ : Host H) : Prop :=
  ∀ known, (shadow H core known).Nesting host₁ host₂

/-- The interpreter with a diary does what the plain one does, whatever is known. -/
def Erases (core : ClassId) (host₁ : Host (Diaried H)) (host₂ : Host H) (e₁ : Engine (Diaried H))
    (e₂ : Engine H) : Prop :=
  ∀ known, Engine.Alike (erasure H core known) host₁ host₂ e₁ e₂

section Bodies

variable (keeps : Keeps core host₁ host₂) (engines : Erases core host₁ host₂ e₁ e₂)
include keeps engines

/-- A body in the module of its owner. -/
theorem body_sim (h : Keeping core known m) (decl : MethodDecl) (receiver : Value)
    (args : List Value) (owned : Owned known owner (m.moduleOf receiver)) :
    (erasure H core known).Ended .id ((erasure H core known).Settled .alike)
      ((body owner e₁ decl receiver args).run m)
      ((callScript e₂ decl receiver args).run (plain m)) := by
  have laws := (keeps known).toLawful.simulates
  rw [body_run, callScript_run]
  refine RunSim.bind (P := .same) (.modify fun _ _ hmn => laws.openModule hmn _) (fun le _ => ?_)
    m (plain m) (going_plain h)
  have args' : Value.AllAlike .id args args := Value.allAlike_id.mpr rfl
  have frames := decl.frame_alike (m.moduleOf receiver) (m.heap.className (m.classOf receiver))
    ((Value.alike_refl receiver).mono le) (Value.AllAlike.mono args' le)
  refine (ScriptSim.activate frames (execAll_sim laws (engines known) owned _)).bind ?_
  intro σ _ _ le' flow
  have same := (Value.alike_refl receiver).mono (le.trans le')
  have otherwise : RunSim (erasure H core known) σ .alike
      (return if decl.kind = .constructor then receiver else .null : Run (Diaried H) Value)
      (return if decl.kind = .constructor then receiver else .null : Run H Value) := by
    split
    · exact .pure same
    · exact .pure .null
  cases flow with
  | returned h => exact .pure h
  | _ => exact otherwise

theorem method_sim (h : Keeping core known m) (decl : MethodDecl) (receiver : Value)
    (args : List Value) (there : m.heap.InModule (m.classOf receiver) (m.moduleOf receiver)) :
    (erasure H core known).Ended .id ((erasure H core known).Settled .alike)
      ((method e₁ decl receiver args).run m)
      ((callScript e₂ decl receiver args).run (plain m)) := by
  rw [method_run]
  refine ended_fewer (fun _ _ fact => .inl fact)
    (body_sim keeps engines (h.also there) decl receiver args ?_)
  rintro classId same
  exact .inr ⟨(Option.some.inj same).symm, rfl⟩

theorem making_sim (h : Keeping core known m) (classId : ClassId) (decl : MethodDecl)
    (args : List Value) :
    (erasure H core known).Ended .id ((erasure H core known).Settled .alike)
      ((making host₁ e₁ classId decl args).run m)
      ((construct host₂ e₂ classId decl args).run (plain m)) := by
  have there : (plain m).heap.class? classId = m.heap.class? classId := rfl
  rw [making_run, construct_run, there]
  cases found : m.heap.class? classId with
  | none => exact RunSim.pure .null _ _ (going_plain h)
  | some k =>
    have inModule : m.heap.InModule classId k.moduleName := ⟨k, found, rfl⟩
    have laws := (keeps (also known classId k.moduleName)).toLawful.simulates
    have args' : Value.AllAlike .id args args := Value.allAlike_id.mpr rfl
    have first := newObject_sim laws (engines (also known classId k.moduleName))
      (going_plain (h.also inModule)) rfl args'
      ((keeps (also known classId k.moduleName)).instantiates (going_plain (h.also inModule)) rfl)
      found found
    refine ended_fewer (fun _ _ fact => .inl fact) (RunSim.bind_at first ?_)
    rintro σ object _ - same
    rintro m _ ⟨rfl, rfl, keeping⟩
    obtain rfl := Value.alike_id.mp same
    refine RunSim.bind_at (P := .alike) ?_ fun le _ => .pure (same.mono le)
    rw [constructing_run]
    refine body_sim keeps engines keeping decl object args fun owner owned => ?_
    split at owned
    case isTrue ofClass =>
      obtain rfl := Option.some.inj owned
      have known := keeping.classes _ _ (.inr ⟨rfl, rfl⟩)
      exact .inr ⟨rfl, Heap.InModule.moduleOf (ofClass ▸ known)⟩
    case isFalse => cases owned

end Bodies

/-! ### The interpreter -/

/-- The interpreter with a diary and the plain one do the same, at every depth. -/
theorem erases (keeps : Keeps core host₁ host₂) (depth : Nat) :
    Erases core host₁ host₂ (engine host₁ depth) (host₂.engine depth) := by
  induction depth with
  | zero =>
    refine fun known => ⟨rfl, rfl, rfl, fun _ => .halt fun _ _ h => h, ?_, trivial⟩
    intro m id v m' writes answered
    cases answered
  | succ depth ih =>
    intro known
    have laws := (keeps known).simulates
    have miscounts := (keeps known).toLawful.miscounts id
    refine ⟨rfl, rfl, rfl, fun {ρ a b} hab => ?_, fun m id v m' writes answered => ?_, trivial⟩
    swap
    · have sent : (perform host₁ (depth + 1) (.send (.list id) "toString" [])).run m =
        .ok (.ok v) m' := answered
      rw [perform_send] at sent
      exact invokeBy_listText _ _ _ _ writes sent
    rintro m _ ⟨rfl, rfl, h⟩
    cases hab with
    | load name =>
      have loaded := load_sim laws.toLawful (ih known) name m _ (going_plain h)
      exact RunSim.bind_at (P := .same) loaded fun _ _ => .pure .null
    | send signature hv hvs =>
      obtain rfl := Value.alike_id.mp hv
      obtain rfl := Value.allAlike_id.mp hvs
      change (erasure H core known).Ended _ _ _
        ((invoke host₂ (host₂.engine depth) _ signature _).run _)
      rw [invoke_by]
      refine invokeBy_sim laws.toLawful (ih known) hv signature hvs trivial ?_ ?_ m _
        (going_plain h)
      · rintro m _ decl ⟨-, rfl, h⟩ found
        refine nested_sim laws (going_plain h) (.inl miscounts) fun deeper => ?_
        exact method_sim keeps ih deeper.2.2 decl _ _ (Machine.method?_inModule found)
      · rintro m _ a _ decl ⟨-, rfl, h⟩ rfl - -
        refine nested_sim laws (going_plain h) (.inl miscounts) fun deeper => ?_
        exact making_sim keeps ih deeper.2.2 a decl _

end Diaried
end ScriptHost
