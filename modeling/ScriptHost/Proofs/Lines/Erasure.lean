import ScriptHost.Proofs.Binding.Dispatch
import ScriptHost.Proofs.Lines.Chart
import ScriptHost.Proofs.Simulation.Shadow

/-! The chart is beside the run. Without it, the interpreter that keeps one does what the plain
interpreter does: scripts and calls come to the same, on the same machines. -/

namespace ScriptHost
namespace Charted

variable {H α β : Type}

/-- How a run ended, without its chart. -/
def forget : EStateM.Result Halt (Machine (Charted H)) α → EStateM.Result Halt (Machine H) α
  | .ok a m => .ok a (plain m)
  | .error h m => .error h (plain m)

/-- The plain run is a shadow of the run with a chart. The two interpreters work to one depth. -/
def shadow (h : Host H) : Shadow (Charted H) H where
  written _ _ := True
  image := side
  going _ := True
  fault _ _ := True
  halt _ := True
  engines e₁ e₂ := e₂ = h.engine e₁.limit

/-- The two runs on machines that differ by the chart alone. -/
abbrev erasure (h : Host H) : Simulation (Charted H) H := (shadow h).simulation

variable {h : Host H} {P : Results α β} {ρ : Renaming} {m : Machine (Charted H)} {n : Machine H}
  {e₁ : Engine (Charted H)} {e₂ : Engine H}

theorem going_plain (m : Machine (Charted H)) : (erasure h).going .id m (plain m) :=
  ⟨rfl, rfl, trivial⟩

theorem follows (act : StateM H α) : (shadow h).Follows m (callback act) act := ⟨rfl, trivial⟩

theorem lift_ended (act : Live H α) (m : Machine (Charted H)) :
    (erasure h).Ended .id (fun σ a m b n => (erasure h).going σ m n ∧ a = b) (lift act m)
      (act (plain m)) := by
  unfold lift
  cases act (plain m) with
  | ok a n => exact .ok le_rfl ⟨⟨rfl, rfl, trivial⟩, rfl⟩
  | error halt n => exact .halt le_rfl ⟨rfl, rfl, trivial⟩

/-! ### Laws -/

theorem declaring (h : Host H) : (shadow h).Declaring (host h) h where
  asked _ := fun _ => rfl
  known _ := fun _ _ _ => trivial
  unknown _ := fun _ _ => trivial
  classes _ := fun _ _ => follows _
  unknownClass _ := fun _ _ => trivial
  halt _ := trivial
  addClass _ := fun _ => trivial

theorem callForeign_ended (known : e₂ = h.engine e₁.limit) (f : HostFunction) (v : Value)
    (vs : List Value) (m : Machine (Charted H)) :
    (erasure h).Ended .id ((erasure h).Settled .alike) ((callForeign (host h) e₁ f v vs).run m)
      ((callForeign h e₂ f v vs).run (plain m)) := by
  subst known
  rw [callForeign_bind, callForeign_bind]
  refine (lift_ended (h.run f (h.engine e₁.limit)) (m.windowed v vs)).bind ?_
  rintro σ _ m' _ _ - ⟨⟨rfl, rfl, -⟩, -⟩
  refine .ok le_rfl ?_
  change (erasure h).Settled _ _ m'.vm.verdict _ m'.vm.verdict _
  cases m'.vm.verdict with
  | error e => exact .fault ⟨rfl, rfl, trivial⟩
  | ok v => exact .ok ⟨rfl, rfl, trivial⟩ (Value.alike_refl v)

theorem nesting (h : Host H) : (shadow h).Nesting (host h) h where
  bodies _ := fun _ _ _ _ => trivial
  define _ := fun _ _ _ => trivial
  openModule _ := fun _ => trivial
  append _ := fun _ _ _ => trivial
  setField _ := fun _ _ _ => trivial
  addList _ := fun _ => trivial
  addInstance _ := fun _ => trivial
  write _ := fun _ => follows _
  report _ := fun _ => follows _
  load _ := fun _ => ⟨follows _, fun _ _ _ _ _ _ => trivial⟩
  defineClass callbacks₁ callbacks₂ := fun _ moduleName decl _ =>
    (declaring h).defineClass_sim callbacks₁ callbacks₂ moduleName decl _ _ (going_plain _)
  callForeign engines := fun _ v vs _ f _ => callForeign_ended engines.known f v vs _
  allocate engines := fun _ a _ vs f _ _ => callForeign_ended engines.known f (.classObject a) vs _
  allocated := .inl fun _ _ _ _ => trivial
  raise _ := fun _ => trivial
  exhaust _ := trivial
  deeper _ := trivial
  shallower _ := trivial
  fault_shallower _ := trivial
  miscount := .inl fun _ => trivial
  engines _ := rfl

theorem driven (h : Host H) : (shadow h).Driven (host h) h where
  toLawful := (nesting h).toLawful
  fault_report _ := fun _ => ⟨rfl, trivial⟩
  setSlot _ := fun _ _ => trivial

/-! ### Statements -/

variable {moduleName : String}

/-- A statement with its marks around it. -/
theorem during_sim (s : Stmt) {x : Script (Charted H) Flow} {y : Script H Flow}
    (sim : ScriptSim (erasure h) ρ moduleName Flow.Alike x y) :
    ScriptSim (erasure h) ρ moduleName Flow.Alike (during s x) y := by
  rintro f g m _ hfg ⟨rfl, rfl, -⟩
  have ended := sim f g (noted (·.modifyHead (.begin s)) m) ((shadow h).of m) hfg
    ⟨rfl, rfl, trivial⟩
  change (erasure h).Ended _ _ (EStateM.bind (x.run.run f) _ (noted (·.modifyHead _) m)) _
  unfold EStateM.bind
  revert ended
  generalize x.run.run f (noted _ m) = r, y.run.run g ((shadow h).of m) = t
  rintro (@⟨σ, ⟨_, k⟩, n, ⟨_, l⟩, _, le, same, ⟨going, flow⟩ | fault⟩ | ⟨le, halted⟩ | stopped)
  · exact .ok le ⟨same, .ok going flow⟩
  · exact .ok le ⟨same, .fault fault⟩
  · exact .halt le halted
  · exact .stopped stopped

/-- A body with its marks around it. -/
theorem activate_sim {k l : Frame} (hkl : k.Alike ρ moduleName l) {x : Script (Charted H) α}
    {y : Script H β} (sim : ScriptSim (erasure h) ρ moduleName P x y) :
    RunSim (erasure h) ρ P (activate k x) (Script.activate l y) := by
  rintro m _ ⟨rfl, rfl, -⟩
  have ended := ScriptSim.activate hkl sim (noted (.start k.activation :: ·) m) ((shadow h).of m)
    ⟨rfl, rfl, trivial⟩
  change (erasure h).Ended _ _ (EStateM.bind (Script.activate k x).run _ (noted (_ :: ·) m)) _
  unfold EStateM.bind
  revert ended
  generalize (Script.activate k x).run (noted _ m) = r,
    (Script.activate l y).run ((shadow h).of m) = t
  rintro (⟨le, ⟨going, hab⟩ | fault⟩ | ⟨le, halted⟩ | stopped)
  · exact .ok le (.ok going hab)
  · exact .ok le (.fault fault)
  · exact .halt le halted
  · exact .stopped stopped

mutual

theorem exec_sim (engines : Engine.Alike (erasure h) (host h) h e₁ e₂) {ρ : Renaming} (s : Stmt) :
    ScriptSim (erasure h) ρ moduleName Flow.Alike (exec e₁ s) (ScriptHost.exec e₂ s) := by
  have laws := (nesting h).simulates.toLawful
  cases s with
  | expr e =>
    simp only [exec, ScriptHost.exec]
    refine during_sim _ ((markLine_sim _).bind fun _ _ => ?_)
    exact (eval_sim laws engines e).bind fun _ _ => .pure .normal
  | var span name init =>
    cases init with
    | none =>
      simp only [exec, ScriptHost.exec]
      refine during_sim _ ((markLine_sim _).bind fun _ _ => ?_)
      exact (Script.declare_sim laws name .null).bind fun _ _ => .pure .normal
    | some e =>
      simp only [exec, ScriptHost.exec]
      refine during_sim _ ((markLine_sim _).bind fun _ _ => ?_)
      refine (eval_sim laws engines e).bind fun _ h => ?_
      exact (Script.declare_sim laws name h).bind fun _ _ => .pure .normal
  | ifElse condition thenBranch elseBranch =>
    have first := fun {ρ} => branch_sim thenBranch (exec_sim engines (ρ := ρ) thenBranch)
    cases elseBranch with
    | none =>
      simp only [exec, ScriptHost.exec]
      refine during_sim _ ((markLine_sim _).bind fun _ _ => ?_)
      refine (eval_sim laws engines condition).bind fun _ hvw => ?_
      rw [hvw.isTrue]
      split
      · exact first
      · exact .pure .normal
    | some other =>
      simp only [exec, ScriptHost.exec]
      refine during_sim _ ((markLine_sim _).bind fun _ _ => ?_)
      refine (eval_sim laws engines condition).bind fun _ hvw => ?_
      rw [hvw.isTrue]
      split
      · exact first
      · exact branch_sim other (exec_sim engines other)
  | whileLoop condition body =>
    simp only [exec, ScriptHost.exec]
    refine during_sim _ ((markLine_sim _).bind fun _ _ => ?_)
    rw [engines.limit]
    exact repeatWhile_sim laws (fun _ => eval_sim laws engines condition)
      (fun _ => branch_sim body (exec_sim engines body)) e₂.limit
  | forLoop name sequence body =>
    simp only [exec, ScriptHost.exec]
    refine during_sim _ ((markLine_sim _).bind fun _ _ => ?_)
    refine (eval_sim laws engines sequence).bind fun _ hvw => ?_
    refine (elementsOf_sim laws hvw).bind fun _ hvs => ?_
    exact forEach_sim name hvs fun _ => exec_sim engines body
  | block body =>
    simp only [exec, ScriptHost.exec]
    refine during_sim _ ((markLine_sim _).bind fun _ _ => ?_)
    exact .inScope .nil (execAll_sim engines body)
  | returnValue span value =>
    cases value with
    | none =>
      simp only [exec, ScriptHost.exec]
      exact during_sim _ ((markLine_sim _).bind fun _ _ => .pure (.returned .null))
    | some e =>
      simp only [exec, ScriptHost.exec]
      refine during_sim _ ((markLine_sim _).bind fun _ _ => ?_)
      exact (eval_sim laws engines e).bind fun _ h => .pure (.returned h)
  | breakLoop span =>
    simp only [exec, ScriptHost.exec]
    exact during_sim _ ((markLine_sim _).bind fun _ _ => .pure .broken)
  | classDecl decl =>
    simp only [exec, ScriptHost.exec]
    exact during_sim _ ((markLine_sim _).bind fun _ _ => classDecl_sim laws engines trivial)
  | importNames span source names =>
    simp only [exec, ScriptHost.exec]
    refine during_sim _ ((markLine_sim _).bind fun _ _ => .getFrame_bind fun k l hkl => ?_)
    rw [hkl.first, hkl.second]
    refine (ScriptSim.ofRun (importNames_sim laws engines source moduleName names)).bind ?_
    exact fun _ _ => .pure .normal
termination_by structural s

theorem execAll_sim (engines : Engine.Alike (erasure h) (host h) h e₁ e₂) {ρ : Renaming}
    (statements : List Stmt) :
    ScriptSim (erasure h) ρ moduleName Flow.Alike (execAll e₁ statements)
      (ScriptHost.execAll e₂ statements) := by
  cases statements with
  | nil => simp only [execAll, ScriptHost.execAll]; exact .pure .normal
  | cons s rest =>
    simp only [execAll, ScriptHost.execAll]
    refine (exec_sim engines s).bind fun _ flow => ?_
    cases flow with
    | normal => exact execAll_sim engines rest
    | broken => exact .pure .broken
    | returned h => exact .pure (.returned h)
termination_by structural statements

end

/-! ### Bodies -/

theorem callScript_ended (engines : Engine.Alike (erasure h) (host h) h e₁ e₂) (decl : MethodDecl)
    (receiver : Value) (args : List Value) :
    RunSim (erasure h) .id .alike (callScript e₁ decl receiver args)
      (ScriptHost.callScript e₂ decl receiver args) := by
  rintro m _ ⟨-, rfl, -⟩
  have laws := (nesting h).simulates.toLawful
  rw [callScript_run, ScriptHost.callScript_run]
  refine RunSim.bind (P := .same) (.modify fun _ _ going => laws.openModule going _) ?_ m _
    (going_plain m)
  rintro σ _ _ - -
  intro m' n' going
  obtain rfl : σ = .id := going.1
  have frames := decl.frame_alike (m.moduleOf receiver) (m.heap.className (m.classOf receiver))
    (Value.alike_refl receiver) (Value.allAlike_id.mpr (rfl : args = args))
  refine RunSim.bind (activate_sim frames (execAll_sim engines _)) ?_ m' n' going
  rintro σ _ _ - flow
  have otherwise : RunSim (erasure h) σ .alike
      (return if decl.kind = .constructor then receiver else .null : Run (Charted H) Value)
      (return if decl.kind = .constructor then receiver else .null : Run H Value) := by
    rintro m n ⟨rfl, rfl, -⟩
    exact RunSim.pure (Value.alike_refl _) _ _ (going_plain _)
  cases flow with
  | returned hv => exact .pure hv
  | _ => exact otherwise

theorem construct_ended (engines : Engine.Alike (erasure h) (host h) h e₁ e₂) (classId : ClassId)
    (decl : MethodDecl) (args : List Value) :
    RunSim (erasure h) .id .alike (construct (host h) e₁ classId decl args)
      (ScriptHost.construct h e₂ classId decl args) := by
  rintro m _ ⟨-, rfl, -⟩
  have laws := (nesting h).simulates.toLawful
  have there : ((shadow h).of m).heap.class? classId = m.heap.class? classId := rfl
  rw [construct_run, ScriptHost.construct_run, there]
  cases found : m.heap.class? classId with
  | none => exact RunSim.pure .null _ _ (going_plain m)
  | some k =>
    refine RunSim.bind_at (newObject_sim laws engines (going_plain m) rfl
      (Value.allAlike_id.mpr rfl) ((nesting h).instantiates (going_plain m) rfl) found found) ?_
    rintro σ object _ - hv
    rintro m _ ⟨rfl, rfl, -⟩
    obtain rfl := Value.alike_id.mp hv
    refine RunSim.bind_at (callScript_ended engines decl object args m _ (going_plain m)) ?_
    exact fun le _ => .pure (hv.mono le)

theorem runModule_ended (engines : Engine.Alike (erasure h) (host h) h e₁ e₂) (name : String)
    (body : List Stmt) :
    RunSim (erasure h) ρ .same (runModule e₁ name body) (ScriptHost.runModule e₂ name body) := by
  have frames : (Frame.ofModule name).Alike ρ name (.ofModule name) :=
    ⟨rfl, rfl, .none, .nil, rfl, rfl⟩
  exact (activate_sim frames (execAll_sim engines body)).bind fun _ _ => .pure rfl

theorem loadModule_ended (engines : Engine.Alike (erasure h) (host h) h e₁ e₂) (name : String) :
    RunSim (erasure h) ρ .same (loadBy e₁ (runModule e₁ name) name)
      (ScriptHost.loadModule e₂ name) := by
  have laws := (nesting h).simulates.toLawful
  rw [load_by]
  unfold loadBy
  refine RunSim.bind (P := .same) (.modifyGet ?_) ?_
  · rintro m _ ⟨rfl, rfl, -⟩
    rw [engines.callbacks₁, engines.callbacks₂]
    exact ⟨.id, le_rfl, going_plain _, rfl⟩
  · rintro σ found _ le rfl
    cases found with
    | none => exact laws.plainFault _ rfl
    | some source =>
      dsimp only
      cases parseModule source with
      | error errors =>
        exact (RunSim.lift (Engine.reportAll_sim laws engines _)).bind fun _ _ =>
          laws.plainFault _ rfl
      | ok body =>
        refine RunSim.bind (P := .same) (.modify fun _ _ h => laws.openModule h name) ?_
        exact fun _ _ => runModule_ended engines name body

/-! ### The interpreter -/

/-- The interpreter with a chart and the plain one do the same, at every depth. -/
theorem alike (h : Host H) (depth : Nat) :
    Engine.Alike (erasure h) (host h) h (engine h depth) (h.engine depth) := by
  have laws := (nesting h).simulates
  have miscounts := (nesting h).toLawful.miscounts fun _ => trivial
  induction depth with
  | zero =>
    refine ⟨rfl, rfl, rfl, fun _ => .halt fun _ _ going => going, ?_, rfl⟩
    intro m id v m' writes answered
    cases answered
  | succ depth ih =>
    refine ⟨rfl, rfl, rfl, fun {ρ a b} hab => ?_, fun m id v m' writes answered => ?_, rfl⟩
    swap
    · have sent : (perform h (depth + 1) (.send (.list id) "toString" [])).run m =
        .ok (.ok v) m' := answered
      rw [perform_send] at sent
      exact invokeBy_listText _ _ _ _ writes sent
    rintro m _ ⟨rfl, rfl, -⟩
    cases hab with
    | load name =>
      exact RunSim.bind_at (P := .same) (loadModule_ended ih name m _ (going_plain m)) fun _ _ =>
        .pure .null
    | send signature hv hvs =>
      obtain rfl := Value.alike_id.mp hv
      obtain rfl := Value.allAlike_id.mp hvs
      change (erasure h).Ended _ _ _ ((invoke h (h.engine depth) _ signature _).run _)
      rw [invoke_by]
      refine invokeBy_sim laws.toLawful ih hv signature hvs trivial ?_ ?_ m _
        (going_plain m)
      · rintro m _ decl ⟨-, rfl, -⟩ -
        exact nested_sim laws (going_plain m) (.inl miscounts) (callScript_ended ih decl _ _ _ _)
      · rintro m _ a _ decl ⟨-, rfl, -⟩ rfl - -
        exact nested_sim laws (going_plain m) (.inl miscounts) (construct_ended ih a decl _ _ _)

/-! ### Runs without their charts -/

theorem forget_of_concluded
    {r : EStateM.Result Halt (Machine (Charted H)) (Except InterpretError Unit)}
    {s : EStateM.Result Halt (Machine H) (Except InterpretError Unit)}
    (ended : (erasure h).Ended .id (erasure h).Concluded r s) : forget r = s := by
  obtain ⟨-, concluded⟩ | ⟨-, -, rfl, -⟩ | stopped := ended
  · obtain ⟨-, rfl, -⟩ | ⟨-, rfl, -⟩ | ⟨-, rfl, -⟩ := concluded <;> rfl
  · rfl
  · cases stopped

theorem interpret_forget (h : Host H) (depth : Nat) (moduleName source : String)
    (m : Machine (Charted H)) :
    forget (interpret (engine h depth) moduleName source m) =
      (h.engine depth).interpret moduleName source (plain m) := by
  have laws := (driven h).simulates
  have engines := alike h depth
  refine forget_of_concluded (h := h) ?_
  rw [Engine.interpret_by]
  change (erasure h).Ended _ _ ((engine h depth).interpretBy _ moduleName source m) _
  unfold Engine.interpretBy
  cases parseModule source with
  | error errors =>
    refine (Engine.reportAll_sim laws.toLawful engines _ m _ (going_plain m)).bind fun _ told => ?_
    exact .ok le_rfl (.compile told.1)
  | ok body =>
    refine (runModule_ended engines moduleName body _ _ ⟨rfl, rfl, trivial⟩).bind ?_
    rintro σ _ m _ n - (⟨going, -⟩ | fault)
    · exact .ok le_rfl (.ok going)
    · dsimp only
      rw [Engine.reporting_run, Engine.reporting_run]
      exact .ok le_rfl (.runtime (Engine.fault_reported laws.toReporting engines fault _))

theorem call_forget (h : Host H) (depth : Nat) (signature : String) (m : Machine (Charted H)) :
    forget ((engine h depth).call signature m) = (h.engine depth).call signature (plain m) :=
  forget_of_concluded (h := h) (Engine.call_sim (driven h).simulates (alike h depth) signature
    (going_plain m))

end Charted
end ScriptHost
