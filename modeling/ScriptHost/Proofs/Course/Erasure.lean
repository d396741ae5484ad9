import ScriptHost.Proofs.Binding.Dispatch
import ScriptHost.Proofs.Course.Logbook
import ScriptHost.Proofs.Depth.Requests
import ScriptHost.Proofs.Simulation.Shadow

/-! The logbook is beside the run. Without it, the interpreter that keeps one does what the plain
interpreter does: scripts, calls and the dialogues of host functions come to the same, on the same
machines. -/

namespace ScriptHost
namespace Logged

variable {α β : Type}

/-- How a run ended, without its logbook. -/
def forget : EStateM.Result Halt (Machine Logged) α → EStateM.Result Halt (Machine Desk) α
  | .ok a m => .ok a (plain m)
  | .error h m => .error h (plain m)

/-- The plain run is a shadow of the run with a logbook. -/
def shadow : Shadow Logged Desk where
  written _ _ := True
  image := Logged.desk
  going _ := True
  fault _ _ := True
  halt _ := True

/-- The two runs on machines that differ by the logbook alone. -/
abbrev erasure : Simulation Logged Desk := shadow.simulation

variable {P : Results α β} {e₁ : Engine Logged} {e₂ : Engine Desk} {host₁ : Host Logged}
  {host₂ : Host Desk} {c : Conduct} {m : Machine Logged} {n : Machine Desk}

theorem going_plain (m : Machine Logged) : erasure.going .id m (plain m) := ⟨rfl, rfl, trivial⟩

theorem follows (act : StateM Desk α) : shadow.Follows m (callback act) act := ⟨rfl, trivial⟩

/-! ### Notes -/

/-- A run with notes around it. -/
theorem within_ended {ρ : Renaming} (body : Activation) {x : Run Logged α} {y : Run Desk β}
    (h : erasure.Ended ρ (erasure.Settled P) (x.run (noted (.enter body) m)) (y.run n)) :
    erasure.Ended ρ (erasure.Settled P) ((within body x).run m) (y.run n) := by
  change erasure.Ended _ _ (EStateM.bind x.run _ (noted (.enter body) m)) _
  unfold EStateM.bind
  revert h
  generalize x.run (noted (.enter body) m) = r, y.run n = s
  rintro (⟨le, ⟨going, hab⟩ | fault⟩ | ⟨le, halted⟩ | stopped)
  · exact .ok le (.ok going hab)
  · exact .ok le (.fault fault)
  · exact .halt le halted
  · exact .stopped stopped

theorem apart_ended {ρ : Renaming} {Q : Results α β} {x : Live Logged α} {y : Live Desk β}
    (h : erasure.Ended ρ (fun σ a m b n => erasure.going σ m n ∧ Q σ a b)
      (x (noted (.withActive []) m)) (y n)) :
    erasure.Ended ρ (fun σ a m b n => erasure.going σ m n ∧ Q σ a b) (apart x m) (y n) := by
  change erasure.Ended _ _ (EStateM.bind x _ (noted (.withActive []) m)) _
  unfold EStateM.bind
  revert h
  generalize x (noted (.withActive []) m) = r, y n = s
  rintro (⟨le, going, hab⟩ | ⟨le, halted⟩ | stopped)
  · exact .ok le ⟨going, hab⟩
  · exact .halt le halted
  · exact .stopped stopped

theorem lift_ended (act : DeskRun α) (m : Machine Logged) :
    erasure.Ended .id (fun σ a m b n => erasure.going σ m n ∧ a = b) (lift act m)
      (act (plain m)) := by
  unfold lift
  cases act (plain m) with
  | ok a n => exact .ok le_rfl ⟨⟨rfl, rfl, trivial⟩, rfl⟩
  | error h n => exact .halt le_rfl ⟨rfl, rfl, trivial⟩

/-! ### Laws -/

theorem declaring (callbacks₁ : host₁.callbacks = callbacks c.callbacks)
    (callbacks₂ : host₂.callbacks = c.callbacks) : shadow.Declaring host₁ host₂ where
  asked _ := fun _ => by rw [callbacks₁, callbacks₂]; rfl
  known _ := fun _ _ _ => trivial
  unknown _ := fun _ _ => trivial
  classes _ := fun _ _ => by rw [callbacks₁, callbacks₂]; exact follows _
  unknownClass _ := fun _ _ => trivial
  halt _ := trivial
  addClass _ := fun _ => trivial

/-- The laws that a run with a logbook keeps to, as soon as host functions keep to them. -/
theorem nesting (callbacks₁ : host₁.callbacks = callbacks c.callbacks)
    (callbacks₂ : host₂.callbacks = c.callbacks)
    (served : ∀ {e₁ e₂}, Engine.Alike erasure host₁ host₂ e₁ e₂ →
      ∀ f, LiveSim erasure .id .same (host₁.run f e₁) (host₂.run f e₂)) :
    shadow.Nesting host₁ host₂ where
  bodies _ := fun _ _ _ _ => trivial
  define _ := fun _ _ _ => trivial
  openModule _ := fun _ => trivial
  append _ := fun _ _ _ => trivial
  setField _ := fun _ _ _ => trivial
  addList _ := fun _ => trivial
  addInstance _ := fun _ => trivial
  write _ := fun _ => by rw [callbacks₁, callbacks₂]; exact follows _
  report _ := fun _ => by rw [callbacks₁, callbacks₂]; exact follows _
  load _ := fun _ => by
    rw [callbacks₁, callbacks₂]
    exact ⟨follows _, fun _ _ _ _ _ _ => trivial⟩
  defineClass callbacks₁' callbacks₂' := fun _ moduleName decl _ =>
    (declaring callbacks₁ callbacks₂).defineClass_sim callbacks₁' callbacks₂' moduleName decl _ _
      (going_plain _)
  callForeign engines := fun _ v vs _ f _ => called engines f v vs
  allocate engines := fun _ a _ vs f _ _ => called engines f (.classObject a) vs
  allocated := .inl fun _ _ _ _ => trivial
  raise _ := fun _ => trivial
  exhaust _ := trivial
  deeper _ := trivial
  shallower _ := trivial
  fault_shallower _ := trivial
  miscount := .inl fun _ => trivial
where
  called {e₁ e₂} (engines : Engine.Alike erasure host₁ host₂ e₁ e₂) (f : HostFunction) (v : Value)
      (vs : List Value) {m : Machine Logged} :
      erasure.Ended .id (erasure.Settled .alike) ((callForeign host₁ e₁ f v vs).run m)
        ((callForeign host₂ e₂ f v vs).run (plain m)) := by
    rw [callForeign_bind, callForeign_bind]
    refine (served engines f (m.windowed v vs) _ (going_plain _)).bind ?_
    rintro σ _ m' _ _ - ⟨⟨rfl, rfl, -⟩, -⟩
    refine .ok le_rfl ?_
    change erasure.Settled _ _ m'.vm.verdict _ m'.vm.verdict _
    cases m'.vm.verdict with
    | error e => exact .fault ⟨rfl, rfl, trivial⟩
    | ok v => exact .ok ⟨rfl, rfl, trivial⟩ (Value.alike_refl v)

/-- Hosts with the callbacks of a program, whose functions do nothing: for what a host function asks
for, no more of the hosts is needed. -/
def idle₁ (c : Conduct) : Host Logged := ⟨callbacks c.callbacks, fun _ _ => return ()⟩

@[inherit_doc idle₁]
def idle₂ (c : Conduct) : Host Desk := ⟨c.callbacks, fun _ _ => return ()⟩

theorem driven_idle (c : Conduct) : shadow.Driven (idle₁ c) (idle₂ c) where
  toLawful := (nesting (c := c) rfl rfl fun _ _ => LiveSim.pure (P := .same) rfl).toLawful
  fault_report _ := fun _ => ⟨rfl, trivial⟩
  setSlot _ := fun _ _ => trivial

/-! ### Requests -/

theorem interpret_ended (engines : Engine.Alike erasure (idle₁ c) (idle₂ c) e₁ e₂)
    (moduleName source : String) (m : Machine Logged) :
    erasure.Ended .id erasure.Concluded (interpret e₁ moduleName source m)
      (e₂.interpret moduleName source (plain m)) := by
  have laws := (driven_idle c).simulates
  rw [Engine.interpret_by]
  change erasure.Ended _ _ (e₁.interpretBy _ moduleName source m) _
  unfold Engine.interpretBy
  cases parseModule source with
  | error errors =>
    refine (Engine.reportAll_sim laws.toLawful engines _ m _ (going_plain m)).bind fun _ h => ?_
    exact .ok le_rfl (.compile h.1)
  | ok body =>
    have ran : RunSim erasure .id .same (runModule e₁ moduleName body)
        (runModule e₂ moduleName body) :=
      runModule_sim laws.toLawful engines moduleName body fun _ _ => trivial
    refine (within_ended (.ofModule moduleName) (ran _ _ ⟨rfl, rfl, trivial⟩)).bind ?_
    rintro σ _ m _ n - (⟨going, -⟩ | fault)
    · exact .ok le_rfl (.ok going)
    · dsimp only
      rw [Engine.reporting_run, Engine.reporting_run]
      exact .ok le_rfl (.runtime (Engine.fault_reported laws.toReporting engines fault _))

theorem concluded_same {ρ : Renaming} {r s : Except InterpretError Unit}
    (h : erasure.Concluded ρ r m s n) : erasure.going ρ m n ∧ r = s := by
  cases h with
  | ok going | compile going => exact ⟨going, rfl⟩
  | runtime fault => exact ⟨fault, rfl⟩

theorem serve_ended (engines : Engine.Alike erasure (idle₁ c) (idle₂ c) e₁ e₂) (r : Request)
    (m : Machine Logged) :
    erasure.Ended .id (fun σ a m b n => erasure.going σ m n ∧ a = b) (serve c e₁ r m)
      (Desk.serve e₂ r (plain m)) := by
  cases kind : r.runsScript with
  | false =>
    obtain ⟨a, m', served, served', -⟩ := Desk.serve_atOnce (c.host.engine 0) e₂ (plain m) kind
    have same : serve c e₁ r m = lift (Desk.serve (c.host.engine 0) r) m := by
      cases r <;> first | rfl | cases kind
    rw [same, served', ← served]
    exact lift_ended _ m
  | true =>
    cases r with
    | interpret moduleName source =>
      have ran := (interpret_ended engines moduleName source (noted (.withActive []) m)).imp
        fun _ => concluded_same
      refine (apart_ended (Q := .same) ran).bind ?_
      rintro σ result m _ _ - ⟨⟨rfl, rfl, -⟩, rfl⟩
      exact lift_ended (Desk.outcome _ result) m
    | call handle =>
      rw [serve_call, Desk.serve_call]
      have asked : (plain m).host.calls.get? handle = m.host.desk.calls.get? handle := rfl
      rw [asked]
      cases m.host.desk.calls.get? handle with
      | none => exact .ok le_rfl ⟨going_plain m, rfl⟩
      | some signature =>
        have ran := (Engine.call_sim (driven_idle c).simulates engines signature
          (going_plain (noted (.withActive []) m))).imp fun _ => concluded_same
        refine (apart_ended (Q := .same) ran).bind ?_
        rintro σ result m _ _ - ⟨⟨rfl, rfl, -⟩, rfl⟩
        exact lift_ended _ m
    | _ => cases kind

theorem hold_sim (engines : Engine.Alike erasure (idle₁ c) (idle₂ c) e₁ e₂) (d : Dialogue) :
    LiveSim erasure .id .same (hold (serve c e₁) d) (d.hold (Desk.serve e₂)) := by
  induction d with
  | done => exact .pure rfl
  | ask r next ih =>
    rintro m _ ⟨-, rfl, -⟩
    refine (serve_ended engines r m).bind ?_
    rintro σ reply m _ _ - ⟨⟨rfl, rfl, -⟩, rfl⟩
    exact ih reply m _ (going_plain m)
  | note change next ih =>
    rintro m _ ⟨-, rfl, -⟩
    refine (lift_ended (Desk.onDesk change) m).bind ?_
    rintro σ _ m _ _ - ⟨⟨rfl, rfl, -⟩, -⟩
    exact ih m.host.desk m _ (going_plain m)

/-! ### The interpreter -/

theorem alike_idle (engines : Engine.Alike erasure (host c) c.host e₁ e₂) :
    Engine.Alike erasure (idle₁ c) (idle₂ c) e₁ e₂ := { engines with }

theorem nesting_host (c : Conduct) : shadow.Nesting (host c) c.host :=
  nesting rfl rfl fun engines f => hold_sim (alike_idle engines) (c.dialogue f)

theorem method_ended (engines : Engine.Alike erasure (host c) c.host e₁ e₂) (decl : MethodDecl)
    (receiver : Value) (args : List Value) :
    RunSim erasure .id .alike (method e₁ decl receiver args)
      (callScript e₂ decl receiver args) := by
  rintro m _ ⟨-, rfl, -⟩
  exact within_ended (m.bodyOf (m.classOf receiver) decl)
    (callScript_sim (nesting_host c).simulates.toLawful engines (going_plain (noted _ m))
      (Value.alike_refl receiver) (Value.allAlike_id.mpr rfl) fun _ _ => trivial)

theorem making_ended (engines : Engine.Alike erasure (host c) c.host e₁ e₂) (classId : ClassId)
    (decl : MethodDecl) (args : List Value) :
    RunSim erasure .id .alike (making (host c) e₁ classId decl args)
      (construct c.host e₂ classId decl args) := by
  rintro m _ ⟨-, rfl, -⟩
  have laws := (nesting_host c).simulates.toLawful
  have there : (shadow.of m).heap.class? classId = m.heap.class? classId := rfl
  rw [making_run, construct_run, there]
  cases found : m.heap.class? classId with
  | none => exact RunSim.pure .null _ _ (going_plain m)
  | some k =>
    refine RunSim.bind_at (newObject_sim laws engines (going_plain m) rfl
      (Value.allAlike_id.mpr rfl) ((nesting_host c).instantiates (going_plain m) rfl) found
      found) ?_
    rintro σ object _ - hv
    rintro m _ ⟨rfl, rfl, -⟩
    obtain rfl := Value.alike_id.mp hv
    refine RunSim.bind_at (P := .alike) (within_ended _ (callScript_sim laws engines
      (going_plain (noted _ m)) hv (Value.allAlike_id.mpr rfl) fun _ _ => trivial)) ?_
    exact fun le _ => .pure (hv.mono le)

theorem loading_ended (engines : Engine.Alike erasure (host c) c.host e₁ e₂) (name : String) :
    RunSim erasure .id .same (loading e₁ name) (loadModule e₂ name) := by
  have laws := (nesting_host c).simulates.toLawful
  rintro m _ ⟨-, rfl, -⟩
  rw [load_by]
  suffices loaded : RunSim erasure .id .same (loadBy e₁ (starting e₁ name) name)
      (loadBy e₂ (runModule e₂ name) name) from
    loaded (noted (.ask name (m.vm.hasModule name)) m) _ (going_plain m)
  unfold loadBy
  refine RunSim.bind (P := .same) (.modifyGet ?_) ?_
  · rintro m _ ⟨-, rfl, -⟩
    rw [engines.callbacks₁, engines.callbacks₂]
    exact ⟨.id, le_rfl, going_plain _, rfl⟩
  · rintro σ found _ le rfl
    cases found with
    | none => exact laws.plainFault _ rfl
    | some source =>
      dsimp only
      cases parseModule source with
      | error errors =>
        exact (RunSim.lift (Engine.reportAll_sim laws engines _)).bind fun _ _ =>
          laws.plainFault _ rfl
      | ok body =>
        refine RunSim.bind (P := .same) (.modify fun _ _ h => laws.openModule h name) ?_
        rintro σ _ _ - - m _ ⟨rfl, rfl, -⟩
        exact within_ended (m := noted (.begin name) m) (.ofModule name)
          (runModule_sim laws engines name body (fun _ _ => trivial) _ _ (going_plain _))

/-- The interpreter with a logbook and the plain one do the same, at every depth. -/
theorem alike (c : Conduct) (depth : Nat) :
    Engine.Alike erasure (host c) c.host (engine c depth) (c.host.engine depth) := by
  induction depth with
  | zero =>
    refine ⟨rfl, rfl, rfl, fun _ => .halt fun _ _ h => h, fun m id v m' writes answered => ?_,
      trivial⟩
    cases answered
  | succ depth ih =>
    have laws := (nesting_host c).simulates
    have miscounts := (nesting_host c).toLawful.miscounts fun _ => trivial
    refine ⟨rfl, rfl, rfl, fun {ρ a b} hab => ?_, fun m id v m' writes answered => ?_, trivial⟩
    swap
    · have sent : (perform c (depth + 1) (.send (.list id) "toString" [])).run m =
        .ok (.ok v) m' := answered
      rw [perform_send] at sent
      exact invokeBy_listText _ _ _ _ writes sent
    rintro m _ ⟨rfl, rfl, -⟩
    cases hab with
    | load name =>
      exact RunSim.bind_at (P := .same) (loading_ended ih name m _ (going_plain m)) fun _ _ =>
        .pure .null
    | send signature hv hvs =>
      obtain rfl := Value.alike_id.mp hv
      obtain rfl := Value.allAlike_id.mp hvs
      change erasure.Ended _ _ _ ((invoke c.host (c.host.engine depth) _ signature _).run _)
      rw [invoke_by]
      refine invokeBy_sim laws.toLawful ih hv signature hvs trivial ?_ ?_ m _
        (going_plain m)
      · rintro m _ decl ⟨-, rfl, -⟩ -
        exact nested_sim laws (going_plain m) (.inl miscounts) (method_ended ih decl _ _ _ _)
      · rintro m _ a _ decl ⟨-, rfl, -⟩ rfl - -
        exact nested_sim laws (going_plain m) (.inl miscounts) (making_ended ih a decl _ _ _)

/-! ### Runs without their logbooks -/

theorem forget_of_ended {r : EStateM.Result Halt (Machine Logged) α}
    {s : EStateM.Result Halt (Machine Desk) α}
    {Q : Renaming → α → Machine Logged → α → Machine Desk → Prop}
    (h : erasure.Ended .id Q r s) (same : ∀ {σ a m b n}, Q σ a m b n → a = b ∧ n = plain m) :
    forget r = s := by
  obtain ⟨-, hQ⟩ | ⟨-, -, rfl, -⟩ | stopped := h
  · obtain ⟨rfl, rfl⟩ := same hQ
    rfl
  · rfl
  · cases stopped

theorem forget_of_concluded
    {r : EStateM.Result Halt (Machine Logged) (Except InterpretError Unit)}
    {s : EStateM.Result Halt (Machine Desk) (Except InterpretError Unit)}
    (h : erasure.Ended .id erasure.Concluded r s) : forget r = s := by
  refine forget_of_ended h fun concluded => ?_
  obtain ⟨⟨-, same, -⟩, result⟩ := concluded_same concluded
  exact ⟨result, same⟩

theorem interpret_forget (c : Conduct) (depth : Nat) (moduleName source : String)
    (m : Machine Logged) :
    forget (interpret (engine c depth) moduleName source m) =
      (c.host.engine depth).interpret moduleName source (plain m) :=
  forget_of_concluded (interpret_ended (alike_idle (alike c depth)) moduleName source m)

theorem call_forget (c : Conduct) (depth : Nat) (signature : String) (m : Machine Logged) :
    forget ((engine c depth).call signature m) =
      (c.host.engine depth).call signature (plain m) :=
  forget_of_concluded (Engine.call_sim (driven_idle c).simulates (alike_idle (alike c depth))
    signature (going_plain m))

theorem hold_forget (c : Conduct) (depth : Nat) (d : Dialogue) (m : Machine Logged) :
    forget (hold (serve c (engine c depth)) d m) =
      d.hold (Desk.serve (c.host.engine depth)) (plain m) :=
  forget_of_ended (hold_sim (alike_idle (alike c depth)) d m _ (going_plain m))
    fun h => ⟨h.2, h.1.2.1⟩

end Logged
end ScriptHost
