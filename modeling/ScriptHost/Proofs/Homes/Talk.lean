import ScriptHost.Proofs.Homes.Interpreter

/-! Hosts of all sorts. What a host does with a machine is work of its own, with scripts run and
methods called in between, and each part may depend on what came of the ones before. Whoever talks
to a machine like that, from outside or from a host function, the diary is true and changes nothing,
as long as the work leaves the machine its core and its classes. -/

namespace ScriptHost

variable {H α β : Type}

inductive Talk (H α : Type) : Type 1 where
  | done (a : α)
  | work {β : Type} (act : Live H β) (next : β → Talk H α)
  | interpret (moduleName source : String) (next : Except InterpretError Unit → Talk H α)
  | call (signature : String) (next : Except InterpretError Unit → Talk H α)

namespace Talk

def bind (f : α → Talk H β) : Talk H α → Talk H β
  | done a => f a
  | work act next => work act fun b => (next b).bind f
  | interpret moduleName source next => interpret moduleName source fun result =>
    (next result).bind f
  | call signature next => call signature fun result => (next result).bind f

instance : Monad (Talk H) where
  pure := done
  bind talk f := talk.bind f

/-- Nothing but work. -/
def only (act : Live H α) : Talk H α := work act done

def run (engine : Engine H) : Talk H α → Live H α
  | done a => return a
  | work act next => do (next (← act)).run engine
  | interpret moduleName source next => do
    (next (← engine.interpret moduleName source)).run engine
  | call signature next => do (next (← engine.call signature)).run engine

@[simp]
theorem run_pure (engine : Engine H) (a : α) : (pure a : Talk H α).run engine = pure a := rfl

@[simp]
theorem run_only (engine : Engine H) (act : Live H α) : (only act).run engine = act :=
  bind_pure act

@[simp]
theorem run_interpret (engine : Engine H) (moduleName source : String) :
    (interpret moduleName source done).run engine = engine.interpret moduleName source :=
  bind_pure _

@[simp]
theorem run_call (engine : Engine H) (signature : String) :
    (call signature done).run engine = engine.call signature := bind_pure _

@[simp]
theorem run_bind (engine : Engine H) (talk : Talk H α) (f : α → Talk H β) :
    (talk >>= f).run engine = talk.run engine >>= fun a => (f a).run engine := by
  change (talk.bind f).run engine = _
  induction talk with
  | done a => rfl
  | work act next ih =>
    change act >>= _ = (act >>= fun b => (next b).run engine) >>= _
    rw [bind_assoc]
    exact bind_congr ih
  | interpret moduleName source next ih =>
    change engine.interpret moduleName source >>= _ =
      (engine.interpret moduleName source >>= fun result => (next result).run engine) >>= _
    rw [bind_assoc]
    exact bind_congr ih
  | call signature next ih =>
    change engine.call signature >>= _ =
      (engine.call signature >>= fun result => (next result).run engine) >>= _
    rw [bind_assoc]
    exact bind_congr ih

/-- The same talk with a machine that has a diary. -/
def noted (engine : Engine (Diaried H)) : Talk H α → Live (Diaried H) α
  | done a => return a
  | work act next => do (next (← Diaried.lift act)).noted engine
  | interpret moduleName source next => do
    (next (← Diaried.interpret engine moduleName source)).noted engine
  | call signature next => do (next (← engine.call signature)).noted engine

/-- The host whose functions are talks. -/
def host (callbacks : Callbacks H) (talk : HostFunction → Talk H Unit) : Host H where
  callbacks := callbacks
  run f engine := (talk f).run engine

def notedHost (callbacks : Callbacks H) (talk : HostFunction → Talk H Unit) : Host (Diaried H) where
  callbacks := Diaried.callbacks callbacks
  run f engine := (talk f).noted engine

end Talk

/-- The second machine has the core of the first, and its classes. -/
structure Machine.Spares (m n : Machine H) : Prop where
  core : n.vm.core = m.vm.core
  classes : m.heap.KeepsClasses n.heap

/-- Where a run ended. -/
def Live.machine : EStateM.Result Halt (Machine H) α → Machine H
  | .ok _ m | .error _ m => m

/-- Work that leaves the machine its core and its classes. -/
def Live.Mild (act : Live H α) : Prop := ∀ m : Machine H, m.Spares (machine (act m))

/-- All work in a talk is mild. -/
def Talk.Mild : Talk H α → Prop
  | done _ => True
  | work act next => Live.Mild act ∧ ∀ b, (next b).Mild
  | interpret _ _ next | call _ next => ∀ result, (next result).Mild

/-- The second machine has the core of the first, its lists and its classes, and no others. -/
structure Machine.Rests (m n : Machine H) : Prop where
  core : n.vm.core = m.vm.core
  lists : n.heap.lists = m.heap.lists
  classes : n.heap.classes = m.heap.classes

/-- Work that leaves the machine its core, its lists and its classes. -/
def Live.Gentle (act : Live H α) : Prop := ∀ m : Machine H, m.Rests (machine (act m))

/-- All work in a talk is gentle. -/
def Talk.Gentle : Talk H α → Prop
  | done _ => True
  | work act next => Live.Gentle act ∧ ∀ b, (next b).Gentle
  | interpret _ _ next | call _ next => ∀ result, (next result).Gentle

namespace Machine.Rests

variable {m n : Machine H}

theorem refl (m : Machine H) : m.Rests m := ⟨rfl, rfl, rfl⟩

theorem trans {o : Machine H} (first : m.Rests n) (second : n.Rests o) : m.Rests o :=
  ⟨second.core.trans first.core, second.lists.trans first.lists,
    second.classes.trans first.classes⟩

theorem onVm (m : Machine H) {f : Vm → Vm} (same : (f m.vm).core = m.vm.core) :
    m.Rests (m.onVm f) := ⟨same, rfl, rfl⟩

/-- Work that starts by looking at the machine. -/
theorem get_bind {next : Machine H → Live H α} (h : m.Rests (Live.machine (next m m))) :
    m.Rests (Live.machine ((get >>= next) m)) := h

theorem spares (rests : m.Rests n) : m.Spares n where
  core := rests.core
  classes id c found := by
    unfold Heap.class?
    rw [rests.classes]
    exact found

end Machine.Rests

namespace Live.Gentle

theorem mild {act : Live H α} (gentle : Gentle act) : Mild act := fun m => (gentle m).spares

theorem modify {f : Machine H → Machine H} (rests : ∀ m : Machine H, m.Rests (f m)) :
    Gentle (modify f) := rests

theorem pure (a : α) : Gentle (pure a : Live H α) := .refl

theorem reading (f : Machine H → α) : Gentle (f <$> get) := .refl

theorem bind {act : Live H α} {next : α → Live H β} (first : Gentle act)
    (later : ∀ a, Gentle (next a)) : Gentle (act >>= next) := by
  intro m
  have rests := first m
  change m.Rests (machine (EStateM.bind act next m))
  unfold EStateM.bind
  revert rests
  cases act m with
  | ok a n => exact fun rests => rests.trans (later a n)
  | error halt n => exact id

end Live.Gentle

namespace Talk

theorem Gentle.mild {talk : Talk H α} (gentle : talk.Gentle) : talk.Mild := by
  induction talk with
  | done a => trivial
  | work act next ih => exact ⟨Live.Gentle.mild gentle.1, fun b => ih b (gentle.2 b)⟩
  | interpret moduleName source next ih => exact fun result => ih result (gentle result)
  | call signature next ih => exact fun result => ih result (gentle result)

theorem gentle_only {act : Live H α} (gentle : Live.Gentle act) : (only act).Gentle :=
  ⟨gentle, fun _ => trivial⟩

theorem gentle_bind {talk : Talk H α} {f : α → Talk H β} (gentle : talk.Gentle)
    (later : ∀ a, (f a).Gentle) : (talk >>= f).Gentle := by
  change (talk.bind f).Gentle
  induction talk with
  | done a => exact later a
  | work act next ih => exact ⟨gentle.1, fun b => ih b (gentle.2 b)⟩
  | interpret moduleName source next ih => exact fun result => ih result (gentle result)
  | call signature next ih => exact fun result => ih result (gentle result)

end Talk

namespace Diaried

variable {c : Callbacks H} {core : ClassId} {known : ClassId → String → Prop}
  {host₁ : Host (Diaried H)} {host₂ : Host H} {e₁ : Engine (Diaried H)} {e₂ : Engine H}
  {m : Machine (Diaried H)}

theorem lift_ended {act : Live H α} (mild : Live.Mild act) (h : Keeping core known m) :
    (erasure H core known).Ended .id (fun σ a m b n => (erasure H core known).going σ m n ∧ a = b)
      (lift act m) (act (plain m)) := by
  have spares := mild (plain m)
  unfold lift
  revert spares
  cases act (plain m) with
  | ok a n => exact fun spares => .ok le_rfl ⟨⟨rfl, rfl, h.of spares.core spares.classes rfl⟩, rfl⟩
  | error halt n => exact fun spares => .halt le_rfl ⟨rfl, rfl, h.of spares.core spares.classes rfl⟩

/-- Hosts whose functions do nothing: for what is asked of an engine, no more of the hosts is
needed than their callbacks. -/
def idle₁ (c : Callbacks H) : Host (Diaried H) := ⟨callbacks c, fun _ _ => return ()⟩

@[inherit_doc idle₁]
def idle₂ (c : Callbacks H) : Host H := ⟨c, fun _ _ => return ()⟩

theorem driven_idle (c : Callbacks H) (core : ClassId) (known : ClassId → String → Prop) :
    (shadow H core known).Driven (idle₁ c) (idle₂ c) where
  toLawful := (nesting (c := c) rfl rfl fun _ _ => LiveSim.pure (P := .same) rfl).toLawful
  fault_report h := fun _ => ⟨rfl, h.onHost _⟩
  setSlot h := fun _ _ => h.onVm rfl

theorem concluded_same {ρ : Renaming} {r s : Except InterpretError Unit} {n : Machine H}
    (h : (erasure H core known).Concluded ρ r m s n) :
    (erasure H core known).going ρ m n ∧ r = s := by
  cases h with
  | ok going | compile going => exact ⟨going, rfl⟩
  | runtime fault => exact ⟨fault, rfl⟩

theorem interpret_ended
    (engines : Engine.Alike (erasure H core known) (idle₁ c) (idle₂ c) e₁ e₂)
    (moduleName source : String) (h : Keeping core known m) :
    (erasure H core known).Ended .id (erasure H core known).Concluded
      (interpret e₁ moduleName source m) (e₂.interpret moduleName source (plain m)) := by
  have laws := (driven_idle c core known).simulates
  rw [Engine.interpret_by]
  change (erasure H core known).Ended _ _ (e₁.interpretBy _ moduleName source m) _
  unfold Engine.interpretBy
  cases parseModule source with
  | error errors =>
    refine (Engine.reportAll_sim laws.toLawful engines _ m _ (going_plain h)).bind fun _ h => ?_
    exact .ok le_rfl (.compile h.1)
  | ok body =>
    have opened : Keeping core known
        (m.onVm fun vm => { vm.openModule moduleName with depth := 0 }) :=
      h.onVm (Vm.openModule_core _ moduleName)
    have ran := runModule_sim laws.toLawful engines moduleName body (ρ := .id) _ _
      (going_plain opened)
    refine ran.bind ?_
    rintro σ _ m _ n - (⟨going, -⟩ | fault)
    · exact .ok le_rfl (.ok going)
    · dsimp only
      rw [Engine.reporting_run, Engine.reporting_run]
      exact .ok le_rfl (.runtime (Engine.fault_reported laws.toReporting engines fault _))

/-- A talk with a diary and without do the same. -/
theorem talk_sim (engines : Engine.Alike (erasure H core known) (idle₁ c) (idle₂ c) e₁ e₂)
    {talk : Talk H α} (mild : talk.Mild) :
    LiveSim (erasure H core known) .id .same (talk.noted e₁) (talk.run e₂) := by
  induction talk with
  | done a => exact .pure rfl
  | work act next ih =>
    rintro m _ ⟨-, rfl, h⟩
    refine (lift_ended mild.1 h).bind ?_
    rintro σ b m _ _ - ⟨⟨rfl, rfl, h⟩, rfl⟩
    exact ih b (mild.2 b) m _ (going_plain h)
  | interpret moduleName source next ih =>
    rintro m _ ⟨-, rfl, h⟩
    refine ((interpret_ended engines moduleName source h).imp fun _ => concluded_same).bind ?_
    rintro σ r m _ _ - ⟨⟨rfl, rfl, h⟩, rfl⟩
    exact ih r (mild r) m _ (going_plain h)
  | call signature next ih =>
    rintro m _ ⟨-, rfl, h⟩
    have called := Engine.call_sim (driven_idle c core known).simulates engines signature
      (going_plain h)
    refine (called.imp fun _ => concluded_same).bind ?_
    rintro σ r m _ _ - ⟨⟨rfl, rfl, h⟩, rfl⟩
    exact ih r (mild r) m _ (going_plain h)

theorem alike_idle {talk : HostFunction → Talk H Unit}
    (engines :
      Engine.Alike (erasure H core known) (Talk.notedHost c talk) (Talk.host c talk) e₁ e₂) :
    Engine.Alike (erasure H core known) (idle₁ c) (idle₂ c) e₁ e₂ := { engines with }

theorem keeps_talks {talk : HostFunction → Talk H Unit} (mild : ∀ f, (talk f).Mild) :
    Keeps core (Talk.notedHost c talk) (Talk.host c talk) := fun _ =>
  nesting rfl rfl fun engines f => talk_sim (alike_idle engines) (mild f)

/-! ### What a talk comes to -/

/-- How a run ended, without its diary. -/
def forget : EStateM.Result Halt (Machine (Diaried H)) α → EStateM.Result Halt (Machine H) α
  | .ok a m => .ok a (plain m)
  | .error h m => .error h (plain m)

/-- Every talk, held with a diary that was blank: without the diary it is the plain one; the machine
and its classes are what they were; and each note is of the machine, and names the module that its
class has in the heap. -/
theorem talk_noted {talks : HostFunction → Talk H Unit} (milds : ∀ f, (talks f).Mild)
    {talk : Talk H α} (mild : talk.Mild) (depth : Nat) (m : Machine H) :
    let told := talk.noted (engine (Talk.notedHost c talks) depth) (beside m [])
    let ended := Live.machine told
    forget told = talk.run ((Talk.host c talks).engine depth) m ∧
    ended.vm.core = m.vm.core ∧
    (∀ classId moduleName, m.heap.InModule classId moduleName →
      ended.heap.InModule classId moduleName) ∧
    ∀ note ∈ ended.host.diary, note.home.core = m.vm.core ∧
      ended.heap.InModule note.classId note.home.moduleName := by
  have start : Keeping m.vm.core m.heap.InModule (beside m []) :=
    ⟨rfl, fun _ _ => id, nofun⟩
  have engines : Engine.Alike (erasure H m.vm.core m.heap.InModule) (idle₁ c) (idle₂ c)
      (engine (Talk.notedHost c talks) depth) ((Talk.host c talks).engine depth) :=
    alike_idle (erases (keeps_talks milds) depth m.heap.InModule)
  have ended := talk_sim engines mild _ _ (going_plain start)
  change (erasure H m.vm.core m.heap.InModule).Ended .id _ _
    (talk.run ((Talk.host c talks).engine depth) m) at ended
  revert ended
  generalize talk.noted (engine (Talk.notedHost c talks) depth) (beside m []) = r,
    talk.run ((Talk.host c talks).engine depth) m = s
  rintro (⟨-, ⟨⟨rfl, rfl, h⟩, rfl⟩⟩ | ⟨-, rfl, rfl, h⟩ | stopped)
  · exact ⟨rfl, h.running, h.classes, h.notes⟩
  · exact ⟨rfl, h.running, h.classes, h.notes⟩
  · cases stopped

end Diaried
end ScriptHost
