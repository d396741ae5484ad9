import ScriptHost.Proofs.Primitives.Grounded

/-! Runs of grounded machines. A host that makes up no values finds a grounded machine grounded
again after all that it asks for, and so does a script. It is told as a run beside itself, in which
every object that was made stands for itself: what a run makes is paired from then on, and what was
never made is paired never. -/

namespace ScriptHost

/-! ### Hosts -/

/-- A change on the desk that brings no value there: handles may be copied and dropped, but what
they stand for is had from a machine. -/
def Desk.Honest (change : Desk → Desk) : Prop := ∀ d v, (change d).Offers v → d.Offers v

structure Callbacks.Honest (c : Callbacks Desk) : Prop where
  write : ∀ text, Desk.Honest fun d => ((c.write text).run d).2
  report : ∀ r, Desk.Honest fun d => ((c.report r).run d).2
  bindMethod : ∀ name, Desk.Honest fun d => ((c.bindMethod name).run d).2
  bindClass : ∀ moduleName className,
    Desk.Honest fun d => ((c.bindClass moduleName className).run d).2
  load : ∀ name, Desk.Honest fun d => ((c.load name).run d).2

def Dialogue.Honest : Dialogue → Prop
  | done => True
  | ask _ next => ∀ reply, (next reply).Honest
  | note change next => Desk.Honest change ∧ ∀ d, (next d).Honest

structure Conduct.Honest (c : Conduct) : Prop where
  callbacks : c.callbacks.Honest
  dialogue : ∀ f, (c.dialogue f).Honest

/-- What is noted of events has no part in the handles. -/
theorem Desk.honest_record (e : Event) : Desk.Honest (·.record e) := fun _ _ offered => offered

theorem Dialogue.honest_ofRequests (requests : List Request) : (ofRequests requests).Honest := by
  induction requests with
  | nil => trivial
  | cons r rest ih => exact fun reply => ⟨Desk.honest_record _, fun _ => ih⟩

theorem Dialogue.honest_ofCall (name : String) (requests : List Request) :
    (ofCall name requests).Honest := by
  intro reply
  cases reply with
  | count n => exact ⟨Desk.honest_record _, fun _ => honest_ofRequests requests⟩
  | _ => trivial

theorem Plan.callbacks_honest (p : Plan) : p.callbacks.Honest where
  write text := by
    unfold Plan.callbacks
    cases p.hearing.writes <;> exact fun _ _ offered => offered
  report r := by
    unfold Plan.callbacks
    cases p.hearing.reports <;> exact fun _ _ offered => offered
  bindMethod name := by
    unfold Plan.callbacks
    cases p.hearing.bindsMethods <;> exact fun _ _ offered => offered
  bindClass moduleName className := by
    unfold Plan.callbacks
    cases p.hearing.bindsClasses <;> exact fun _ _ offered => offered
  load name := by
    unfold Plan.callbacks
    cases p.hearing.loads <;> exact fun _ _ offered => offered

/-- A plan cannot make up a value. -/
theorem Plan.conduct_honest (p : Plan) : p.conduct.Honest where
  callbacks := p.callbacks_honest
  dialogue f := by
    cases f with
    | method key => exact Dialogue.honest_ofCall key _
    | allocator className => exact Dialogue.honest_ofCall className _
    | entry index => exact fun _ => trivial

/-! ### Requests -/

theorem Machine.slotForeignClass?_cases {H : Type} (m : Machine H) {slot : Nat} {classId : ClassId}
    (foreign : m.slotForeignClass? slot = some classId) :
    ∃ c, m.vm.slot? slot = some (.classObject classId) ∧ m.heap.class? classId = some c ∧
      c.isForeign = true := by
  unfold slotForeignClass? at foreign
  split at foreign
  · split at foreign
    · split at foreign
      · cases foreign
        exact ⟨_, ‹_›, ‹_›, ‹_›⟩
      · cases foreign
    · cases foreign
  · cases foreign

namespace Machine.Grounded

variable {m : Machine Desk} {v : Value}

/-- What is in the window was made. -/
theorem slot (grounded : m.Grounded) {slot : Nat} (there : m.vm.slot? slot = some v) :
    v.Alike m.heap.own v :=
  List.forall₂_same.mp grounded.vm.slots v (List.mem_of_getElem? there)

theorem binding (grounded : m.Grounded) {moduleName name : String}
    (there : m.vm.binding? moduleName name = some v) : v.Alike m.heap.own v := by
  have bound := grounded.vm.binding? moduleName name
  rw [there] at bound
  cases bound with
  | some hv => exact hv

/-- A new object of a foreign class, which is a declared one. -/
theorem newForeign (grounded : m.Grounded) {classSlot : Nat} {classId : ClassId}
    (foreign : m.slotForeignClass? classSlot = some classId) (slot : Nat) (payload : Payload) :
    m.heap.own ≤ (m.heap.addForeign classId payload).2.own ∧
      Machine.Grounded ⟨(m.heap.addForeign classId payload).2,
        m.vm.setSlot slot (.foreign m.heap.foreigns.size), m.host⟩ := by
  obtain ⟨c, there, found, isForeign⟩ := m.slotForeignClass?_cases foreign
  have hv := grounded.slot there
  have other : ¬m.vm.IsCore classId := by
    rintro ⟨core, rfl⟩
    cases (grounded.core core).symm.trans found
    cases isForeign
  cases hv with
  | classObject made =>
    obtain ⟨le, made⟩ := grounded.addForeign payload made other
    exact ⟨le, made.setSlot slot (.foreign ⟨rfl, Store.size_lt_push _ _⟩)⟩

end Machine.Grounded

/-- A request that is answered on a grounded machine, and leaves one. -/
def Desk.Grounds (x : DeskRun Reply) (m : Machine Desk) : Prop :=
  ∃ reply m', x m = .ok reply m' ∧ m.heap.own ≤ m'.heap.own ∧ m'.Grounded

/-- The result of a routine is no object. -/
theorem Outcome.result?_alike {outcome : Outcome} {returns : Option Kind} {v : Value} {ρ : Renaming}
    (given : outcome.result? returns = some v) : v.Alike ρ v := by
  unfold Outcome.result? at given
  split at given
  · obtain ⟨kind, -, given⟩ := Option.bind_eq_some_iff.mp given
    split at given
    · unfold Except.toOption at given
      split at given
      · cases given
        exact Client.toValue_alike ‹_›
      · cases given
    · cases given
  · cases given

namespace Desk

namespace Grounds

variable {m : Machine Desk} {reply : Reply} {v : Value} {slot : Nat}

theorem of_get {f : Machine Desk → DeskRun Reply} (h : Grounds (f m) m) :
    Grounds (get >>= f) m := h

theorem of_handle {handle : String} {f : Option Value → DeskRun Reply}
    (h : Grounds (f (m.host.handles.get? handle)) m) : Grounds (handle? handle >>= f) m := h

theorem of_desk {change : Desk → Desk} {f : Unit → DeskRun Reply}
    (h : Grounds (f ()) { m with host := change m.host }) : Grounds (onDesk change >>= f) m := h

theorem reading (grounded : m.Grounded) : Grounds (return reply) m :=
  ⟨reply, m, rfl, le_rfl, grounded⟩

theorem writing (grounded : m.Grounded) (hv : v.Alike m.heap.own v) :
    Grounds (onVm (·.setSlot slot v)) m :=
  ⟨_, _, rfl, le_rfl, grounded.setSlot slot hv⟩

end Grounds

variable {m : Machine Desk}

theorem dispatch_grounds (grounded : m.Grounded) (engine : Engine Desk) (params : List Kind)
    (returns : Option Kind) (body : Body) :
    Grounds (serve engine (.dispatch params returns body)) m := by
  rw [serve_dispatch]
  refine ⟨_, (((Routine.described params returns body).dispatch fun _ d => d).run m).2, rfl, ?_⟩
  rw [Routine.dispatch_run]
  dsimp only [Routine.described]
  cases m.decodeArguments params with
  | error f => exact ⟨le_rfl, grounded⟩
  | ok args =>
    dsimp only
    have landed := Outcome.land_result returns m (body.outcome args)
    cases given : (body.outcome args).result? returns with
    | none =>
      rw [given] at landed
      exact landed ▸ ⟨le_rfl, grounded⟩
    | some v =>
      rw [given] at landed
      exact landed ▸ ⟨le_rfl, grounded.setSlot 0 (Outcome.result?_alike given)⟩

/-- A request that runs no script. -/
theorem serve_grounds (grounded : m.Grounded) (engine : Engine Desk) {r : Request}
    (plain : r.runsScript = false) : Grounds (serve engine r) m := by
  cases r with
  | interpret => cases plain
  | call => cases plain
  | slotCount | slotType | showSlots | look | userData | unknown => exact .reading grounded
  | setNull slot => exact .writing grounded .null
  | setBool slot b => exact .writing grounded (.bool b)
  | setNumber slot x => exact .writing grounded (.number x)
  | setString slot s => exact .writing grounded (.string s)
  | prepareCall | setUserData => exact ⟨_, _, rfl, le_rfl, grounded.withHost grounded.handles⟩
  | ensureSlots count =>
    exact ⟨_, _, rfl, le_rfl, grounded.onVm rfl (grounded.vm.ensureSlots count)⟩
  | abort message =>
    have vm := grounded.vm
    exact ⟨_, _, rfl, le_rfl, grounded.onVm rfl
      ⟨vm.core, vm.modules, vm.slots, vm.returnWritten, rfl, vm.depth⟩⟩
  | newForeign slot classSlot payload =>
    refine .of_get ?_
    unfold Machine.newForeign?
    cases found : m.slotForeignClass? classSlot with
    | none => exact .reading grounded
    | some classId => exact ⟨_, _, rfl, grounded.newForeign found slot _⟩
  | takeHandle slot handle =>
    refine .of_get ?_
    cases found : m.vm.slot? slot with
    | none => exact .reading grounded
    | some v =>
      refine ⟨_, _, rfl, le_rfl, grounded.withHost ?_⟩
      rintro w ⟨other, offered⟩
      rw [Table.get?_set] at offered
      split at offered
      · cases offered
        exact grounded.slot found
      · exact grounded.handles w ⟨other, offered⟩
  | putHandle slot handle =>
    refine .of_handle ?_
    cases found : m.host.handles.get? handle with
    | none => exact .reading grounded
    | some v => exact .writing grounded (grounded.handles v ⟨handle, found⟩)
  | showHandle handle =>
    refine .of_get (.of_handle ?_)
    cases m.host.handles.get? handle <;> exact .reading grounded
  | compare a b =>
    refine .of_handle (.of_handle ?_)
    cases m.host.handles.get? a <;> cases m.host.handles.get? b <;> exact .reading grounded
  | readField handle name =>
    refine .of_get (.of_handle ?_)
    rcases m.host.handles.get? handle with _ | _ | _ <;> exact .reading grounded
  | writeField handle name value =>
    refine .of_handle (.of_handle ?_)
    cases m.host.handles.get? handle with
    | none => exact .reading grounded
    | some object =>
      cases found : m.host.handles.get? value with
      | none => cases object <;> exact .reading grounded
      | some v =>
        cases object with
        | object id =>
          exact ⟨_, _, rfl, (m.heap.own_setField id name v).ge,
            grounded.setField id name (grounded.handles v ⟨value, found⟩)⟩
        | _ => exact .reading grounded
  | findMethod handle signature =>
    refine .of_get (.of_handle ?_)
    cases m.host.handles.get? handle with
    | none => exact .reading grounded
    | some v =>
      cases v with
      | classObject id =>
        dsimp only
        cases m.heap.class? id <;> exact .reading grounded
      | _ => exact .reading grounded
  | readVariable moduleName name slot =>
    refine .of_get ?_
    unfold Vm.readVariable?
    cases found : m.vm.binding? moduleName name with
    | none => exact .reading grounded
    | some v => exact ⟨_, _, rfl, le_rfl, grounded.setSlot slot (grounded.binding found)⟩
  | countUserData =>
    refine .of_desk (.of_get ?_)
    dsimp only
    rcases counted m.host.userData with _ | _ | _ <;>
      exact .reading (grounded.withHost grounded.handles)
  | decode slot kind =>
    refine .of_get ?_
    cases m.decode slot kind <;> exact .reading grounded
  | decodeArguments params =>
    refine .of_get ?_
    cases m.decodeArguments params <;> exact .reading grounded
  | encode slot value =>
    refine .of_get ?_
    unfold Machine.encode
    cases given : value.toValue slot with
    | error f => exact .reading grounded
    | ok v => exact ⟨_, _, rfl, le_rfl, grounded.setSlot slot (Client.toValue_alike given)⟩
  | recode slot kind =>
    refine .of_get ?_
    unfold Machine.encode
    cases m.decode slot kind with
    | error f => exact .reading grounded
    | ok w =>
      dsimp only [Except.bind]
      cases given : w.toValue slot with
      | error f => exact .reading grounded
      | ok v => exact ⟨_, _, rfl, le_rfl, grounded.setSlot slot (Client.toValue_alike given)⟩
  | dispatch params returns body => exact dispatch_grounds grounded engine params returns body

end Desk
/-! ### The laws -/

/-- A run beside itself, for as long as its machine is grounded. -/
def groundedTwice : Simulation Desk Desk where
  written _ decl := decl.Formed
  going ρ m n := ρ = m.heap.own ∧ n = m ∧ m.Grounded
  fault _ ρ m n := ρ = m.heap.own ∧ n = m ∧ m.Grounded
  halt _ ρ m n := ρ = m.heap.own ∧ n = m ∧ m.Grounded

namespace Machine.Grounded

open Audit (idle)

variable {host₁ host₂ : Host Desk} {e₁ e₂ : Engine Desk} {callbacks : Callbacks Desk}
  {ρ : Renaming} {m : Machine Desk} {v : Value} {vs : List Value}

theorem going (grounded : m.Grounded) : groundedTwice.going m.heap.own m m := ⟨rfl, rfl, grounded⟩

/-- A callback that makes up no value. -/
theorem honest {α : Type} (grounded : m.Grounded) {act : StateM Desk α}
    (honest : Desk.Honest fun d => (act.run d).2) : (m.onHost act).2.Grounded :=
  grounded.withHost fun v offered => grounded.handles v (honest m.host v offered)

theorem host_sim {α : Type} {act : StateM Desk α} (honest : Desk.Honest fun d => (act.run d).2) :
    RunSim groundedTwice ρ .same (modifyGet (·.onHost act)) (modifyGet (·.onHost act)) := by
  refine .modifyGet ?_
  rintro m _ ⟨rfl, rfl, grounded⟩
  exact ⟨_, le_rfl, (grounded.honest honest).going, rfl⟩

theorem declares (honest : callbacks.Honest) : groundedTwice.Declares callbacks callbacks where
  bindMethod name := host_sim (honest.bindMethod name)
  bindClass moduleName className := host_sim (honest.bindClass moduleName className)
  fault there := there
  halt there := there

theorem covers (moduleName source : String) : groundedTwice.Covers moduleName source :=
  fun _ parsed => declarationsOf_formed (parseModule_bare parsed) (parseModule_shaped parsed)

theorem windowed (grounded : m.Grounded) (hv : v.Alike m.heap.own v)
    (hvs : Value.AllAlike m.heap.own vs vs) : (m.windowed v vs).Grounded := by
  have vm := grounded.vm
  exact grounded.onVm rfl ⟨vm.core, vm.modules, .cons hv hvs, rfl, rfl, vm.depth⟩

theorem closed (grounded : m.Grounded) {outer : Vm} (alike : outer.Alike m.heap.own outer) :
    (m.closed outer).Grounded := by
  have vm := grounded.vm
  exact grounded.onVm rfl ⟨vm.core, vm.modules, alike.slots, rfl, rfl, vm.depth⟩

theorem verdict (grounded : m.Grounded) (given : m.vm.verdict = .ok v) :
    v.Alike m.heap.own v := by
  unfold Vm.verdict at given
  split at given
  · cases given
  · cases given
    split
    · have slots := grounded.vm.slots
      cases window : m.vm.slots with
      | nil => exact .null
      | cons first rest =>
        rw [window] at slots
        exact (List.forall₂_cons.mp slots).1
    · exact .null

/-- What two runs owe to the interpreter to stay on grounded machines: that their host functions
do. -/
theorem nesting (callbacks : host₁.callbacks = host₂.callbacks) (honest : host₁.callbacks.Honest)
    (served : ∀ {e₁ e₂}, Engine.Alike groundedTwice host₁ host₂ e₁ e₂ → ∀ f ρ,
      LiveSim groundedTwice ρ .same (host₁.run f e₁) (host₂.run f e₂)) :
    Nesting groundedTwice host₁ host₂ where
  oneToOne := by
    rintro ρ m n ⟨rfl, -⟩
    exact Renaming.oneToOne_of_le m.heap.own_le_id
  binding? := by
    rintro ρ m n ⟨rfl, rfl, grounded⟩
    exact grounded.vm.binding?
  hasModule := by
    rintro ρ m n ⟨rfl, rfl, -⟩ name
    rfl
  list := by
    rintro ρ m n ⟨rfl, rfl, grounded⟩ a b ⟨rfl, -⟩
    exact grounded.heap.list a
  field := by
    rintro ρ m n ⟨rfl, rfl, grounded⟩ a b ⟨rfl, -⟩ name
    exact grounded.heap.field a name
  class? := by
    rintro ρ m n ⟨rfl, rfl, -⟩ a b ⟨rfl, -⟩
    exact optionRel_refl (fun _ => ⟨rfl, rfl, rfl, rfl⟩) _
  classOf := by
    rintro ρ m n ⟨rfl, rfl, grounded⟩ v w hv
    obtain rfl := hv.eq_of_own
    exact grounded.classOf hv
  method? := by
    rintro ρ m n ⟨rfl, rfl, -⟩ v w hv signature
    obtain rfl := hv.eq_of_own
    exact optionRel_refl Method.alike_refl _
  bodies := by
    rintro ρ m n ⟨rfl, rfl, grounded⟩ v signature x decl found read
    have formed := (grounded.orderly.method found _ read).2
    exact declarationsOf_formed formed.body_bare formed.body_shaped
  describe := by
    rintro ρ m n ⟨rfl, rfl, -⟩ v w hv -
    obtain rfl := hv.eq_of_own
    rfl
  lists := by
    left
    rintro ρ m n ⟨rfl, rfl, -⟩ a b ⟨rfl, -⟩
    rfl
  define := by
    rintro ρ m n ⟨rfl, rfl, grounded⟩ moduleName name v w hv
    obtain rfl := hv.eq_of_own
    exact (grounded.onVm rfl (grounded.vm.define moduleName name hv)).going
  openModule := by
    rintro ρ m n ⟨rfl, rfl, grounded⟩ name
    exact (grounded.openModule name).going
  append := by
    rintro - ρ m n ⟨rfl, rfl, grounded⟩ a b v w ⟨rfl, -⟩ hv
    obtain rfl := hv.eq_of_own
    exact ⟨(n.heap.own_append a v).symm, rfl, grounded.append a hv⟩
  setField := by
    rintro ρ m n ⟨rfl, rfl, grounded⟩ a b v w name ⟨rfl, -⟩ hv
    obtain rfl := hv.eq_of_own
    exact ⟨(n.heap.own_setField a name v).symm, rfl, grounded.setField a name hv⟩
  addList := by
    rintro ρ m n ⟨rfl, rfl, grounded⟩ vs ws hvs
    obtain rfl := hvs.eq_of_own
    obtain ⟨le, after⟩ := grounded.addList hvs
    exact ⟨_, le, after.going, rfl, Store.size_lt_push _ _⟩
  addInstance := by
    rintro ρ m n ⟨rfl, rfl, grounded⟩ a b ⟨rfl, there⟩ signature decl found
    obtain ⟨_, ⟨⟩, other⟩ := grounded.constructs (.classObject ⟨rfl, there⟩) found
    obtain ⟨le, after⟩ := grounded.addInstance ⟨rfl, there⟩ other
    exact ⟨_, le, after.going, rfl, Store.size_lt_push _ _⟩
  write := by
    rintro ρ m n ⟨rfl, rfl, grounded⟩ text
    rw [← callbacks]
    exact (grounded.honest (honest.write text)).going
  report := by
    rintro ρ m n ⟨rfl, rfl, grounded⟩ r
    rw [← callbacks]
    exact (grounded.honest (honest.report r)).going
  load := by
    rintro ρ m n ⟨rfl, rfl, grounded⟩ name
    rw [← callbacks]
    exact ⟨rfl, (grounded.honest (honest.load name)).going, fun source _ => covers name source⟩
  defineClass := by
    intro e₁ e₂ callbacks₁ callbacks₂ ρ moduleName decl formed
    have declares : groundedTwice.Declares e₁.callbacks e₂.callbacks := by
      rw [callbacks₁, callbacks₂, ← callbacks]
      exact declares honest
    refine declares.defineClass_declared moduleName formed ?_
    rintro c orderly declared σ m _ ⟨rfl, rfl, grounded⟩
    obtain ⟨le, after⟩ := grounded.addClass orderly declared
    exact ⟨_, le, after.going, rfl, Store.size_lt_push _ _⟩
  callForeign := by
    rintro e₁ e₂ engines ρ m n ⟨rfl, rfl, grounded⟩ v w vs ws signature f g hv hvs hf hg
    obtain rfl := hv.eq_of_own
    obtain rfl := hvs.eq_of_own
    cases hf.symm.trans hg
    exact called engines grounded f hv hvs
  allocate := by
    rintro e₁ e₂ engines ρ m n ⟨rfl, rfl, grounded⟩ a b c d vs ws f g ⟨rfl, there⟩ hvs hc hd hf hg
    obtain rfl := hvs.eq_of_own
    cases hc.symm.trans hd
    cases hf.symm.trans hg
    exact called engines grounded f (.classObject ⟨rfl, there⟩) hvs
  allocated := .inl fun _ _ _ formed => formed
  raise there := fun _ => there
  exhaust there := there
  depth := by
    rintro ρ m n ⟨rfl, rfl, -⟩
    rfl
  deeper := by
    rintro ρ m n ⟨rfl, rfl, grounded⟩
    exact (grounded.onVm rfl (grounded.vm.atDepth rfl)).going
  shallower := by
    rintro ρ m n ⟨rfl, rfl, grounded⟩
    exact (grounded.onVm rfl (grounded.vm.atDepth rfl)).going
  fault_depth := by
    rintro f ρ m n ⟨rfl, rfl, -⟩
    rfl
  fault_shallower := by
    rintro f ρ m n ⟨rfl, rfl, grounded⟩
    exact (grounded.onVm rfl (grounded.vm.atDepth rfl)).going
  miscount := .inl ⟨id, id⟩
where
  called {e₁ e₂ : Engine Desk} (engines : Engine.Alike groundedTwice host₁ host₂ e₁ e₂)
      {m : Machine Desk} (grounded : m.Grounded) (f : HostFunction) {v : Value} {vs : List Value}
      (hv : v.Alike m.heap.own v) (hvs : Value.AllAlike m.heap.own vs vs) :
      groundedTwice.Ended m.heap.own (groundedTwice.Settled .alike)
        ((callForeign host₁ e₁ f v vs).run m) ((callForeign host₂ e₂ f v vs).run m) := by
    rw [callForeign_bind, callForeign_bind]
    refine (served engines f _ _ _ (grounded.windowed hv hvs).going).bind ?_
    rintro σ _ _ _ m' le ⟨⟨rfl, rfl, after⟩, -⟩
    refine .ok le_rfl ?_
    have closed := (after.closed (grounded.vm.mono le)).going
    have given {w : Value} := after.verdict (v := w)
    change groundedTwice.Settled _ _ m'.vm.verdict _ m'.vm.verdict _
    revert given
    cases m'.vm.verdict with
    | error e => exact fun _ => .fault closed
    | ok w => exact fun given => .ok closed (given rfl)

/-! ### Programs -/

/-- As far as scripts and calls go that a host function asks for, all that counts of the host are
its callbacks. -/
theorem driven (honest : callbacks.Honest) :
    Driven groundedTwice (idle callbacks) (idle callbacks) where
  toLawful := (nesting rfl honest fun _ _ _ => LiveSim.pure (P := .same) rfl).toLawful
  fault_report := by
    rintro f ρ m n ⟨rfl, rfl, grounded⟩ r
    exact (grounded.honest (honest.report r)).going
  slots := by
    rintro ρ m n ⟨rfl, rfl, grounded⟩
    exact grounded.vm.slots
  setSlot := by
    rintro ρ m n ⟨rfl, rfl, grounded⟩ slot v w hv
    obtain rfl := hv.eq_of_own
    exact (grounded.setSlot slot hv).going

/-- A script starts at the outermost depth. -/
theorem rewound (moduleName : String)
    (opened : groundedTwice.going ρ (m.onVm (·.openModule moduleName))
      (m.onVm (·.openModule moduleName))) :
    groundedTwice.going ρ (m.onVm fun vm => { vm.openModule moduleName with depth := 0 })
      (m.onVm fun vm => { vm.openModule moduleName with depth := 0 }) := by
  obtain ⟨rfl, -, grounded⟩ := opened
  exact (grounded.onVm (f := fun vm => { vm with depth := 0 }) rfl (grounded.vm.atDepth rfl)).going

theorem serve_sim (honest : callbacks.Honest)
    (engines : Engine.Alike groundedTwice (idle callbacks) (idle callbacks) e₁ e₂)
    (r : Request) : LiveSim groundedTwice ρ .same (Desk.serve e₁ r) (Desk.serve e₂ r) := by
  rintro _ m ⟨rfl, rfl, grounded⟩
  have laws := driven honest
  cases kind : r.runsScript with
  | false =>
    obtain ⟨a, m', served₁, served₂, -⟩ := Desk.serve_atOnce e₁ e₂ m kind
    obtain ⟨_, _, same, le, after⟩ := Desk.serve_grounds grounded e₁ kind
    cases same.symm.trans served₁
    rw [served₁, served₂]
    exact .ok le ⟨after.going, rfl⟩
  | true =>
    cases r with
    | interpret moduleName source =>
      refine (Engine.interpret_sim laws.toReporting engines (covers moduleName source)
        grounded.going (rewound moduleName)).bind ?_
      rintro σ _ m _ n - (hmn | hmn | hmn) <;> exact .ok le_rfl ⟨hmn, rfl⟩
    | call handle =>
      rw [Desk.serve_call, Desk.serve_call]
      cases m.host.calls.get? handle with
      | none => exact .ok le_rfl ⟨grounded.going, rfl⟩
      | some signature =>
        refine (Engine.call_sim laws engines signature grounded.going).bind ?_
        rintro σ _ _ _ n - (⟨rfl, rfl, hm⟩ | ⟨rfl, rfl, hm⟩ | ⟨rfl, rfl, hm⟩) <;>
          exact .ok le_rfl ⟨hm.going, rfl⟩
    | _ => cases kind

/-- Dialogues held with engines that do the same come to the same. -/
theorem hold_sim (honest : callbacks.Honest)
    (engines : Engine.Alike groundedTwice (idle callbacks) (idle callbacks) e₁ e₂)
    (d : Dialogue) (fair : d.Honest) :
    LiveSim groundedTwice ρ .same (d.hold (Desk.serve e₁)) (d.hold (Desk.serve e₂)) := by
  induction d generalizing ρ with
  | done => exact .pure rfl
  | ask r next ih =>
    refine (serve_sim honest engines r).bind ?_
    rintro σ reply _ - rfl
    exact ih reply (fair reply)
  | note change next ih =>
    refine LiveSim.bind (P := .same) (.modify ?_) fun _ _ => .get_bind ?_
    · rintro m _ ⟨rfl, rfl, grounded⟩
      exact (grounded.withHost fun v offered => grounded.handles v (fair.1 _ v offered)).going
    · rintro _ m ⟨rfl, rfl, grounded⟩
      exact ih m.host (fair.2 _) m m grounded.going

/-- The laws of the interpreter, for the hosts of honest programs. -/
theorem conduct_nesting {c : Conduct} (honest : c.Honest) :
    Nesting groundedTwice c.host c.host :=
  nesting rfl honest.callbacks fun {e₁ e₂} engines f _ =>
    have apart : Engine.Alike groundedTwice (idle c.callbacks) (idle c.callbacks) e₁ e₂ :=
      { engines with }
    hold_sim honest.callbacks apart (c.dialogue f) (honest.dialogue f)

end Machine.Grounded
end ScriptHost
