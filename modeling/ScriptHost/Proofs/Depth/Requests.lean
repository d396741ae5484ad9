import ScriptHost.Embedding.Session
import ScriptHost.Proofs.Binding.Dispatch
import ScriptHost.Proofs.Simulation.Facade

/-! Host functions of all sorts. A host function talks to its machine in requests, and each request
may depend on all replies so far and on what is on the desk. A fixed list of requests, as in a plan,
is the case where it depends on neither. Only two sorts of requests run scripts; all others are
answered at once, in the same way by every interpreter, and touch nothing of the machine beyond its
window. -/

namespace ScriptHost

/-! ### Dialogues -/

/-- What a host function asks for, step by step. -/
inductive Dialogue where
  | done
  /-- A request; the reply decides how to go on. -/
  | ask (r : Request) (next : Reply → Dialogue)
  /-- A change on the desk; what is there then decides how to go on. -/
  | note (change : Desk → Desk) (next : Desk → Dialogue)

namespace Dialogue

/-- A dialogue held with whoever answers its requests. -/
def hold (answer : Request → DeskRun Reply) : Dialogue → DeskRun Unit
  | done => return ()
  | ask r next => do
    let reply ← answer r
    (next reply).hold answer
  | note change next => do
    Desk.onDesk change
    (next (← get).host).hold answer

/-- A list of requests, the replies to which are recorded. -/
def ofRequests : List Request → Dialogue
  | [] => done
  | r :: rest => ask r fun reply => note (·.record (.reply reply)) fun _ => ofRequests rest

/-- A call of a host function that the program knows by a name. -/
def ofCall (name : String) (requests : List Request) : Dialogue :=
  ask .slotCount fun
    | .count n => note (·.record (.call name n)) fun _ => ofRequests requests
    | _ => done

theorem hold_ofRequests (engine : Engine Desk) (requests : List Request) :
    (ofRequests requests).hold (Desk.serve engine) = Desk.serveAll engine requests := by
  induction requests with
  | nil => rfl
  | cons r rest ih =>
    unfold Desk.serveAll
    rw [← ih]
    rfl

theorem hold_ofCall (engine : Engine Desk) (name : String) (requests : List Request) :
    (ofCall name requests).hold (Desk.serve engine) = Desk.serveCall engine name requests := by
  unfold Desk.serveCall
  rw [← hold_ofRequests]
  rfl

end Dialogue

/-- How an embedding program goes about its callbacks and its host functions. -/
structure Conduct where
  callbacks : Callbacks Desk
  dialogue : HostFunction → Dialogue

/-- The host of a program, if its functions' requests are answered in some way. -/
def Conduct.hostBy (c : Conduct) (answer : Engine Desk → Request → DeskRun Reply) : Host Desk where
  callbacks := c.callbacks
  run f engine := (c.dialogue f).hold (answer engine)

def Conduct.host (c : Conduct) : Host Desk := c.hostBy Desk.serve

/-- The conduct of a plan. -/
def Plan.conduct (p : Plan) : Conduct where
  callbacks := p.callbacks
  dialogue
    | .method key => .ofCall key (p.methodRequests key)
    | .allocator className => .ofCall className (p.allocatorRequests className)
    | .entry index => .ask (.abort ("function " ++ index.repr ++ " not registered")) fun _ => .done

theorem Plan.conduct_host (p : Plan) : p.conduct.host = p.host := by
  unfold Plan.host Conduct.host Conduct.hostBy
  congr 1
  funext f engine
  cases f with
  | method key => exact Dialogue.hold_ofCall engine key _
  | allocator className => exact Dialogue.hold_ofCall engine className _
  | entry index => rfl

/-! ### Requests -/

/-- Whether a request runs scripts. -/
def Request.runsScript : Request → Bool
  | interpret .. | call .. => true
  | _ => false

/-- Two machines that differ in their windows at most. -/
structure Vm.SameBeyondWindow (vm w : Vm) : Prop where
  core : vm.core = w.core
  modules : vm.modules = w.modules
  depth : vm.depth = w.depth

namespace Vm.SameBeyondWindow

theorem refl (vm : Vm) : vm.SameBeyondWindow vm := ⟨rfl, rfl, rfl⟩

theorem setSlot (vm : Vm) (slot : Nat) (v : Value) : (vm.setSlot slot v).SameBeyondWindow vm :=
  ⟨rfl, rfl, rfl⟩

end Vm.SameBeyondWindow

/-- Two runs on one machine that are the same, and do not reach beyond its window. -/
def AtOnce {H α : Type} (x y : Live H α) (m : Machine H) : Prop :=
  ∃ a m', x m = .ok a m' ∧ y m = .ok a m' ∧ m'.vm.SameBeyondWindow m.vm

namespace AtOnce

variable {H α : Type} {x y : Live H α} {m : Machine H}

/-- A run that leaves the machine as it is. -/
theorem reading {a : α} (hx : x m = .ok a m) (hy : y m = .ok a m) : AtOnce x y m :=
  ⟨a, m, hx, hy, .refl m.vm⟩

/-- A run that changes the desk or the heap alone. -/
theorem elsewhere {a : α} {heap : Heap} {host : H} (hx : x m = .ok a { m with heap, host })
    (hy : y m = .ok a { m with heap, host }) : AtOnce x y m :=
  ⟨a, _, hx, hy, .refl m.vm⟩

/-- A run that starts by looking at the machine. -/
theorem of_get {f g : Machine H → Live H α} (h : AtOnce (f m) (g m) m) :
    AtOnce (get >>= f) (get >>= g) m := h

/-- A run that changes the machine by one step, which tells what to answer. -/
theorem of_step {β : Type} {step : Machine H → β × Machine H} {f : β → α}
    (beyond : (step m).2.vm.SameBeyondWindow m.vm) :
    AtOnce (modifyGet step >>= fun b => pure (f b)) (modifyGet step >>= fun b => pure (f b)) m :=
  ⟨f (step m).1, (step m).2, rfl, rfl, beyond⟩

theorem writing {a : α} {slot : Nat} {v : Value} (hx : x m = .ok a (m.onVm (·.setSlot slot v)))
    (hy : y m = .ok a (m.onVm (·.setSlot slot v))) : AtOnce x y m :=
  ⟨a, _, hx, hy, .setSlot m.vm slot v⟩

end AtOnce

/-- A routine run on the window does not reach beyond it. -/
theorem Routine.dispatch_beyond {H : Type} (keep : ForeignId → H → H) (r : Routine)
    (m : Machine H) : ((r.dispatch keep).run m).2.vm.SameBeyondWindow m.vm := by
  rw [Routine.dispatch_run]
  cases m.decodeArguments r.params with
  | error f => exact .refl m.vm
  | ok args =>
    dsimp only
    have marked : ((r.call args m.heap).mark keep m).vm = m.vm := by
      unfold Effect.mark
      cases (r.call args m.heap).keeps <;> rfl
    rw [← marked]
    obtain same | ⟨w, same⟩ := (r.call args m.heap).outcome.land_machine r.returns
      ((r.call args m.heap).mark keep m)
    · rw [same]
      exact .refl _
    · rw [same]
      exact .setSlot _ 0 w

namespace Desk

variable (e₁ e₂ : Engine Desk) (m : Machine Desk)

/-- A run that starts by looking for a handle. -/
private theorem of_handle {m : Machine Desk} {name : String}
    {f g : Option Value → DeskRun Reply}
    (h : AtOnce (f (m.host.handles.get? name)) (g (m.host.handles.get? name)) m) :
    AtOnce (handle? name >>= f) (handle? name >>= g) m := h

/-- A run that starts with a change on the desk. -/
private theorem of_desk {m : Machine Desk} {change : Desk → Desk} {f g : Unit → DeskRun Reply}
    (h : AtOnce (f ()) (g ()) { m with host := change m.host }) :
    AtOnce (onDesk change >>= f) (onDesk change >>= g) m := h

theorem serve_dispatch (engine : Engine Desk) (params : List Kind)
    (returns : Option Kind) (body : Body) :
    serve engine (.dispatch params returns body) = do
      let result ← modifyGet ((Routine.described params returns body).dispatch fun _ d => d).run
      return match result with
        | .ok () => .done
        | .error f => .boundaryFault f := by
  unfold serve
  dsimp only
  congr 1
  funext result
  cases result <;> rfl

theorem serve_call (engine : Engine Desk) (handle : String) :
    serve engine (.call handle) m =
      (match m.host.calls.get? handle with
      | some signature => do
        let result ← engine.call signature
        let m ← get
        outcome (return .called (m.heap.view (m.vm.slots.headD .null))) result
      | none => return .none : DeskRun Reply) m :=
  rfl

/-- A request that runs no script is answered at once. -/
theorem serve_atOnce {r : Request} (plain : r.runsScript = false) :
    AtOnce (serve e₁ r) (serve e₂ r) m := by
  cases r with
  | interpret => cases plain
  | call => cases plain
  | slotCount => exact .reading rfl rfl
  | ensureSlots count => exact ⟨_, _, rfl, rfl, rfl, rfl, rfl⟩
  | slotType slot => exact .reading rfl rfl
  | showSlots => exact .reading rfl rfl
  | look slot => exact .reading rfl rfl
  | setNull slot => exact .writing rfl rfl
  | setBool slot b => exact .writing rfl rfl
  | setNumber slot x => exact .writing rfl rfl
  | setString slot s => exact .writing rfl rfl
  | newForeign slot classSlot payload =>
    refine .of_get ?_
    unfold Machine.newForeign?
    cases m.slotForeignClass? classSlot with
    | none => exact .reading rfl rfl
    | some classId => exact ⟨_, _, rfl, rfl, .setSlot m.vm slot _⟩
  | takeHandle slot handle =>
    refine .of_get ?_
    cases m.vm.slot? slot with
    | none => exact .reading rfl rfl
    | some v => exact .elsewhere rfl rfl
  | putHandle slot handle =>
    refine of_handle ?_
    cases m.host.handles.get? handle with
    | none => exact .reading rfl rfl
    | some v => exact .writing rfl rfl
  | showHandle handle =>
    refine .of_get (of_handle ?_)
    cases m.host.handles.get? handle <;> exact .reading rfl rfl
  | compare a b =>
    refine of_handle (of_handle ?_)
    cases m.host.handles.get? a <;> cases m.host.handles.get? b <;> exact .reading rfl rfl
  | readField handle name =>
    refine .of_get (of_handle ?_)
    rcases m.host.handles.get? handle with _ | _ | _ <;> exact .reading rfl rfl
  | writeField handle name value =>
    refine of_handle (of_handle ?_)
    rcases m.host.handles.get? handle with _ | _ | _ <;>
      cases m.host.handles.get? value <;> exact .elsewhere rfl rfl
  | findMethod handle signature =>
    refine .of_get (of_handle ?_)
    cases m.host.handles.get? handle with
    | none => exact .reading rfl rfl
    | some v =>
      cases v with
      | classObject id =>
        dsimp only
        cases m.heap.class? id <;> exact .reading rfl rfl
      | _ => exact .reading rfl rfl
  | readVariable moduleName name slot =>
    refine .of_get ?_
    unfold Vm.readVariable?
    cases m.vm.binding? moduleName name with
    | none => exact .reading rfl rfl
    | some v => exact .writing rfl rfl
  | prepareCall signature handle => exact .elsewhere rfl rfl
  | abort message => exact ⟨_, _, rfl, rfl, rfl, rfl, rfl⟩
  | setUserData data => exact .elsewhere rfl rfl
  | userData => exact .reading rfl rfl
  | countUserData =>
    refine of_desk (.of_get ?_)
    dsimp only
    rcases counted m.host.userData with _ | _ | _ <;> exact .reading rfl rfl
  | decode slot kind =>
    refine .of_get ?_
    cases m.decode slot kind <;> exact .reading rfl rfl
  | decodeArguments params =>
    refine .of_get ?_
    cases m.decodeArguments params <;> exact .reading rfl rfl
  | encode slot value =>
    refine .of_get ?_
    unfold Machine.encode
    cases value.toValue slot with
    | error f => exact .reading rfl rfl
    | ok v => exact .writing rfl rfl
  | recode slot kind =>
    refine .of_get ?_
    unfold Machine.encode
    cases m.decode slot kind with
    | error f => exact .reading rfl rfl
    | ok value =>
      dsimp only [Except.bind]
      cases value.toValue slot with
      | error f => exact .reading rfl rfl
      | ok v => exact .writing rfl rfl
  | dispatch params returns body =>
    rw [serve_dispatch, serve_dispatch]
    exact .of_step (Routine.dispatch_beyond _ _ m)
  | unknown => exact .reading rfl rfl

end Desk
end ScriptHost
