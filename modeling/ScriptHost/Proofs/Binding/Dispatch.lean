import ScriptHost.Program.Surroundings

/-! The work of a host function on its window, as equations: what a routine's effect does to a
machine, what an entry of the registration table does, and what a script gets back from the call. -/

namespace ScriptHost

variable {H : Type}

/-- How a routine ended, once its result is put into slot 0. -/
def Outcome.land (returns : Option Kind) (m : Machine H) :
    Outcome → Except BoundaryFault Unit × Machine H
  | .fault f => (.error f, m)
  | .panic message => (.error (.failed message), m)
  | .value none => (.ok (), m)
  | .value (some v) =>
    match m.encodeResult returns v with
    | .error f => (.error f, m)
    | .ok m => (.ok (), m)

/-- The machine with the payloads written that a routine wrote, and the object kept that it keeps.
-/
def Effect.mark (keep : ForeignId → H → H) (effect : Effect) (m : Machine H) : Machine H :=
  let m := m.mapHeap (·.setPayloads effect.writes)
  match effect.keeps with
  | some id => { m with host := keep id m.host }
  | none => m

/-- A routine run on the window: nothing happens unless its arguments can be read. -/
theorem Routine.dispatch_run (keep : ForeignId → H → H) (r : Routine) (m : Machine H) :
    (r.dispatch keep).run m =
      match m.decodeArguments r.params with
      | .error f => (.error f, m)
      | .ok args =>
        (r.call args m.heap).outcome.land r.returns ((r.call args m.heap).mark keep m) := by
  unfold Routine.dispatch
  simp only [StateT.run_bind, StateT.run_get, pure_bind]
  cases m.decodeArguments r.params with
  | error f => rfl
  | ok args =>
    simp only [StateT.run_bind, StateT.run_get, pure_bind, StateT.run_modify]
    obtain ⟨outcome, writes, keeps⟩ := r.call args m.heap
    have ended (m : Machine H) :
        (match outcome with
          | .fault f => pure (.error f)
          | .panic message => pure (.error (.failed message))
          | .value none => pure (.ok ())
          | .value (some v) => do
            match (← get).encodeResult r.returns v with
            | .error f => pure (.error f)
            | .ok m =>
              set m
              pure (.ok ()) : StateM (Machine H) (Except BoundaryFault Unit)).run m =
          outcome.land r.returns m := by
      unfold Outcome.land
      cases outcome with
      | fault f => rfl
      | panic message => rfl
      | value v =>
        cases v with
        | none => rfl
        | some v =>
          simp only [StateT.run_bind, StateT.run_get, pure_bind]
          cases m.encodeResult r.returns v <;> rfl
    cases keeps with
    | none => exact ended _
    | some id => exact ended _

namespace Machine

variable {H' : Type} {m m' : Machine H} {n : Machine H'}

theorem decodeFrom_congr (vm : m.vm = n.vm) (heap : m.heap = n.heap) (slot : Nat)
    (params : List Kind) : m.decodeFrom slot params = n.decodeFrom slot params := by
  induction params generalizing slot with
  | nil => rfl
  | cons kind rest ih =>
    unfold decodeFrom decode
    rw [vm, heap, ih]

theorem decodeArguments_congr (vm : m.vm = n.vm) (heap : m.heap = n.heap) (params : List Kind) :
    m.decodeArguments params = n.decodeArguments params := by
  unfold decodeArguments firstArgument
  rw [vm, decodeFrom_congr vm heap]

theorem encodeResult_ok {returns : Option Kind} {v : HostValue}
    (h : m.encodeResult returns v = .ok m') : ∃ w, m' = m.onVm (·.setSlot 0 w) := by
  unfold encodeResult at h
  cases returns with
  | none => cases h
  | some kind =>
    dsimp only at h
    split at h
    · unfold encode at h
      cases hv : v.toValue 0 with
      | error f =>
        rw [hv] at h
        cases h
      | ok w =>
        rw [hv] at h
        cases h
        exact ⟨w, rfl⟩
    · cases h

end Machine

theorem Outcome.land_machine (returns : Option Kind) (m : Machine H) (outcome : Outcome) :
    (outcome.land returns m).2 = m ∨ ∃ w, (outcome.land returns m).2 = m.onVm (·.setSlot 0 w) := by
  unfold Outcome.land
  cases outcome with
  | fault f => exact .inl rfl
  | panic message => exact .inl rfl
  | value v =>
    cases v with
    | none => exact .inl rfl
    | some v =>
      dsimp only
      cases h : m.encodeResult returns v with
      | error f => exact .inl rfl
      | ok m' => exact .inr (Machine.encodeResult_ok h)

theorem Outcome.land_host (returns : Option Kind) (m : Machine H) (outcome : Outcome) :
    (outcome.land returns m).2.host = m.host := by
  obtain h | ⟨w, h⟩ := outcome.land_machine returns m
  · rw [h]
  · rw [h]
    rfl

theorem Outcome.land_abort (returns : Option Kind) (m : Machine H) (outcome : Outcome) :
    (outcome.land returns m).2.vm.abort = m.vm.abort := by
  obtain h | ⟨w, h⟩ := outcome.land_machine returns m
  · rw [h]
  · rw [h]
    rfl

theorem Machine.slotForeignClass?_eq {m : Machine H} {slot : Nat} {classId : ClassId}
    {c : ClassObject} (there : m.vm.slot? slot = some (.classObject classId))
    (found : m.heap.class? classId = some c) (foreign : c.isForeign) :
    m.slotForeignClass? slot = some classId := by
  unfold slotForeignClass?
  rw [there]
  dsimp only
  rw [found]
  exact if_pos foreign

theorem Machine.slotForeignClass?_native {m : Machine H} {slot : Nat} {classId : ClassId}
    {c : ClassObject} (there : m.vm.slot? slot = some (.classObject classId))
    (found : m.heap.class? classId = some c) (native : ¬ c.isForeign) :
    m.slotForeignClass? slot = none := by
  unfold slotForeignClass?
  rw [there]
  dsimp only
  rw [found]
  exact if_neg native

/-! ### Host functions of a program -/

namespace Surroundings

theorem write_names (s : Surroundings) (channel : Channel) (text : String) :
    (s.write channel text).registry = s.registry ∧ (s.write channel text).record = s.record ∧
      (s.write channel text).files = s.files := by
  unfold write
  split <;> exact ⟨rfl, rfl, rfl⟩

def keep (id : ForeignId) (s : Surroundings) : Surroundings := { s with kept := some id }

def runs (f : HostFunction) (m : Machine Surroundings) : Machine Surroundings :=
  match f with
  | .entry point =>
    match m.host.registry.find? point with
    | some e => runEntry e m
    | none => m.onVm fun vm =>
      { vm with abort := some ("function " ++ point.repr ++ " not registered") }
  | .method _ | .allocator _ => m

theorem runs_entry {m : Machine Surroundings} {point : Nat} {e : Entry}
    (found : m.host.registry.find? point = some e) : runs (.entry point) m = runEntry e m := by
  unfold runs
  dsimp only
  rw [found]

theorem host_run (f : HostFunction) (engine : Engine Surroundings) (m : Machine Surroundings) :
    host.run f engine m = .ok () (runs f m) := by
  cases f <;> rfl

theorem runEntry_dispatch (r : Routine) (m : Machine Surroundings) :
    runEntry (.routine r) m =
      match (r.dispatch keep).run m with
      | (.ok (), m) => m
      | (.error f, m) => stop m f :=
  rfl

theorem runEntry_routine (r : Routine) (m : Machine Surroundings) :
    runEntry (.routine r) m =
      match m.decodeArguments r.params with
      | .error f => stop m f
      | .ok args =>
        match (r.call args m.heap).outcome.land r.returns ((r.call args m.heap).mark keep m) with
        | (.ok (), m) => m
        | (.error f, m) => stop m f := by
  rw [runEntry_dispatch, Routine.dispatch_run]
  cases m.decodeArguments r.params <;> rfl

/-- A maker run on a window with its class in slot 0: a new object takes the place of the class. -/
theorem runEntry_maker (maker : Maker) {m : Machine Surroundings} {classId : ClassId}
    (slot : m.slotForeignClass? 0 = some classId) :
    runEntry (.maker maker) m =
      match maker.make with
      | .error message => stop m (.failed message)
      | .ok payload =>
        { m with
          heap := (m.heap.addForeign classId payload).2
          vm := m.vm.setSlot 0 (.foreign m.heap.foreigns.size) } := by
  unfold runEntry allocate Machine.newForeign?
  rw [slot]
  dsimp only
  cases maker.make <;> rfl

/-- The host functions of a program leave the count of methods alone. -/
theorem runEntry_depth (e : Entry) (m : Machine Surroundings) :
    (runEntry e m).vm.depth = m.vm.depth := by
  cases e with
  | routine r =>
    rw [runEntry_routine]
    cases m.decodeArguments r.params with
    | error f => rfl
    | ok args =>
      dsimp only
      have marked : ((r.call args m.heap).mark keep m).vm.depth = m.vm.depth := by
        unfold Effect.mark
        cases (r.call args m.heap).keeps <;> rfl
      have landed : ((r.call args m.heap).outcome.land r.returns
          ((r.call args m.heap).mark keep m)).2.vm.depth = m.vm.depth := by
        obtain same | ⟨v, same⟩ := (r.call args m.heap).outcome.land_machine r.returns
          ((r.call args m.heap).mark keep m)
        · rw [same, marked]
        · rw [same]
          exact marked
      revert landed
      rcases (r.call args m.heap).outcome.land r.returns _ with ⟨_ | _, n⟩ <;> exact id
  | maker maker =>
    unfold runEntry allocate Machine.newForeign?
    dsimp only
    cases maker.make with
    | error message => rfl
    | ok payload => cases m.slotForeignClass? 0 <;> rfl

theorem runs_depth (f : HostFunction) (m : Machine Surroundings) :
    (runs f m).vm.depth = m.vm.depth := by
  unfold runs
  cases f with
  | entry point =>
    dsimp only
    cases m.host.registry.find? point with
    | none => rfl
    | some e => exact runEntry_depth e m
  | method key | allocator className => rfl

end Surroundings

/-! ### Calls from a script -/

def Machine.windowed (m : Machine H) (receiver : Value) (args : List Value) : Machine H :=
  m.onVm fun vm => { vm with slots := receiver :: args, returnWritten := false, abort := none }

def Machine.closed (m : Machine H) (outer : Vm) : Machine H :=
  m.onVm fun vm =>
    { vm with slots := outer.slots, returnWritten := outer.returnWritten, abort := outer.abort }

/-- What a script gets back from a host function. -/
def Vm.verdict (vm : Vm) : Except RuntimeError Value :=
  match vm.abort with
  | some message => .error ⟨.aborted message, []⟩
  | none => .ok (if vm.returnWritten then vm.slots.headD .null else .null)

theorem Vm.setSlot_verdict (vm : Vm) (v : Value) :
    (vm.setSlot 0 v).verdict =
      match vm.abort with
      | some message => .error ⟨.aborted message, []⟩
      | none => .ok v := by
  have first : (vm.setSlot 0 v).slots.headD .null = v := by
    unfold setSlot ensureSlots
    cases vm.slots <;> rfl
  unfold verdict
  rw [first]
  have written : (vm.setSlot 0 v).returnWritten = true := Bool.or_true _
  rw [written]
  rfl

/-- An object that a script gets from a maker is of the class that it asked. -/
theorem Surroundings.runEntry_maker_class (maker : Maker) {m : Machine Surroundings}
    {classId : ClassId} {c : ClassObject} (slot : m.slotForeignClass? 0 = some classId)
    (found : m.heap.class? classId = some c) {id : ForeignId}
    (made : (runEntry (.maker maker) m).vm.verdict = .ok (.foreign id)) :
    (runEntry (.maker maker) m).heap.class?
      ((runEntry (.maker maker) m).classOf (.foreign id)) = some c := by
  rw [runEntry_maker maker slot] at made ⊢
  cases outcome : maker.make with
  | error message =>
    rw [outcome] at made
    cases made
  | ok payload =>
    rw [outcome] at made
    dsimp only at made
    rw [Vm.setSlot_verdict] at made
    cases abort : m.vm.abort with
    | some message =>
      rw [abort] at made
      cases made
    | none =>
      rw [abort] at made
      cases made
      change m.heap.class? (Option.getD (Option.map _ (Array.push _ _)[_]?) 0) = some c
      rw [Array.getElem?_push_size]
      exact found

/-- A host function works on a window of its own, which is closed after it. -/
theorem callForeign_bind (host : Host H) (engine : Engine H) (f : HostFunction) (receiver : Value)
    (args : List Value) (m : Machine H) :
    (callForeign host engine f receiver args).run m =
      EStateM.bind (host.run f engine) (fun _ inner => .ok inner.vm.verdict (inner.closed m.vm))
        (m.windowed receiver args) := rfl

theorem callForeign_run (engine : Engine Surroundings) (f : HostFunction) (receiver : Value)
    (args : List Value) (m : Machine Surroundings) :
    (callForeign Surroundings.host engine f receiver args).run m =
      .ok (Surroundings.runs f (m.windowed receiver args)).vm.verdict
        ((Surroundings.runs f (m.windowed receiver args)).closed m.vm) := by
  rw [callForeign_bind]
  unfold EStateM.bind
  rw [Surroundings.host_run]

end ScriptHost
