import ScriptHost.Proofs.Binding.Dispatch
import ScriptHost.Proofs.Simulation.Shadow

/-! A journal of what makes runs stop. Beside the surroundings of a machine it takes down, as they
happen, the host functions and makers that fail and the foreign members that are not bound. Nothing
reads it, so that a run with a journal does what the run does without one. As long as the run goes
on the journal is empty; when a fault is on its way it has at most one entry, which explains the
fault, and that entry is the fault that the surroundings remember. -/

namespace ScriptHost

/-- What happened on the host's side that makes a run stop. -/
inductive Mishap where
  /-- A host function, or the maker of a foreign class, failed. -/
  | failed (f : BoundaryFault)
  /-- There is no host function for a foreign member, or none that it may have. -/
  | unbound (name : MemberName)
deriving DecidableEq

namespace Mishap

/-- What the embedding program is to be told. -/
def fault : Mishap → BoundaryFault
  | failed f => f
  | unbound name =>
    if name.moduleName = entryModule then .unresolved name.canonical
    else .untrusted name.moduleName name.canonical

/-- What scripts are stopped by. -/
def runtimeFault : Mishap → RuntimeFault
  | failed f => .aborted f.message
  | unbound name => name.unknown

end Mishap

/-- The surroundings of a machine with a journal, the latest entry first. -/
structure Journaled where
  surroundings : Surroundings
  journal : List Mishap

namespace Surroundings

/-- The failure of an entry that is run on a window. -/
def entryFailure? (e : Entry) (m : Machine Surroundings) : Option BoundaryFault :=
  match e with
  | .routine r =>
    match ((r.dispatch keep).run m).1 with
    | .ok () => none
    | .error f => some f
  | .maker maker =>
    match allocate maker m with
    | .ok _ => none
    | .error f => some f

/-- The failure of a host function that is run on a window. -/
def failure? (f : HostFunction) (m : Machine Surroundings) : Option BoundaryFault :=
  match f with
  | .entry point => (m.host.registry.find? point).bind fun e => entryFailure? e m
  | .method _ | .allocator _ => none

end Surroundings

namespace Journaled

/-- A machine without its journal. -/
def plain (m : Machine Journaled) : Machine Surroundings := ⟨m.heap, m.vm, m.host.surroundings⟩

/-- A machine with a journal. -/
def beside (m : Machine Surroundings) (journal : List Mishap) : Machine Journaled :=
  ⟨m.heap, m.vm, ⟨m.host, journal⟩⟩

def callback {α : Type} (act : StateM Surroundings α) : StateM Journaled α := fun j =>
  ((act.run j.surroundings).1, ⟨(act.run j.surroundings).2, j.journal⟩)

def note (x : Mishap) (j : Journaled) : Journaled := { j with journal := x :: j.journal }

def callbacks : Callbacks Journaled where
  write text := callback (Surroundings.callbacks.write text)
  report r := callback (Surroundings.callbacks.report r)
  bindMethod name := do
    let found ← callback (Surroundings.callbacks.bindMethod name)
    if found.isNone then modify (note (.unbound name))
    return found
  bindClass moduleName className := callback (Surroundings.callbacks.bindClass moduleName className)
  load name := callback (Surroundings.callbacks.load name)

/-- The host of programs, with a journal. -/
def host : Host Journaled where
  callbacks := callbacks
  run f _ := modify fun m =>
    beside (Surroundings.runs f (plain m))
      (((Surroundings.failure? f (plain m)).map .failed).toList ++ m.host.journal)

end Journaled

/-! ### Failures -/

namespace Surroundings

variable {m : Machine Surroundings}

theorem dispatch_record (r : Routine) (m : Machine Surroundings) :
    ((r.dispatch keep).run m).2.host.record = m.host.record := by
  rw [Routine.dispatch_run]
  cases m.decodeArguments r.params with
  | error f => rfl
  | ok args =>
    dsimp only
    rw [Outcome.land_host]
    unfold Effect.mark
    cases (r.call args m.heap).keeps <;> rfl

theorem allocate_host {maker : Maker} {m' : Machine Surroundings}
    (made : allocate maker m = .ok m') : m'.host = m.host := by
  unfold allocate Machine.newForeign? at made
  cases outcome : maker.make with
  | error message =>
    rw [outcome] at made
    cases made
  | ok payload =>
    rw [outcome] at made
    cases slot : m.slotForeignClass? 0 with
    | none =>
      rw [slot] at made
      cases made
    | some classId =>
      rw [slot] at made
      cases made
      rfl

/-- An entry that fails stops the script, and its failure is remembered. -/
theorem runEntry_failed {e : Entry} {f : BoundaryFault} (failed : entryFailure? e m = some f) :
    ∃ m', runEntry e m = stop m' f := by
  cases e with
  | routine r =>
    unfold entryFailure? at failed
    dsimp only at failed
    rw [runEntry_dispatch]
    revert failed
    rcases (r.dispatch keep).run m with ⟨_ | _, m'⟩
    · rintro ⟨⟩
      exact ⟨m', rfl⟩
    · rintro ⟨⟩
  | maker maker =>
    unfold entryFailure? at failed
    unfold runEntry
    dsimp only at failed ⊢
    cases made : allocate maker m with
    | error f' =>
      rw [made] at failed
      cases failed
      exact ⟨m, rfl⟩
    | ok m' =>
      rw [made] at failed
      cases failed

theorem runEntry_fine {e : Entry} (fine : entryFailure? e m = none) :
    (runEntry e m).host.record = m.host.record := by
  cases e with
  | routine r =>
    have record := dispatch_record r m
    unfold entryFailure? at fine
    dsimp only at fine
    rw [runEntry_dispatch]
    revert fine record
    rcases (r.dispatch keep).run m with ⟨_ | _, m'⟩
    · rintro ⟨⟩
    · exact fun _ record => record
  | maker maker =>
    unfold entryFailure? at fine
    unfold runEntry
    dsimp only at fine ⊢
    cases made : allocate maker m with
    | error f =>
      rw [made] at fine
      cases fine
    | ok m' => exact congrArg record (allocate_host made)

theorem runs_failed {f : HostFunction} {e : BoundaryFault} (failed : failure? f m = some e) :
    ∃ m', runs f m = stop m' e := by
  cases f with
  | entry point =>
    obtain ⟨entry, found, failed⟩ := Option.bind_eq_some_iff.mp failed
    rw [runs_entry found]
    exact runEntry_failed failed
  | method | allocator => cases failed

theorem runs_fine {f : HostFunction} (fine : failure? f m = none) :
    (runs f m).host.record = m.host.record := by
  cases f with
  | entry point =>
    change (m.host.registry.find? point).bind _ = none at fine
    cases found : m.host.registry.find? point with
    | none =>
      unfold runs
      dsimp only
      rw [found]
      rfl
    | some entry =>
      rw [found] at fine
      rw [runs_entry found]
      exact runEntry_fine fine
  | method | allocator => rfl

theorem bindMethod_known {s : Surroundings} {name : MemberName} {f : HostFunction}
    (found : (s.bindMethod name).1 = some f) : (s.bindMethod name).2 = s := by
  unfold bindMethod at found ⊢
  split at found
  · rw [if_pos ‹_›]
    cases known : s.record.methods.get? name.canonical with
    | some g => rfl
    | none =>
      rw [known] at found
      cases found
  · cases found

theorem bindMethod_unknown {s : Surroundings} {name : MemberName}
    (missing : (s.bindMethod name).1 = none) :
    (s.bindMethod name).2 = s.setPending (some (Mishap.unbound name).fault) := by
  unfold bindMethod at missing ⊢
  unfold Mishap.fault
  dsimp only
  split at missing
  · rw [if_pos ‹_›, if_pos ‹_›]
    cases known : s.record.methods.get? name.canonical with
    | some g =>
      rw [known] at missing
      cases missing
    | none => rfl
  · rw [if_neg ‹_›, if_neg ‹_›]

end Surroundings

/-! ### The run beside its journal -/

/-- What the journal, and the surroundings on their own, have about a fault that is on its way. -/
inductive RuntimeFault.Explained (f : RuntimeFault) : List Mishap → Option BoundaryFault → Prop
  | own : f.Explained [] none
  | mishap (x : Mishap) : f = x.runtimeFault → f.Explained [x] (some x.fault)

namespace Journaled

/-- The run without a journal is a shadow of the run with one. -/
def shadow : Shadow Journaled Surroundings where
  written _ _ := True
  image := Journaled.surroundings
  going m := m.host.journal = [] ∧ m.host.surroundings.record.pending = none
  fault f m := f.Explained m.host.journal m.host.surroundings.record.pending
  halt _ := True

variable {m : Machine Journaled}

/-- A fault of the machine's own, in a run where nothing went wrong on the host's side. -/
theorem fault_own (going : shadow.going m) (f : RuntimeFault) : shadow.fault f m := by
  change f.Explained m.host.journal m.host.surroundings.record.pending
  rw [going.1, going.2]
  exact .own

theorem follows {α : Type} (act : StateM Surroundings α) (going : shadow.going m)
    (record : (act.run m.host.surroundings).2.record = m.host.surroundings.record) :
    shadow.Follows m (callback act) act :=
  ⟨rfl, going.1, (congrArg _ record).trans going.2⟩

theorem bindMethod_run (name : MemberName) (j : Journaled) :
    (callbacks.bindMethod name).run j =
      ((j.surroundings.bindMethod name).1,
        ⟨(j.surroundings.bindMethod name).2,
          if (j.surroundings.bindMethod name).1.isNone then .unbound name :: j.journal
          else j.journal⟩) := by
  change (do
    if (j.surroundings.bindMethod name).1.isNone then modify (note (.unbound name))
    return (j.surroundings.bindMethod name).1 : StateM Journaled (Option HostFunction)).run
      ⟨(j.surroundings.bindMethod name).2, j.journal⟩ = _
  split <;> rfl

theorem declaring : shadow.Declaring host Surroundings.host where
  asked {m} _ := fun name => by
    change _ = (((callbacks.bindMethod name).run m.host).1, _)
    unfold Machine.onHost
    change _ = (((callbacks.bindMethod name).run m.host).1, shadow.of
      { m with host := ((callbacks.bindMethod name).run m.host).2 })
    rw [bindMethod_run]
    rfl
  known {m} h := fun name f found => by
    change ((callbacks.bindMethod name).run m.host).1 = some f at found
    change shadow.going { m with host := ((callbacks.bindMethod name).run m.host).2 }
    rw [bindMethod_run] at found ⊢
    dsimp only at found ⊢
    rw [found, Surroundings.bindMethod_known found]
    exact h
  unknown {m} h := fun name missing => by
    change ((callbacks.bindMethod name).run m.host).1 = none at missing
    change shadow.fault _ { m with host := ((callbacks.bindMethod name).run m.host).2 }
    rw [bindMethod_run] at missing ⊢
    dsimp only at missing ⊢
    rw [missing, Surroundings.bindMethod_unknown missing]
    change RuntimeFault.Explained _ (_ :: m.host.journal) _
    rw [h.1]
    exact .mishap (.unbound name) rfl
  classes h := fun _ _ => follows _ h rfl
  unknownClass h := fun _ _ => fault_own h _
  halt _ := trivial
  addClass h := fun _ => h

theorem callForeign_ended (e₁ : Engine Journaled) (e₂ : Engine Surroundings)
    (going : shadow.going m) (f : HostFunction) (v : Value) (vs : List Value) :
    shadow.simulation.Ended .id (shadow.simulation.Settled .alike)
      ((callForeign host e₁ f v vs).run m)
      ((callForeign Surroundings.host e₂ f v vs).run (shadow.of m)) := by
  rw [callForeign_bind, callForeign_run]
  refine .ok le_rfl ?_
  change shadow.simulation.Settled .alike .id
    (Surroundings.runs f (plain (m.windowed v vs))).vm.verdict
    ((beside (Surroundings.runs f (plain (m.windowed v vs))) _).closed m.vm)
    (Surroundings.runs f (plain (m.windowed v vs))).vm.verdict
    ((Surroundings.runs f (plain (m.windowed v vs))).closed m.vm)
  obtain ⟨journal, pending⟩ := going
  change m.host.journal = [] at journal
  cases outcome : Surroundings.failure? f (plain (m.windowed v vs)) with
  | none =>
    -- It may still have asked for the script to stop: that is a fault of the machine's own.
    have after : shadow.going ((beside (Surroundings.runs f (plain (m.windowed v vs)))
        m.host.journal).closed m.vm) :=
      ⟨journal, (congrArg _ (Surroundings.runs_fine outcome)).trans pending⟩
    unfold Vm.verdict
    cases (Surroundings.runs f (plain (m.windowed v vs))).vm.abort with
    | none => exact .ok ⟨rfl, rfl, after⟩ (Value.alike_refl _)
    | some message => exact .fault ⟨rfl, rfl, fault_own after _⟩
  | some e =>
    obtain ⟨m', stopped⟩ := Surroundings.runs_failed outcome
    rw [stopped]
    refine .fault ⟨rfl, rfl, ?_⟩
    change RuntimeFault.Explained _ (.failed e :: m.host.journal) (some e)
    rw [journal]
    exact .mishap (.failed e) rfl

theorem nesting : shadow.Nesting host Surroundings.host where
  bodies _ := fun _ _ _ _ => trivial
  define h := fun _ _ _ => h
  openModule h := fun _ => h
  append _ := fun h _ _ => h
  setField h := fun _ _ _ => h
  addList h := fun _ => h
  addInstance h := fun _ => h
  write {m} h := fun text => follows _ h (m.host.surroundings.write_names .out text).2.1
  report {m} h := fun r => follows _ h (m.host.surroundings.write_names .err r.text).2.1
  load h := fun _ => ⟨follows _ h rfl, fun _ _ _ _ _ _ => trivial⟩
  defineClass callbacks₁ callbacks₂ := fun h moduleName decl _ =>
    declaring.defineClass_sim callbacks₁ callbacks₂ moduleName decl _ _ ⟨rfl, rfl, h⟩
  callForeign {e₁ e₂} _ := fun h v vs _ f _ => callForeign_ended e₁ e₂ h f v vs
  allocate {e₁ e₂} _ := fun h _ _ vs f _ _ => callForeign_ended e₁ e₂ h f _ vs
  allocated := .inl fun _ _ _ _ => trivial
  raise h := fun _ => fault_own h _
  exhaust _ := trivial
  deeper h := h
  shallower h := h
  fault_shallower h := h
  miscount := .inl fun _ => trivial

theorem driven : shadow.Driven host Surroundings.host where
  toLawful := nesting.toLawful
  setSlot h := fun _ _ => h
  fault_report {f m} h := fun r => by
    refine ⟨rfl, ?_⟩
    change f.Explained m.host.journal (m.host.surroundings.write .err r.text).record.pending
    rw [(m.host.surroundings.write_names .err r.text).2.1]
    exact h

end Journaled
end ScriptHost
