import ScriptHost.Machine.Invocation

/-! What holds along the course of a run. It is said of the modules of a machine and of its host's
side; it may be one thing while the run goes on, another while a fault is on its way, which is known
with the activations it passed through, and a third when everything has stopped. Each operation of
the run monads has one rule. -/

namespace ScriptHost

/-- A body that runs: the module that its code belongs to, and its name. -/
structure Activation where
  moduleName : String
  function : String
deriving Repr, DecidableEq

/-- The activation that a line of a trace is about. -/
def TraceEntry.activation (t : TraceEntry) : Activation := ⟨t.moduleName, t.function⟩

def Frame.activation (f : Frame) : Activation := f.entry.activation

/-- The faults of a method of the machine itself that is run without an argument which it reads, and
of a constructor that is run for an object. -/
def RuntimeFault.isMisuse : RuntimeFault → Bool
  | missingArgument | constructorOnObject => true
  | _ => false

structure Course (H : Type) where
  going : Table Bindings → H → Prop
  fault : RuntimeFault → List TraceEntry → Table Bindings → H → Prop
  halt : Table Bindings → H → Prop

variable {H α β : Type} {C : Course H} {m : Machine H}

namespace Course

/-- How a run ended: with `Q`, or everything has stopped. -/
def Ended (C : Course H) (Q : α → Machine H → Prop) : EStateM.Result Halt (Machine H) α → Prop
  | .ok a m => Q a m
  | .error _ m => C.halt m.vm.modules m.host

/-- What a script came to. -/
def Settled (C : Course H) : Except RuntimeError α → Machine H → Prop
  | .ok _, m => C.going m.vm.modules m.host
  | .error e, m => C.fault e.fault e.trace m.vm.modules m.host

variable {P : α → Machine H → Prop} {Q : β → Machine H → Prop}

/-- Two steps in a row, the second from where the first led. -/
theorem Ended.bind_ran {x : Live H α} {f : α → Live H β} (h : C.Ended P (x m))
    (hf : ∀ a n, x m = .ok a n → P a n → C.Ended Q (f a n)) : C.Ended Q ((x >>= f) m) := by
  change C.Ended Q (EStateM.bind x f m)
  unfold EStateM.bind
  revert h hf
  cases x m with
  | ok a n => exact fun h hf => hf a n rfl h
  | error halt n => exact fun h _ => h

theorem Ended.bind {x : Live H α} {f : α → Live H β} (h : C.Ended P (x m))
    (hf : ∀ a n, P a n → C.Ended Q (f a n)) : C.Ended Q ((x >>= f) m) :=
  h.bind_ran fun a n _ => hf a n

theorem Ended.imp {P' : α → Machine H → Prop} {r : EStateM.Result Halt (Machine H) α}
    (h : C.Ended P r) (hP : ∀ a n, P a n → P' a n) : C.Ended P' r := by
  cases r with
  | ok a n => exact hP a n h
  | error halt n => exact h

/-- What a course has to allow for: variables set, modules made, faults raised that are no misuse,
everything stopped, even on the way of a fault. -/
structure Lawful (C : Course H) : Prop where
  define : ∀ {modules host}, C.going modules host → ∀ moduleName name v,
    C.going (modules.update moduleName (·.set name v)) host
  register : ∀ {modules host}, C.going modules host → ∀ {name}, modules.has name = false →
    ∀ vars, C.going (modules.set name vars) host
  raise : ∀ {modules host}, C.going modules host → ∀ {f}, f.isMisuse = false →
    C.fault f [] modules host
  stop : ∀ {modules host}, C.going modules host → C.halt modules host
  fail : ∀ {f trace modules host}, C.fault f trace modules host → C.halt modules host

theorem Lawful.openModule (laws : C.Lawful) {vm : Vm} {host : H} (going : C.going vm.modules host)
    (name : String) : C.going (vm.openModule name).modules host := by
  unfold Vm.openModule
  split
  · exact going
  · exact laws.register going (Bool.eq_false_iff.mpr ‹_›) _

/-- A course that allows for any fault. -/
def Raises (C : Course H) : Prop :=
  ∀ {modules host}, C.going modules host → ∀ f, C.fault f [] modules host

/-- A callback of the host that is on course. -/
def Follows (C : Course H) (act : StateM H α) : Prop :=
  ∀ {modules host}, C.going modules host → C.going modules (act.run host).2

end Course

/-! ### The host's side -/

/-- A piece of host-side work that is on course. -/
def LiveKeeps (C : Course H) (x : Live H α) : Prop :=
  ∀ m, C.going m.vm.modules m.host → C.Ended (fun _ n => C.going n.vm.modules n.host) (x m)

namespace LiveKeeps

protected theorem pure (a : α) : LiveKeeps C (Pure.pure a) := fun _ going => going

protected theorem bind {x : Live H α} {f : α → Live H β} (h : LiveKeeps C x)
    (hf : ∀ a, LiveKeeps C (f a)) : LiveKeeps C (x >>= f) :=
  fun m going => (h m going).bind fun a n => hf a n

theorem get_bind {f : Machine H → Live H β} (h : ∀ m, LiveKeeps C (f m)) :
    LiveKeeps C (get >>= f) :=
  fun m going => h m m going

theorem callback {act : StateM H α} (h : C.Follows act) :
    LiveKeeps C (modifyGet (·.onHost act)) := fun _ going => h going

end LiveKeeps

/-! ### Runs of scripts -/

/-- A run that is on course. -/
def RunKeeps (C : Course H) (x : Run H α) : Prop :=
  ∀ m, C.going m.vm.modules m.host → C.Ended C.Settled (x.run m)

namespace RunKeeps

protected theorem pure (a : α) : RunKeeps C (Pure.pure a) := fun _ going => going

/-- A run from one machine, and what follows it from where it led. -/
theorem bind_ran {x : Run H α} {f : α → Run H β} (h : C.Ended C.Settled (x.run m))
    (hf : ∀ a n, x.run m = .ok (.ok a) n → C.going n.vm.modules n.host →
      C.Ended C.Settled ((f a).run n)) : C.Ended C.Settled ((x >>= f).run m) := by
  refine h.bind_ran (f := ExceptT.bindCont f) ?_
  rintro (e | a) n ran settled
  · exact settled
  · exact hf a n ran settled

theorem bind_at {x : Run H α} {f : α → Run H β} (h : C.Ended C.Settled (x.run m))
    (hf : ∀ a, RunKeeps C (f a)) : C.Ended C.Settled ((x >>= f).run m) :=
  bind_ran h fun a n _ => hf a n

protected theorem bind {x : Run H α} {f : α → Run H β} (h : RunKeeps C x)
    (hf : ∀ a, RunKeeps C (f a)) : RunKeeps C (x >>= f) :=
  fun m going => bind_at (h m going) hf

theorem get_bind {f : Machine H → Run H β} (h : ∀ m, RunKeeps C (f m)) : RunKeeps C (get >>= f) :=
  fun m going => h m m going

theorem modify {f : Machine H → Machine H}
    (h : ∀ m, C.going m.vm.modules m.host → C.going (f m).vm.modules (f m).host) :
    RunKeeps C (modify f) := h

protected theorem modifyGet {f : Machine H → α × Machine H}
    (h : ∀ m, C.going m.vm.modules m.host → C.going (f m).2.vm.modules (f m).2.host) :
    RunKeeps C (modifyGet f) := h

protected theorem fault (laws : C.Lawful) {f : RuntimeFault} (ordinary : f.isMisuse = false) :
    RunKeeps C (fault f : Run H α) := fun _ going => laws.raise going ordinary

protected theorem halt (laws : C.Lawful) (h : Halt) :
    RunKeeps C (throwThe Halt h : Run H α) := fun _ going => laws.stop going

theorem lift {x : Live H α} (h : LiveKeeps C x) : RunKeeps C (monadLift x) := by
  intro m going
  have ended := h m going
  change C.Ended C.Settled (EStateM.map Except.ok x m)
  unfold EStateM.map
  revert ended
  cases x m with
  | ok a n => exact id
  | error halt n => exact id

theorem callback {act : StateM H α} (h : C.Follows act) :
    RunKeeps C (modifyGet (·.onHost act)) := fun _ going => h going

end RunKeeps

/-! ### Runs inside an activation -/

/-- A run inside an activation that is on course, and leaves the activation under its name. -/
def ScriptKeeps (C : Course H) (body : Activation) (x : Script H α) : Prop :=
  ∀ f m, f.activation = body → C.going m.vm.modules m.host →
    C.Ended (fun r n => r.2.activation = body ∧ C.Settled r.1 n) (x.run.run f m)

namespace ScriptKeeps

variable {body : Activation}

protected theorem pure (a : α) : ScriptKeeps C body (Pure.pure a) :=
  fun _ _ named going => ⟨named, going⟩

protected theorem bind {x : Script H α} {f : α → Script H β} (h : ScriptKeeps C body x)
    (hf : ∀ a, ScriptKeeps C body (f a)) : ScriptKeeps C body (x >>= f) := by
  intro k m named going
  refine (h k m named going).bind (f := fun r => (ExceptT.bindCont f r.1).run r.2) ?_
  rintro ⟨_ | a, l⟩ n ⟨named, settled⟩
  · exact ⟨named, settled⟩
  · exact hf a l n named settled

/-- A run that starts by looking at its activation. -/
theorem getFrame_bind {f : Frame → Script H β}
    (h : ∀ k, k.activation = body → ScriptKeeps C body (f k)) :
    ScriptKeeps C body (getThe Frame >>= f) :=
  fun k m named going => h k named k m named going

theorem get_bind {f : Machine H → Script H β} (h : ∀ m, ScriptKeeps C body (f m)) :
    ScriptKeeps C body (getThe (Machine H) >>= f) :=
  fun k m named going => h m k m named going

theorem modifyFrame {f : Frame → Frame} (h : ∀ k, (f k).activation = k.activation) :
    ScriptKeeps C body (modifyThe Frame f) :=
  fun k _ named going => ⟨(h k).trans named, going⟩

theorem modify {f : Machine H → Machine H}
    (h : ∀ m, C.going m.vm.modules m.host → C.going (f m).vm.modules (f m).host) :
    ScriptKeeps C body (modifyThe (Machine H) f) :=
  fun _ m named going => ⟨named, h m going⟩

theorem modifyGet {f : Machine H → α × Machine H}
    (h : ∀ m, C.going m.vm.modules m.host → C.going (f m).2.vm.modules (f m).2.host) :
    ScriptKeeps C body (modifyGetThe (Machine H) f) :=
  fun _ m named going => ⟨named, h m going⟩

protected theorem fault (laws : C.Lawful) {f : RuntimeFault} (ordinary : f.isMisuse = false) :
    ScriptKeeps C body (fault f : Script H α) :=
  fun _ _ named going => ⟨named, laws.raise going ordinary⟩

protected theorem halt (laws : C.Lawful) (h : Halt) :
    ScriptKeeps C body (throwThe Halt h : Script H α) :=
  fun _ _ _ going => laws.stop going

theorem ofRun {x : Run H α} (h : RunKeeps C x) : ScriptKeeps C body (Script.ofRun x) := by
  intro k m named going
  refine (h m going).bind (f := fun r => Pure.pure (r, k)) ?_
  exact fun _ _ settled => ⟨named, settled⟩

theorem inScope (scope : Bindings) {x : Script H α} (h : ScriptKeeps C body x) :
    ScriptKeeps C body (Script.inScope scope x) := by
  intro k m named going
  refine (h { k with scopes := scope :: k.scopes } m named going).bind
    (f := fun r => Pure.pure (r.1, { r.2 with scopes := r.2.scopes.tail })) ?_
  exact fun _ _ kept => kept

/-- A whole activation. A fault that leaves it has it last on its trace. -/
theorem activate {D : Course H} {k : Frame} {x : Script H α} (h : ScriptKeeps C k.activation x)
    (outside : ∀ {modules host}, C.going modules host → D.going modules host)
    (left : ∀ {f trace modules host}, C.fault f trace modules host →
      ∀ entry, entry.activation = k.activation → D.fault f (trace ++ [entry]) modules host)
    (stopped : ∀ {modules host}, C.halt modules host → D.halt modules host)
    (going : C.going m.vm.modules m.host) :
    D.Ended D.Settled ((Script.activate k x).run m) := by
  have ended := h k m rfl going
  change D.Ended D.Settled (EStateM.bind (x.run.run k) _ m)
  unfold EStateM.bind
  revert ended
  rcases x.run.run k m with ⟨⟨e | a, last⟩, n⟩ | ⟨halt, n⟩
  · exact fun ended => left ended.2 last.entry ended.1
  · exact fun ended => outside ended.2
  · exact stopped

end ScriptKeeps
end ScriptHost
