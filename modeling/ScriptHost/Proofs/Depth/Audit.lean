import ScriptHost.Proofs.Binding.Dispatch
import ScriptHost.Proofs.Simulation.Shadow

/-! An audit of the count of running methods. The audited interpreter knows how many methods and
constructors of scripts are running, because it is told by whoever starts one, and checks the count
of the machine against that at the start and at the end of all that it does. It refuses a method by
what it knows, not by the count. Where host functions leave the count alone, the audited interpreter
does the same as the plain one, and finds nothing to complain about. -/

namespace ScriptHost

variable {H α : Type}

namespace Audit

/-- Give up with a text unless so many methods are counted, and no more than there may be. -/
def check (slip : String) (running : Nat) : Live H Unit := do
  let m ← get
  if m.vm.depth = running ∧ running ≤ depthLimit then return () else throw (.panic slip)

/-- What the host asks for, with the count checked before and after it. -/
def checked (slip : String) (running : Nat) (act : Live H α) : Live H α := do
  check slip running
  let a ← act
  check slip running
  return a

/-- A run with the count checked before and after it. -/
def during (slip : String) (running : Nat) (act : Run H α) : Run H α :=
  ExceptT.mk (checked slip running act.run)

/-- The run of a method or constructor while so many are running already. -/
def nested (slip : String) (running : Nat) (act : Run H α) : Run H α :=
  if depthLimit ≤ running then fault .tooDeep
  else ExceptT.mk do
    modify (·.onVm Vm.deeper)
    let result ← (during slip (running + 1) act).run
    modify (·.onVm Vm.shallower)
    return result

/-- Actions inside so many running methods. The host may know how many they are. -/
def perform (hostAt : Nat → Host H) (slip : String) : Nat → Nat → Action → Run H Value
  | 0, _, _ => throwThe Halt .exhausted
  | depth + 1, running, action =>
    let here : Engine H := ⟨(hostAt running).callbacks, depth, perform hostAt slip depth running⟩
    let inside : Engine H :=
      ⟨(hostAt (running + 1)).callbacks, depth, perform hostAt slip depth (running + 1)⟩
    during slip running <| match action with
      | .send receiver signature args =>
        invokeBy (hostAt running) here
          (fun decl => nested slip running (callScript inside decl receiver args))
          (fun id decl =>
            nested slip running (construct (hostAt (running + 1)) inside id decl args))
          receiver signature args
      | .load name => do
        loadModule here name
        return .null

/-- The audited interpreter inside so many running methods. -/
def engine (hostAt : Nat → Host H) (slip : String) (depth running : Nat) : Engine H :=
  ⟨(hostAt running).callbacks, depth, perform hostAt slip depth running⟩

/-! ### The audit against the plain run -/

/-- A run and its audit while so many methods are running. -/
def shadow (H : Type) (stops : Halt → Prop) (running : Nat) : Shadow H H :=
  .keeping H (·.depth = running) stops fun _ _ => True

variable {stops : Halt → Prop} {running : Nat} {ρ : Renaming} {host : Host H}
  {hostAt : Nat → Host H} {slip : String}

theorem check_run {m : Machine H} (counted : m.vm.depth = running) (within : running ≤ depthLimit) :
    check slip running m = .ok () m := by
  change (if m.vm.depth = running ∧ running ≤ depthLimit then _ else _ : Live H Unit) m = _
  rw [if_pos ⟨counted, within⟩]
  rfl

theorem checked_ended {β : Type} {x : Live H α} {y : Live H β} {m : Machine H}
    {Q : Renaming → α → Machine H → β → Machine H → Prop}
    (h : (shadow H stops running).simulation.Ended ρ Q (x m) (y m))
    (counted : m.vm.depth = running) (within : running ≤ depthLimit)
    (kept : ∀ {σ a m b n}, Q σ a m b n → n.vm.depth = running) :
    (shadow H stops running).simulation.Ended ρ Q (x m) (checked slip running y m) := by
  change Simulation.Ended _ _ _ _ (EStateM.bind (check slip running) _ m)
  rw [Live.bind_run (check_run counted within)]
  change Simulation.Ended _ _ _ _ (EStateM.bind y _ m)
  unfold EStateM.bind
  revert h
  generalize x m = r, y m = s
  rintro (@⟨_, _, _, b, n, le, hQ⟩ | ⟨le, halted⟩ | stopped)
  -- Only a run that went on is checked again, and there the count is what it was.
  · change Simulation.Ended _ _ _ _ (EStateM.bind (check slip running) _ n)
    rw [Live.bind_run (check_run (kept hQ) within)]
    exact .ok le hQ
  · exact .halt le halted
  · exact .stopped stopped

variable (slip) in
theorem during_sim {β : Type} {P : Results α β} {x : Run H α} {y : Run H β}
    (h : RunSim (shadow H stops running).simulation ρ P x y) (within : running ≤ depthLimit) :
    RunSim (shadow H stops running).simulation ρ P x (during slip running y) := by
  rintro m _ ⟨rfl, rfl, counted⟩
  refine checked_ended (h m m ⟨rfl, rfl, counted⟩) counted within ?_
  rintro σ _ _ _ _ (⟨⟨-, rfl, h⟩, -⟩ | ⟨-, rfl, h⟩)
  · exact h
  · exact h

/-- A method or constructor run by both: what was said of its body inside one more is said of it
here. -/
theorem nested_sim {β : Type} {P : Results α β} {x : Run H α} {y : Run H β} {m : Machine H}
    (counted : m.vm.depth = running)
    (h : running + 1 ≤ depthLimit → RunSim (shadow H stops (running + 1)).simulation .id P x y) :
    (shadow H stops running).simulation.Ended .id
      ((shadow H stops running).simulation.Settled P) ((ScriptHost.nested x).run m)
      ((nested slip running y).run m) := by
  unfold nested
  by_cases deep : depthLimit ≤ running
  · rw [if_pos deep, nested_run_deep x (counted ▸ deep)]
    exact .ok le_rfl (.fault ⟨rfl, rfl, counted⟩)
  · have inside := Nat.lt_of_not_le deep
    rw [if_neg deep, nested_run x (counted ▸ deep)]
    have ran := during_sim slip (h inside) inside (m.onVm Vm.deeper) (m.onVm Vm.deeper)
      ⟨rfl, rfl, congrArg Nat.succ counted⟩
    change Simulation.Ended _ _ _ (EStateM.bind x.run _ (m.onVm Vm.deeper))
      (EStateM.bind (during slip (running + 1) y).run _ (m.onVm Vm.deeper))
    unfold EStateM.bind
    revert ran
    generalize x.run (m.onVm Vm.deeper) = r, (during slip (running + 1) y).run _ = s
    -- The method still counts where it ends, so that it is counted off.
    have off {α : Type} (a : α) {n : Machine H} (counted' : n.vm.depth = running + 1) :
        (do countOff; return a : Live H α) n = .ok a (n.onVm Vm.shallower) :=
      (countOff_then a n).trans (if_neg (counted' ▸ Nat.succ_ne_zero running))
    rintro (⟨le, ⟨⟨rfl, rfl, counted'⟩, hab⟩ | ⟨rfl, rfl, counted'⟩⟩ | ⟨le, rfl, rfl, -⟩ | stopped)
    · dsimp only
      rw [off _ counted']
      exact .ok le_rfl (.ok ⟨rfl, rfl, congrArg Nat.pred counted'⟩ hab)
    · dsimp only
      rw [off _ counted']
      exact .ok le_rfl (.fault ⟨rfl, rfl, congrArg Nat.pred counted'⟩)
    · exact .halt le_rfl ⟨rfl, rfl, trivial⟩
    · exact .stopped stopped

/-- Host functions that leave the count as it is, or stop their run, whoever runs the scripts that
they ask for. -/
structure Supervised (stops : Halt → Prop) (host : Host H) (hostAt : Nat → Host H) : Prop where
  callbacks : ∀ running, host.callbacks = (hostAt running).callbacks
  run : ∀ {running}, running ≤ depthLimit → ∀ {e₁ e₂},
    Engine.Alike (shadow H stops running).simulation host (hostAt running) e₁ e₂ →
    ∀ f, LiveSim (shadow H stops running).simulation .id .same (host.run f e₁)
      ((hostAt running).run f e₂)

theorem steady (running : Nat) : Vm.Steady (·.depth = running) where
  define h := fun _ _ _ => h
  openModule {vm} h := fun name => by
    unfold Vm.openModule
    split
    · exact h
    · exact h

theorem Supervised.lawful (supervised : Supervised stops host hostAt)
    (within : running ≤ depthLimit) :
    (shadow H stops running).Lawful host (hostAt running) := by
  refine (steady running).lawful (supervised.callbacks running) fun engines m counted f v vs => ?_
  rw [callForeign_bind, callForeign_bind]
  refine (supervised.run within engines f (m.windowed v vs) _ ⟨rfl, rfl, counted⟩).bind ?_
  rintro σ _ m' _ _ - ⟨⟨rfl, rfl, counted'⟩, -⟩
  refine .ok le_rfl ?_
  change Simulation.Settled _ _ _ m'.vm.verdict _ m'.vm.verdict _
  unfold Vm.verdict
  cases m'.vm.abort with
  | some message => exact .fault ⟨rfl, rfl, counted'⟩
  | none => exact .ok ⟨rfl, rfl, counted'⟩ (Value.alike_refl _)

/-- The plain interpreter and the audited one do the same, at every depth and inside any number of
running methods. -/
theorem Supervised.alike (supervised : Supervised stops host hostAt) (slip : String)
    (depth running : Nat) (within : running ≤ depthLimit) :
    Engine.Alike (shadow H stops running).simulation host (hostAt running) (host.engine depth)
      (engine hostAt slip depth running) := by
  -- What a method does inside is one activation further in, so all counts are dealt with at once.
  induction depth generalizing running with
  | zero =>
    refine ⟨rfl, rfl, rfl, fun _ => .halt ?_, answersLists host 0, trivial⟩
    rintro m _ ⟨rfl, rfl, -⟩
    exact ⟨rfl, rfl, trivial⟩
  | succ depth ih =>
    have laws := (supervised.lawful within).simulates
    refine ⟨rfl, rfl, rfl, fun {ρ a b} hab => ?_, answersLists host _, trivial⟩
    refine during_sim slip ?_ within
    cases hab with
    | load name => exact (loadModule_sim laws (ih running within) name).bind fun _ _ => .pure .null
    | send signature hv hvs =>
      change RunSim _ _ _ (invoke host (host.engine depth) _ signature _) _
      rw [invoke_by]
      refine invokeBy_sim laws (ih running within) hv signature hvs trivial ?_ ?_
      · rintro m _ decl ⟨rfl, rfl, counted⟩ found
        refine nested_sim counted fun inside => ?_
        rintro m' n' hmn
        exact callScript_sim (supervised.lawful inside).simulates (ih (running + 1) inside) hmn hv
          hvs fun _ _ => trivial
      · rintro m _ a b decl ⟨rfl, rfl, counted⟩ hab rfl found
        refine nested_sim counted fun inside => ?_
        rintro m' n' hmn
        exact construct_sim (supervised.lawful inside).simulates (ih (running + 1) inside) hmn hab
          ((supervised.lawful inside).instantiates hmn hab) hvs fun _ _ => trivial

theorem counted_of_ended {β : Type} {P : Results α β} {r : Except RuntimeError α} {m' : Machine H}
    {s : EStateM.Result Halt (Machine H) (Except RuntimeError β)}
    (ended : (shadow H (fun _ => False) (running + 1)).simulation.Ended ρ
      ((shadow H (fun _ => False) (running + 1)).simulation.Settled P) (.ok r m') s) :
    m'.vm.depth ≠ 0 := by
  rcases ended with ⟨-, ⟨⟨-, -, counted⟩, -⟩ | ⟨-, -, counted⟩⟩ | _ | ⟨⟨⟩⟩
  · exact counted ▸ Nat.succ_ne_zero running
  · exact counted ▸ Nat.succ_ne_zero running

/-- Where host functions leave the count alone, every method counts until it ends. -/
theorem Supervised.counts (supervised : Supervised (fun _ => False) host hostAt) (depth : Nat) :
    (host.engine depth).Counts host where
  method {m m' decl receiver args r} room ran := by
    have inside := supervised.alike "" depth (m.vm.depth + 1) room
    have ended : Simulation.Ended _ .id _
        ((callScript (host.engine depth) decl receiver args).run (m.onVm Vm.deeper)) _ :=
      callScript_sim (supervised.lawful room).simulates inside ⟨rfl, rfl, rfl⟩
        (Value.alike_refl receiver) (Value.allAlike_id.mpr rfl) fun _ _ => trivial
    rw [ran] at ended
    exact counted_of_ended ended
  constructor {m m' id decl args r} room ran := by
    have inside := supervised.alike "" depth (m.vm.depth + 1) room
    have going : (shadow H (fun _ => False) (m.vm.depth + 1)).simulation.going .id
        (m.onVm Vm.deeper) (m.onVm Vm.deeper) := ⟨rfl, rfl, rfl⟩
    have ended : Simulation.Ended _ .id _
        ((construct host (host.engine depth) id decl args).run (m.onVm Vm.deeper)) _ :=
      construct_sim (supervised.lawful room).simulates inside going rfl
        ((supervised.lawful room).instantiates going rfl) (Value.allAlike_id.mpr rfl)
        fun _ _ => trivial
    rw [ran] at ended
    exact counted_of_ended ended

end Audit

/-! ### Host functions of a program -/

namespace Surroundings

theorem supervised : Audit.Supervised (fun _ => False) host fun _ => host where
  callbacks _ := rfl
  run _ _ _ _ f := by
    rintro m _ ⟨-, rfl, counted⟩
    have after : (runs f m).vm.depth = _ := (runs_depth f m).trans counted
    change Simulation.Ended _ _ _ (host.run f _ m) (host.run f _ m)
    rw [host_run, host_run]
    exact .ok le_rfl ⟨⟨rfl, rfl, after⟩, rfl⟩

theorem counts (depth : Nat) : (host.engine depth).Counts host := supervised.counts depth

end Surroundings
end ScriptHost
