import ScriptHost.Proofs.Binding.Declaration
import ScriptHost.Proofs.Depth.Requests

/-! The window from a script's side. A script cannot see the window of whoever asked for it: every
host function that it calls has a window of its own. So two machines that differ in their windows
alone do the same whatever message is sent on them, and differ in their windows alone after it. -/

namespace ScriptHost

variable {H α : Type}

/-- Two machines that differ in their windows at most. -/
structure Machine.SameBeyondWindow (m n : Machine H) : Prop where
  heap : m.heap = n.heap
  vm : m.vm.SameBeyondWindow n.vm
  host : m.host = n.host

namespace Machine.SameBeyondWindow

variable {m n k : Machine H}

theorem refl (m : Machine H) : m.SameBeyondWindow m := ⟨rfl, .refl m.vm, rfl⟩

theorem symm (h : m.SameBeyondWindow n) : n.SameBeyondWindow m :=
  ⟨h.heap.symm, ⟨h.vm.core.symm, h.vm.modules.symm, h.vm.depth.symm⟩, h.host.symm⟩

theorem trans (h : m.SameBeyondWindow n) (h' : n.SameBeyondWindow k) : m.SameBeyondWindow k :=
  ⟨h.heap.trans h'.heap, ⟨h.vm.core.trans h'.vm.core, h.vm.modules.trans h'.vm.modules,
    h.vm.depth.trans h'.vm.depth⟩, h.host.trans h'.host⟩

theorem closed (m : Machine H) (w : Vm) : m.SameBeyondWindow (m.closed w) :=
  ⟨rfl, ⟨rfl, rfl, rfl⟩, rfl⟩

/-- The second machine is the first with another window. -/
theorem eq_closed (h : m.SameBeyondWindow n) : n = m.closed n.vm := by
  obtain ⟨heap, ⟨core, modules, slots, returnWritten, abort, depth⟩, host⟩ := m
  obtain ⟨heap', ⟨core', modules', slots', returnWritten', abort', depth'⟩, host'⟩ := n
  obtain ⟨rfl, ⟨rfl, rfl, rfl⟩, rfl⟩ := h
  rfl

end Machine.SameBeyondWindow

theorem Machine.closed_openModule (m : Machine H) (w : Vm) (name : String) :
    (m.closed w).onVm (·.openModule name) = (m.onVm (·.openModule name)).closed w := by
  unfold Machine.onVm Vm.openModule
  dsimp only
  by_cases there : m.vm.hasModule name = true
  · have there' : (m.closed w).vm.hasModule name = true := there
    rw [if_pos there, if_pos there']
  · have there' : ¬(m.closed w).vm.hasModule name = true := there
    rw [if_neg there, if_neg there']
    rfl

theorem Machine.closed_method? (m : Machine H) (w : Vm) (v : Value) (signature : String) :
    (m.closed w).method? v signature = m.method? v signature := by
  cases v <;> rfl

/-- Two runs that ended the same way, on machines that differ in their windows at most. -/
inductive EndsAlike : EStateM.Result Halt (Machine H) α → EStateM.Result Halt (Machine H) α → Prop
  | ok {a : α} {m n : Machine H} : m.SameBeyondWindow n → EndsAlike (.ok a m) (.ok a n)
  | halt {h : Halt} {m n : Machine H} : m.SameBeyondWindow n → EndsAlike (.error h m) (.error h n)

/-- A host function is given a window of its own, whatever the window before it. -/
theorem callForeign_unseen (host : Host H) (engine : Engine H) (f : HostFunction) (v : Value)
    (vs : List Value) {m n : Machine H} (same : m.SameBeyondWindow n) :
    EndsAlike ((callForeign host engine f v vs).run m)
      ((callForeign host engine f v vs).run n) := by
  rw [same.eq_closed]
  generalize n.vm = w
  rw [callForeign_bind, callForeign_bind]
  change EndsAlike (EStateM.bind (host.run f engine) _ (m.windowed v vs))
    (EStateM.bind (host.run f engine) _ (m.windowed v vs))
  unfold EStateM.bind
  cases host.run f engine (m.windowed v vs) with
  | ok _ inner => exact .ok ⟨rfl, ⟨rfl, rfl, rfl⟩, rfl⟩
  | error h inner => exact .halt (.refl inner)

/-! ### The two runs -/

/-- Two machines, the second of which has the window of `w`. -/
def unseen (w : Vm) : Simulation Surroundings Surroundings where
  written _ _ := True
  going ρ m n := ρ = .id ∧ n = m.closed w
  fault _ ρ m n := ρ = .id ∧ n = m.closed w
  halt _ ρ m n := ρ = .id ∧ n = m.closed w

namespace Unseen

variable {w : Vm} {ρ : Renaming} {m : Machine Surroundings} {e₁ e₂ : Engine Surroundings}

/-- A host function has a window of its own, which is the same in both runs. -/
theorem callForeign_ended (f : HostFunction) (v : Value) (vs : List Value) :
    (unseen w).Ended .id ((unseen w).Settled .alike)
      ((callForeign Surroundings.host e₁ f v vs).run m)
      ((callForeign Surroundings.host e₂ f v vs).run (m.closed w)) := by
  rw [callForeign_run, callForeign_run]
  change (unseen w).Ended _ _ (.ok (Surroundings.runs f (m.windowed v vs)).vm.verdict _)
    (.ok (Surroundings.runs f (m.windowed v vs)).vm.verdict _)
  refine .ok le_rfl ?_
  cases (Surroundings.runs f (m.windowed v vs)).vm.verdict with
  | error e => exact .fault ⟨rfl, rfl⟩
  | ok value => exact .ok ⟨rfl, rfl⟩ (Value.alike_refl value)

theorem defineClass_ended (callbacks₁ : e₁.callbacks = Surroundings.callbacks)
    (callbacks₂ : e₂.callbacks = Surroundings.callbacks) (moduleName : String) (decl : ClassDecl) :
    (unseen w).Ended .id ((unseen w).Settled fun σ a b => σ.classes a b)
      ((defineClass e₁ moduleName decl).run m)
      ((defineClass e₂ moduleName decl).run (m.closed w)) := by
  rw [defineClass_run callbacks₁, defineClass_run callbacks₂]
  have same : (m.closed w).host.record.declared moduleName decl =
      m.host.record.declared moduleName decl := rfl
  rw [same]
  cases m.host.record.declared moduleName decl with
  | ok c => exact .ok le_rfl (.ok ⟨rfl, rfl⟩ rfl)
  | error refusal =>
    cases refusal with
    | panic message => exact .halt le_rfl ⟨rfl, rfl⟩
    | noAllocator => exact .ok le_rfl (.fault ⟨rfl, rfl⟩)
    | member d f => exact .ok le_rfl (.fault ⟨rfl, rfl⟩)

/-- What a script can read and write is no part of the window. -/
theorem nesting (w : Vm) : Nesting (unseen w) Surroundings.host Surroundings.host where
  oneToOne := by
    rintro ρ m n ⟨rfl, rfl⟩
    exact Renaming.oneToOne_id
  binding? := by
    rintro ρ m n ⟨rfl, rfl⟩ moduleName name
    exact optionRel_refl Value.alike_refl _
  hasModule := by
    rintro ρ m n ⟨rfl, rfl⟩ name
    rfl
  list := by
    rintro ρ m n ⟨rfl, rfl⟩ a b rfl
    exact Value.allAlike_id.mpr rfl
  field := by
    rintro ρ m n ⟨rfl, rfl⟩ a b rfl name
    exact Value.alike_refl _
  class? := by
    rintro ρ m n ⟨rfl, rfl⟩ a b rfl
    exact optionRel_refl (fun _ => ⟨rfl, rfl, rfl, rfl⟩) _
  classOf := by
    rintro ρ m n ⟨rfl, rfl⟩ v w hv
    obtain rfl := Value.alike_id.mp hv
    cases v <;> rfl
  method? := by
    rintro ρ m n ⟨rfl, rfl⟩ v _ hv signature
    obtain rfl := Value.alike_id.mp hv
    rw [m.closed_method? w v signature]
    exact optionRel_refl Method.alike_refl _
  bodies _ := fun _ _ _ _ => trivial
  describe := by
    rintro ρ m n ⟨rfl, rfl⟩ v w hv -
    obtain rfl := Value.alike_id.mp hv
    rfl
  lists := by
    left
    rintro ρ m n ⟨rfl, rfl⟩ a b rfl
    rfl
  define := by
    rintro ρ m n ⟨rfl, rfl⟩ moduleName name v w hv
    obtain rfl := Value.alike_id.mp hv
    exact ⟨rfl, rfl⟩
  openModule := by
    rintro ρ m n ⟨rfl, rfl⟩ name
    exact ⟨rfl, m.closed_openModule w name⟩
  append := by
    rintro - ρ m n ⟨rfl, rfl⟩ a b v w rfl hv
    obtain rfl := Value.alike_id.mp hv
    exact ⟨rfl, rfl⟩
  setField := by
    rintro ρ m n ⟨rfl, rfl⟩ a b v w name rfl hv
    obtain rfl := Value.alike_id.mp hv
    exact ⟨rfl, rfl⟩
  addList := by
    rintro ρ m n ⟨rfl, rfl⟩ vs ws hvs
    obtain rfl := Value.allAlike_id.mp hvs
    exact ⟨.id, le_rfl, ⟨rfl, rfl⟩, rfl⟩
  addInstance := by
    rintro ρ m n ⟨rfl, rfl⟩ a b rfl - - -
    exact ⟨.id, le_rfl, ⟨rfl, rfl⟩, rfl⟩
  write := by
    rintro ρ m n ⟨rfl, rfl⟩ text
    exact ⟨rfl, rfl⟩
  report := by
    rintro ρ m n ⟨rfl, rfl⟩ r
    exact ⟨rfl, rfl⟩
  load := by
    rintro ρ m n ⟨rfl, rfl⟩ name
    exact ⟨rfl, ⟨rfl, rfl⟩, fun _ _ _ _ _ _ => trivial⟩
  defineClass := by
    rintro e₁ e₂ callbacks₁ callbacks₂ ρ moduleName decl - m n ⟨rfl, rfl⟩
    exact defineClass_ended callbacks₁ callbacks₂ moduleName decl
  callForeign := by
    rintro e₁ e₂ - ρ m n ⟨rfl, rfl⟩ v _ vs ws signature f g hv hvs hf hg
    obtain rfl := Value.alike_id.mp hv
    obtain rfl := Value.allAlike_id.mp hvs
    rw [m.closed_method? w v signature] at hg
    cases hf.symm.trans hg
    exact callForeign_ended f v vs
  allocate := by
    rintro e₁ e₂ - ρ m n ⟨rfl, rfl⟩ a b c d vs ws f g rfl hvs hc hd hf hg
    obtain rfl := Value.allAlike_id.mp hvs
    cases hc.symm.trans hd
    cases hf.symm.trans hg
    exact callForeign_ended f _ vs
  allocated := .inl fun _ _ _ _ => trivial
  raise h := fun _ => h
  exhaust h := h
  depth := by
    rintro ρ m n ⟨rfl, rfl⟩
    rfl
  deeper := by
    rintro ρ m n ⟨rfl, rfl⟩
    exact ⟨rfl, rfl⟩
  shallower := by
    rintro ρ m n ⟨rfl, rfl⟩
    exact ⟨rfl, rfl⟩
  fault_depth := by
    rintro f ρ m n ⟨rfl, rfl⟩
    rfl
  fault_shallower := by
    rintro f ρ m n ⟨rfl, rfl⟩
    exact ⟨rfl, rfl⟩
  miscount := .inl ⟨id, id⟩

end Unseen

/-- A message sent: what it comes to, and all that it changes, is the same whatever the window. -/
theorem send_alike (depth : Nat) (receiver : Value) (signature : String) (args : List Value)
    {m n : Machine Surroundings} (same : m.SameBeyondWindow n) :
    EndsAlike (((Surroundings.host.engine depth).send receiver signature args).run m)
      (((Surroundings.host.engine depth).send receiver signature args).run n) := by
  have engines := engine_alike (Unseen.nesting n.vm) depth
  have ran := engines.perform (Action.alike_refl (.send receiver signature args)) m n
    ⟨rfl, same.eq_closed⟩
  unfold Engine.send
  revert ran
  generalize ((Surroundings.host.engine depth).perform _).run m = r
  generalize ((Surroundings.host.engine depth).perform _).run n = s
  rintro (⟨-, ⟨⟨rfl, rfl⟩, hvw⟩ | ⟨rfl, rfl⟩⟩ | ⟨-, rfl, rfl⟩ | ⟨⟨⟩⟩)
  · obtain rfl := Value.alike_id.mp hvw
    exact .ok (.closed _ _)
  · exact .ok (.closed _ _)
  · exact .halt (.closed _ _)

end ScriptHost
