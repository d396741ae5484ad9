import ScriptHost.Proofs.Binding.Dispatch
import ScriptHost.Proofs.Simulation.Shadow

/-! The window of a host. Every host function works on a window of its own; the one that was there
before is put back after it, however it ended and whatever it did, calls and scripts of its own
included. So no call, no import and no script changes the window of the host that asked for it. -/

namespace ScriptHost

variable {H : Type}

/-- Two machines with the same slots, the same mark on slot 0 and the same request to stop. -/
structure Vm.SameWindow (vm w : Vm) : Prop where
  slots : vm.slots = w.slots
  returnWritten : vm.returnWritten = w.returnWritten
  abort : vm.abort = w.abort

namespace Vm.SameWindow

variable {vm w : Vm}

theorem refl (vm : Vm) : vm.SameWindow vm := ⟨rfl, rfl, rfl⟩

theorem atDepth (h : vm.SameWindow w) (depth : Nat) : { vm with depth }.SameWindow w :=
  ⟨h.slots, h.returnWritten, h.abort⟩

theorem openModule (h : vm.SameWindow w) (name : String) : (vm.openModule name).SameWindow w := by
  unfold Vm.openModule
  split
  · exact h
  · exact ⟨h.slots, h.returnWritten, h.abort⟩

theorem steady (w : Vm) : Vm.Steady (·.SameWindow w) where
  define h := fun _ _ _ => ⟨h.slots, h.returnWritten, h.abort⟩
  openModule h := h.openModule

end Vm.SameWindow

/-! ### Host functions -/

/-- Whatever a host function does, its window is closed after it and the one before put back. -/
theorem callForeign_window {host : Host H} {engine : Engine H} {f : HostFunction}
    {receiver : Value} {args : List Value} {m m' : Machine H} {r : Except RuntimeError Value}
    (returned : (callForeign host engine f receiver args).run m = .ok r m') :
    m'.vm.SameWindow m.vm := by
  rw [callForeign_bind] at returned
  obtain ⟨_, inner, -, closed⟩ := Live.bind_inv returned
  cases closed
  exact ⟨rfl, rfl, rfl⟩

/-! ### Scripts -/

/-- A run beside itself, for as long as the window is that of `w`. -/
def Shadow.window (H : Type) (w : Vm) : Shadow H H :=
  .keeping H (·.SameWindow w) (fun _ => False) Eq

namespace Shadow.window

theorem nesting (host : Host H) (w : Vm) : (window H w).Nesting host host where
  toLawful := (Vm.SameWindow.steady w).lawful rfl fun engines m h f v vs => by
    obtain rfl := engines.known
    refine keeping_same fun r m' ran => ?_
    have same := callForeign_window ran
    exact ⟨same.slots.trans h.slots, same.returnWritten.trans h.returnWritten,
      same.abort.trans h.abort⟩
  deeper h := h.atDepth _
  shallower h := h.atDepth _
  fault_shallower h := h.atDepth _
  miscount := .inl fun _ => trivial
  engines _ := rfl

theorem reporting (host : Host H) (w : Vm) : (window H w).Reporting host host where
  toLawful := (nesting host w).toLawful
  fault_report h := fun _ => ⟨rfl, h⟩

theorem ended {m : Machine H} {w : Vm} {α : Type} {Q : Results α α} {x : Run H α}
    (same : RunSim (window H w).simulation .id Q x x) (h : m.vm.SameWindow w)
    {r : Except RuntimeError α} {m' : Machine H} (returned : x.run m = .ok r m') :
    m'.vm.SameWindow w := by
  have ran := same m m ⟨rfl, rfl, h⟩
  rw [returned] at ran
  obtain ⟨-, ⟨⟨-, -, after⟩, -⟩ | ⟨-, -, after⟩⟩ := ran
  · exact after
  · exact after

end Shadow.window

/-- A message sent leaves the window as it was. -/
theorem invoke_window (host : Host H) (depth : Nat) {receiver : Value} {signature : String}
    {args : List Value} {m m' : Machine H} {r : Except RuntimeError Value}
    (returned : (invoke host (host.engine depth) receiver signature args).run m = .ok r m') :
    m'.vm.SameWindow m.vm := by
  have laws := (Shadow.window.nesting host m.vm).simulates
  exact Shadow.window.ended (invoke_sim laws (engine_alike laws depth) (Value.alike_refl receiver)
    signature (Value.allAlike_id.mpr rfl)) (.refl m.vm) returned

/-- A script run leaves the window as it was. -/
theorem interpret_window (host : Host H) (depth : Nat) {moduleName source : String}
    {m m' : Machine H} {r : Except InterpretError Unit}
    (returned : (host.engine depth).interpret moduleName source m = .ok r m') :
    m'.vm.SameWindow m.vm := by
  have engines := engine_alike (Shadow.window.nesting host m.vm).simulates depth
  have started : (Shadow.window H m.vm).simulation.going .id m m := ⟨rfl, rfl, .refl m.vm⟩
  have covers : (Shadow.window H m.vm).simulation.Covers moduleName source :=
    fun _ _ _ _ => trivial
  have ran := Engine.interpret_sim (Shadow.window.reporting host m.vm).simulates engines covers
    started fun opened => ⟨rfl, rfl, opened.2.2.atDepth 0⟩
  rw [returned] at ran
  obtain ⟨-, ⟨-, -, after⟩ | ⟨-, -, after⟩ | ⟨-, -, after⟩⟩ := ran
  · exact after
  · exact after
  · exact after

/-- Whatever a host's functions do, and however deep they call each other: a message sent to a
value, a host function called, and a script run give the window back as they found it, with a result
as with an error. -/
theorem windows_given_back (host : Host H) (depth : Nat) (m m' : Machine H) :
    (∀ receiver signature args r,
      (invoke host (host.engine depth) receiver signature args).run m = .ok r m' →
        m'.vm.SameWindow m.vm) ∧
    (∀ f receiver args r,
      (callForeign host (host.engine depth) f receiver args).run m = .ok r m' →
        m'.vm.SameWindow m.vm) ∧
    (∀ moduleName source r, (host.engine depth).interpret moduleName source m = .ok r m' →
      m'.vm.SameWindow m.vm) :=
  ⟨fun _ _ _ _ returned => invoke_window host depth returned,
    fun _ _ _ _ returned => callForeign_window returned,
    fun _ _ _ returned => interpret_window host depth returned⟩

end ScriptHost
