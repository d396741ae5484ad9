import ScriptHost.Proofs.Depth
import ScriptHost.Proofs.Window.Results

/-! What lasts in a heap. Scripts and host functions change the heap in six ways; a property that
outlasts each of them outlasts whatever they do together: expressions and bodies that are run,
requests that a host function makes, and all that those set off in turn. -/

namespace ScriptHost

/-- A property that every change of the heap leaves true. -/
structure Heap.Lasting (P : Heap → Prop) : Prop where
  append : ∀ {h}, P h → ∀ id v, P (h.append id v)
  setField : ∀ {h}, P h → ∀ id name v, P (h.setField id name v)
  addList : ∀ {h}, P h → ∀ items, P (h.addList items).2
  addClass : ∀ {h}, P h → ∀ c, P (h.addClass c).2
  addInstance : ∀ {h}, P h → ∀ classId, P (h.addInstance classId).2
  addForeign : ∀ {h}, P h → ∀ classId payload, P (h.addForeign classId payload).2

/-- A run beside itself, for as long as its heap has a property. -/
def Shadow.ofHeap (P : Heap → Prop) : Shadow Desk Desk where
  written _ _ := True
  image := id
  going m := P m.heap
  fault _ m := P m.heap
  halt _ := True
  engines := Eq

/-- The same run twice. -/
abbrev Heap.twice (P : Heap → Prop) : Simulation Desk Desk := (Shadow.ofHeap P).simulation

namespace Heap

variable {P : Heap → Prop} {m m' : Machine Desk}

theorem Touched.lasts {h h' : Heap} (touched : h.Touched h') (lasting : Lasting P) (there : P h) :
    P h' := by
  cases touched with
  | same => exact there
  | addForeign classId payload => exact lasting.addForeign there classId payload
  | setField id name v => exact lasting.setField there id name v

theorem twice_ended {x : Run Desk Value}
    (kept : ∀ r m', x.run m = .ok r m' → P m'.heap) :
    (twice P).Ended .id ((twice P).Settled .alike) (x.run m) (x.run m) := by
  cases ran : x.run m with
  | error h m' => exact .halt le_rfl ⟨rfl, rfl, trivial⟩
  | ok r m' =>
    have after := kept r m' ran
    cases r with
    | ok v => exact .ok le_rfl (.ok ⟨rfl, rfl, after⟩ (Value.alike_refl v))
    | error e => exact .ok le_rfl (.fault ⟨rfl, rfl, after⟩)

/-- What ran twice leaves a heap with the property. -/
theorem twice_settled {α β : Type} {Q : Results α β} {r : Except RuntimeError α}
    {s : Except RuntimeError β} {ρ : Renaming} {n : Machine Desk}
    (settled : (twice P).Settled Q ρ r m s n) : P m.heap := by
  cases settled with
  | ok going _ => exact going.2.2
  | fault going => exact going.2.2

/-- A part of an activation that runs twice alike leaves a heap with the property. -/
theorem twice_script {α : Type} {Q : Results α α} {x : Script Desk α} {f f' : Frame}
    (alike : ScriptSim (twice P) .id f.moduleName Q x x) {r : Except RuntimeError α}
    (there : P m.heap) (ran : x.run.run f m = .ok (r, f') m') : P m'.heap := by
  have ended := alike f f m m f.alike_refl ⟨rfl, rfl, there⟩
  rw [ran] at ended
  obtain ⟨-, -, settled⟩ := ended
  exact twice_settled settled

namespace Lasting

theorem declaring (lasting : Lasting P) (host : Host Desk) :
    (Shadow.ofHeap P).Declaring host host where
  asked _ := fun _ => rfl
  known there := fun _ _ _ => there
  unknown there := fun _ _ => there
  classes there := fun _ _ => ⟨rfl, there⟩
  unknownClass there := fun _ _ => there
  halt _ := trivial
  addClass there := fun c => lasting.addClass there c

/-- The laws of the interpreter, for a host whose functions keep to the property. -/
theorem nesting (lasting : Lasting P) {host : Host Desk}
    (served : ∀ {e}, Engine.Alike (twice P) host host e e → ∀ f {m m' : Machine Desk},
      P m.heap → host.run f e m = .ok () m' → P m'.heap) :
    (Shadow.ofHeap P).Nesting host host where
  bodies _ := fun _ _ _ _ => trivial
  define there := fun _ _ _ => there
  openModule there := fun _ => there
  append _ := fun there id v => lasting.append there id v
  setField there := fun id name v => lasting.setField there id name v
  addList there := fun items => lasting.addList there items
  addInstance there := fun classId => lasting.addInstance there classId
  write there := fun _ => ⟨rfl, there⟩
  report there := fun _ => ⟨rfl, there⟩
  load there := fun _ => ⟨⟨rfl, there⟩, fun _ _ _ _ _ _ => trivial⟩
  defineClass callbacks₁ callbacks₂ := fun there moduleName decl _ =>
    (lasting.declaring host).defineClass_sim callbacks₁ callbacks₂ moduleName decl _ _
      ⟨rfl, rfl, there⟩
  callForeign engines := fun there v vs _ f _ => called engines there f v vs
  allocate engines := fun there a _ vs f _ _ => called engines there f (.classObject a) vs
  allocated := .inl fun _ _ _ _ => trivial
  raise there := fun _ => there
  exhaust _ := trivial
  deeper there := there
  shallower there := there
  fault_shallower there := there
  miscount := .inl fun _ => trivial
  engines _ := rfl
where
  called {e₁ e₂ : Engine Desk} (engines : Engine.Alike (twice P) host host e₁ e₂)
      {m : Machine Desk} (there : P m.heap) (f : HostFunction) (v : Value) (vs : List Value) :
      (twice P).Ended .id ((twice P).Settled .alike) ((callForeign host e₁ f v vs).run m)
        ((callForeign host e₂ f v vs).run m) := by
    obtain rfl : e₁ = e₂ := engines.known
    refine twice_ended fun r m' ran => ?_
    rw [callForeign_bind] at ran
    obtain ⟨_, inner, worked, closed⟩ := Live.bind_inv ran
    cases closed
    have after : P inner.heap := served engines f (m := m.windowed v vs) there worked
    exact after

/-! ### Requests -/

open Audit (idle)

/-- Scripts and calls that a host function asks for are run by the interpreter that it was given:
all that counts of the host are its callbacks. -/
theorem driven (lasting : Lasting P) (callbacks : Callbacks Desk) :
    (Shadow.ofHeap P).Driven (idle callbacks) (idle callbacks) where
  toLawful := (lasting.nesting fun _ _ _ _ there ran => by
    cases ran
    exact there).toLawful
  fault_report there := fun _ => ⟨rfl, there⟩
  setSlot there := fun _ _ => there

/-- A script or a call that ended left a heap with the property. -/
theorem of_concluded {x : Live Desk (Except InterpretError Unit)} {r : Except InterpretError Unit}
    (ended : (twice P).Ended .id (twice P).Concluded (x m) (x m)) (ran : x m = .ok r m') :
    P m'.heap := by
  rw [ran] at ended
  obtain ⟨-, ⟨-, -, there⟩ | ⟨-, -, there⟩ | ⟨-, -, there⟩⟩ := ended
  · exact there
  · exact there
  · exact there

variable (callbacks : Callbacks Desk) {e : Engine Desk}

theorem serve_of_engine (lasting : Lasting P)
    (engine : Engine.Alike (twice P) (idle callbacks) (idle callbacks) e e) {r : Request}
    {reply : Reply} (there : P m.heap) (ran : Desk.serve e r m = .ok reply m') : P m'.heap := by
  have going : (twice P).going .id m m := ⟨rfl, rfl, there⟩
  have laws := (lasting.driven callbacks).simulates
  cases kind : r.runsScript with
  | false => exact (Desk.serve_touched kind ran).lasts lasting there
  | true =>
    cases r with
    | interpret moduleName source =>
      obtain ⟨result, n, interpreted, told⟩ := Live.bind_inv ran
      have after : P n.heap := of_concluded (Engine.interpret_sim laws.toReporting engine
        (fun _ _ _ _ => trivial) going fun opened => ⟨rfl, rfl, opened.2.2⟩) interpreted
      cases result <;> cases told <;> exact after
    | call handle =>
      rw [Desk.serve_call] at ran
      cases prepared : m.host.calls.get? handle with
      | none =>
        rw [prepared] at ran
        cases ran
        exact there
      | some signature =>
        rw [prepared] at ran
        obtain ⟨result, n, called, told⟩ := Live.bind_inv ran
        have after : P n.heap := of_concluded (Engine.call_sim laws engine signature going) called
        cases result <;> cases told <;> exact after
    | _ => cases kind

/-- A dialogue keeps to the property, request by request. -/
theorem hold_of_engine (lasting : Lasting P)
    (engine : Engine.Alike (twice P) (idle callbacks) (idle callbacks) e e) (d : Dialogue)
    {m m' : Machine Desk} (there : P m.heap) (ran : d.hold (Desk.serve e) m = .ok () m') :
    P m'.heap := by
  induction d generalizing m with
  | done =>
    cases ran
    exact there
  | ask r next ih =>
    obtain ⟨reply, n, served, later⟩ := Live.bind_inv ran
    exact ih reply (lasting.serve_of_engine callbacks engine there served) later
  | note change next ih => exact ih (change m.host) (m := ⟨m.heap, m.vm, change m.host⟩) there ran

/-! ### Programs of all sorts -/

section Conduct

variable (c : Conduct)

theorem conduct_nesting (lasting : Lasting P) : (Shadow.ofHeap P).Nesting c.host c.host :=
  lasting.nesting fun engine f _ _ there ran =>
    lasting.hold_of_engine c.callbacks { engine with } (c.dialogue f) there ran

theorem conduct_engine (lasting : Lasting P) (depth : Nat) :
    Engine.Alike (twice P) c.host c.host (c.host.engine depth) (c.host.engine depth) :=
  engine_alike (lasting.conduct_nesting c).simulates depth

variable (depth : Nat)

theorem serve (lasting : Lasting P) {r : Request} {reply : Reply} (there : P m.heap)
    (ran : Desk.serve (c.host.engine depth) r m = .ok reply m') : P m'.heap :=
  lasting.serve_of_engine c.callbacks { lasting.conduct_engine c depth with } there
    ran

theorem hold (lasting : Lasting P) (d : Dialogue) (there : P m.heap)
    (ran : d.hold (Desk.serve (c.host.engine depth)) m = .ok () m') : P m'.heap :=
  lasting.hold_of_engine c.callbacks { lasting.conduct_engine c depth with } d there
    ran

theorem callScript (lasting : Lasting P) (decl : MethodDecl) (v : Value) (vs : List Value)
    {r : Except RuntimeError Value} (there : P m.heap)
    (ran : (ScriptHost.callScript (c.host.engine depth) decl v vs).run m = .ok r m') :
    P m'.heap := by
  have going : (twice P).going .id m m := ⟨rfl, rfl, there⟩
  have written : ∀ d ∈ decl.declarations, (twice P).written (m.moduleOf v) d := fun _ _ => trivial
  have arguments : Value.AllAlike .id vs vs := Value.allAlike_id.mpr rfl
  have ended := callScript_sim (lasting.conduct_nesting c).simulates.toLawful
    (lasting.conduct_engine c depth) going (Value.alike_refl v) arguments written
  rw [ran] at ended
  obtain ⟨-, settled⟩ := ended
  exact twice_settled settled

end Conduct
end Lasting
end Heap
end ScriptHost
