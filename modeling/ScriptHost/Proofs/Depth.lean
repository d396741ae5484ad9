import ScriptHost.Proofs.Binding.Dispatch
import ScriptHost.Proofs.Depth.Audit
import ScriptHost.Proofs.Depth.Requests
import ScriptHost.Proofs.Simulation.Invocation

/-! The count of running methods. It is at every moment the number of methods and constructors of
scripts that are running inside each other; it never passes the limit, a method is refused exactly
when the limit is reached, and after a script or a call it is what it was before. The one thing that
upsets it is a script run by a host function from within a method, which starts the count anew. -/

namespace ScriptHost

/-! ### Refusals

A method or constructor of a script may not start while as many are running as may. What it comes to
then is a fault with no activation on its trace; nothing that goes wrong inside a method looks like
that, as it leaves the method by its activation. -/

section Refusals

variable {H α : Type} {host : Host H} {engine : Engine H} {m m' : Machine H}

/-- What a method comes to that may not start. Had the fault come from inside the method, it would
have passed through its activation. -/
def RuntimeError.refusal : RuntimeError := ⟨.tooDeep, []⟩

theorem activate_fault {frame : Frame} {act : Script H α} {e : RuntimeError}
    (failed : (Script.activate frame act).run m = .ok (.error e) m') : e.trace ≠ [] := by
  obtain ⟨⟨_ | _, _⟩, _, -, failed⟩ := Live.bind_inv (x := act.run.run frame) failed
  · cases failed
    exact List.append_ne_nil_of_right_ne_nil _ (List.cons_ne_nil _ _)
  · cases failed

theorem callScript_fault {decl : MethodDecl} {receiver : Value} {args : List Value}
    {e : RuntimeError} (failed : (callScript engine decl receiver args).run m = .ok (.error e) m') :
    e.trace ≠ [] := by
  obtain failed | ⟨flow, n, -, failed⟩ :=
    Run.bind_fault (x := Script.activate _ (execAll engine (decl.body.getD [])))
      (m := m.onVm (·.openModule _)) failed
  · exact activate_fault failed
  · cases flow <;> cases failed

theorem callForeign_fault {f : HostFunction} {receiver : Value} {args : List Value}
    {e : RuntimeError}
    (failed : (callForeign host engine f receiver args).run m = .ok (.error e) m') :
    ∃ message, e.fault = .aborted message := by
  rw [callForeign_bind] at failed
  obtain ⟨_, n, -, failed⟩ := Live.bind_inv failed
  unfold Vm.verdict at failed
  cases asked : n.vm.abort with
  | some message =>
    rw [asked] at failed
    cases failed
    exact ⟨message, rfl⟩
  | none =>
    rw [asked] at failed
    cases failed

theorem newObject_fault {classId : ClassId} {c : ClassObject} {args : List Value}
    {e : RuntimeError} (failed : (newObject host engine classId c args).run m = .ok (.error e) m') :
    e.fault ≠ .tooDeep := by
  unfold newObject at failed
  by_cases isForeign : c.isForeign = true
  · rw [if_pos isForeign] at failed
    cases allocator : c.binding.allocate with
    | none =>
      rw [allocator] at failed
      cases failed
      nofun
    | some f =>
      rw [allocator] at failed
      obtain failed | ⟨v, n, -, failed⟩ := Run.bind_fault failed
      · obtain ⟨message, same⟩ := callForeign_fault failed
        rw [same]
        nofun
      · cases v <;> cases failed <;> nofun
  · rw [if_neg isForeign] at failed
    cases failed

theorem construct_fault {classId : ClassId} {decl : MethodDecl} {args : List Value}
    {e : RuntimeError}
    (failed : (construct host engine classId decl args).run m = .ok (.error e) m') :
    e ≠ .refusal := by
  rintro rfl
  rw [construct_run] at failed
  cases found : m.heap.class? classId with
  | none =>
    rw [found] at failed
    cases failed
  | some c =>
    rw [found] at failed
    obtain failed | ⟨object, n, -, failed⟩ := Run.bind_fault failed
    · exact newObject_fault failed rfl
    · obtain failed | ⟨_, _, -, failed⟩ := Run.bind_fault failed
      · exact callScript_fault failed rfl
      · cases failed

/-- What never comes to a refusal by itself comes to one exactly at the limit, where nothing is
run. -/
theorem nested_refused {act : Run H α} (own : ∀ n n', act.run n ≠ .ok (.error .refusal) n') :
    (nested act).run m = .ok (.error .refusal) m' ↔ depthLimit ≤ m.vm.depth ∧ m' = m := by
  by_cases deep : depthLimit ≤ m.vm.depth
  · rw [nested_run_deep act deep]
    refine ⟨fun h => ?_, fun h => ?_⟩
    · cases h
      exact ⟨deep, rfl⟩
    · rw [h.2]
      rfl
  -- Below the limit the method is run, and what it comes to is what its body came to.
  · refine ⟨fun h => ?_, fun h => absurd h.1 deep⟩
    obtain ⟨n, ran, -, -⟩ := nested_inv deep h
    exact absurd ran (own _ n)

/-- A value answers a signature with a method of a script, or a class does with a constructor. -/
inductive Machine.Scripted (m : Machine H) : Value → String → Prop
  | method {receiver signature decl} :
    m.method? receiver signature = some (.script decl) → m.Scripted receiver signature
  | constructor {classId signature decl} :
    m.method? (.classObject classId) signature = some (.constructor decl) →
    m.Scripted (.classObject classId) signature

/-- A method or constructor of a script is refused exactly if as many are running as may. -/
theorem invoke_refused {receiver : Value} {signature : String} (args : List Value)
    (scripted : m.Scripted receiver signature) :
    (invoke host engine receiver signature args).run m = .ok (.error .refusal) m' ↔
      depthLimit ≤ m.vm.depth ∧ m' = m := by
  cases scripted with
  | @method _ _ decl found =>
    rw [invoke_run, found]
    exact nested_refused fun _ _ failed => callScript_fault failed rfl
  | @constructor classId _ decl found =>
    rw [invoke_run, found]
    exact nested_refused fun _ _ failed => construct_fault failed rfl

example : RuntimeError.refusal.fault.message = "Stack overflow." := rfl

end Refusals

/-! ### Watched hosts -/

def Request.isInterpret : Request → Bool
  | interpret .. => true
  | _ => false

/-- A request answered inside so many running methods, with the count checked. A script asked for
inside a method ends everything, with a text. -/
def Desk.serveWatched (reentry slip : String) (running : Nat) (engine : Engine Desk) (r : Request) :
    DeskRun Reply :=
  if r.isInterpret ∧ running ≠ 0 then throw (.panic reentry)
  else Audit.checked slip running (Desk.serve engine r)

/-- A program's host, watched at every request of its functions. -/
def Conduct.watched (c : Conduct) (reentry slip : String) (running : Nat) : Host Desk :=
  c.hostBy (Desk.serveWatched reentry slip running)

namespace Audit

/-- How a watched run may stop by itself. -/
def Reentered (reentry : String) (h : Halt) : Prop := h = .panic reentry

variable {stops : Halt → Prop} {running : Nat} {reentry slip : String} {e₁ e₂ : Engine Desk}
  {host₁ host₂ : Host Desk} {ρ : Renaming}

/-- A host with the callbacks of another, whose functions do nothing. -/
def idle (callbacks : Callbacks Desk) : Host Desk := ⟨callbacks, fun _ _ => return ()⟩

/-- As far as scripts and calls go that a host function asks for, all that counts of the host are
its callbacks: its functions are run by the interpreter that the host function was given. -/
theorem driven_idle (callbacks : Callbacks Desk) (within : running ≤ depthLimit) :
    (shadow Desk stops running).Driven (idle callbacks) (idle callbacks) where
  toLawful :=
    have supervised : Supervised stops (idle callbacks) fun _ => idle callbacks :=
      ⟨fun _ => rfl, fun _ => fun _ _ => LiveSim.pure (P := .same) rfl⟩
    supervised.lawful within
  fault_report h := fun _ => ⟨rfl, h⟩
  setSlot h := fun _ _ => h

theorem alike_idle
    (engines : Engine.Alike (shadow Desk stops running).simulation host₁ host₂ e₁ e₂)
    (callbacks : host₂.callbacks = host₁.callbacks) :
    Engine.Alike (shadow Desk stops running).simulation (idle host₁.callbacks)
      (idle host₁.callbacks) e₁ e₂ :=
  { engines with callbacks₂ := engines.callbacks₂.trans callbacks }

/-! ### Requests -/

/-- What is said of a reply: both runs give it, and the count is what it was. -/
private abbrev Served (stops : Halt → Prop) (running : Nat) :
    EStateM.Result Halt (Machine Desk) Reply → EStateM.Result Halt (Machine Desk) Reply → Prop :=
  (shadow Desk stops running).simulation.Ended .id fun σ a m b n =>
    (shadow Desk stops running).simulation.going σ m n ∧ a = b

theorem interpret_ended {callbacks : Callbacks Desk} {m : Machine Desk}
    (engines : Engine.Alike (shadow Desk stops 0).simulation (idle callbacks) (idle callbacks)
      e₁ e₂) (counted : m.vm.depth = 0) (moduleName source : String) :
    (shadow Desk stops 0).simulation.Ended .id (shadow Desk stops 0).simulation.Concluded
      (e₁.interpret moduleName source m) (e₂.interpret moduleName source m) :=
  Engine.interpret_sim (driven_idle callbacks (Nat.zero_le _)).simulates.toReporting engines
    (fun _ _ _ _ => trivial) ⟨rfl, rfl, counted⟩ fun _ => ⟨rfl, rfl, rfl⟩

theorem call_ended {callbacks : Callbacks Desk} {m : Machine Desk}
    (engines : Engine.Alike (shadow Desk stops running).simulation (idle callbacks)
      (idle callbacks) e₁ e₂) (counted : m.vm.depth = running) (within : running ≤ depthLimit)
    (signature : String) :
    (shadow Desk stops running).simulation.Ended .id
      (shadow Desk stops running).simulation.Concluded (e₁.call signature m)
      (e₂.call signature m) :=
  Engine.call_sim (driven_idle callbacks within).simulates engines signature ⟨rfl, rfl, counted⟩

theorem serve_ended {callbacks : Callbacks Desk} {m : Machine Desk}
    (engines : Engine.Alike (shadow Desk stops running).simulation (idle callbacks)
      (idle callbacks) e₁ e₂) (counted : m.vm.depth = running) (within : running ≤ depthLimit)
    {r : Request} (outside : r.isInterpret → running = 0) :
    Served stops running (Desk.serve e₁ r m) (Desk.serve e₂ r m) := by
  cases kind : r.runsScript with
  | false =>
    obtain ⟨a, m', served₁, served₂, beyond⟩ := Desk.serve_atOnce e₁ e₂ m kind
    rw [served₁, served₂]
    exact .ok le_rfl ⟨⟨rfl, rfl, beyond.depth.trans counted⟩, rfl⟩
  | true =>
    cases r with
    | interpret moduleName source =>
      obtain rfl := outside rfl
      refine (interpret_ended engines counted moduleName source).bind ?_
      rintro σ _ m _ n - (hmn | hmn | hmn) <;> exact .ok le_rfl ⟨hmn, rfl⟩
    | call handle =>
      rw [Desk.serve_call, Desk.serve_call]
      cases m.host.calls.get? handle with
      | none => exact .ok le_rfl ⟨⟨rfl, rfl, counted⟩, rfl⟩
      | some signature =>
        refine (call_ended engines counted within signature).bind ?_
        rintro σ _ m _ n - (⟨rfl, rfl, hm⟩ | ⟨rfl, rfl, hm⟩ | ⟨rfl, rfl, hm⟩) <;>
          exact .ok le_rfl ⟨⟨rfl, rfl, hm⟩, rfl⟩
    | _ => cases kind

theorem serve_sim {callbacks : Callbacks Desk} (stopped : ∀ h, Reentered reentry h → stops h)
    (engines : Engine.Alike (shadow Desk stops running).simulation (idle callbacks)
      (idle callbacks) e₁ e₂) (within : running ≤ depthLimit) (r : Request) :
    LiveSim (shadow Desk stops running).simulation ρ .same (Desk.serve e₁ r)
      (Desk.serveWatched reentry slip running e₂ r) := by
  rintro m _ ⟨rfl, rfl, counted⟩
  change Simulation.Ended _ _ _ _ (Desk.serveWatched reentry slip running e₂ r m)
  unfold Desk.serveWatched
  by_cases inside : r.isInterpret ∧ running ≠ 0
  · rw [if_pos inside]
    exact .stopped (stopped _ rfl)
  -- Otherwise the request is served within the method that asked for it.
  · rw [if_neg inside]
    refine checked_ended (serve_ended engines counted within fun h => ?_) counted within ?_
    · exact not_not.mp fun outside => inside ⟨h, outside⟩
    · rintro σ _ _ _ _ ⟨⟨-, rfl, counted'⟩, -⟩
      exact counted'

theorem hold_sim {callbacks : Callbacks Desk} (stopped : ∀ h, Reentered reentry h → stops h)
    (engines : Engine.Alike (shadow Desk stops running).simulation (idle callbacks)
      (idle callbacks) e₁ e₂) (within : running ≤ depthLimit) (d : Dialogue) :
    LiveSim (shadow Desk stops running).simulation ρ .same (d.hold (Desk.serve e₁))
      (d.hold (Desk.serveWatched reentry slip running e₂)) := by
  induction d generalizing ρ with
  | done => exact .pure rfl
  | ask r next ih =>
    refine (serve_sim stopped engines within r).bind ?_
    rintro σ reply _ - rfl
    exact ih reply
  | note change next ih =>
    refine LiveSim.bind (P := .same) (.modify ?_) fun _ _ => .get_bind ?_
    · rintro m _ ⟨rfl, rfl, counted⟩
      exact ⟨rfl, rfl, counted⟩
    · rintro m _ ⟨rfl, rfl, counted⟩
      exact ih m.host m m ⟨rfl, rfl, counted⟩

theorem watched_supervised (c : Conduct) (reentry slip : String) :
    Supervised (Reentered reentry) c.host (c.watched reentry slip) where
  callbacks _ := rfl
  run within := fun engines f =>
    hold_sim (fun _ => id) (alike_idle engines rfl) within (c.dialogue f)

end Audit

/-! ### The count -/

/-- What an audit finds out about a run that so many methods are around: it gave up, because a
script was run inside a method; or it came to what the run came to, which left the count as it was.
-/
inductive Audited (reentry : String) (running : Nat) {α : Type}
    (plain : EStateM.Result Halt (Machine Desk) α) :
    EStateM.Result Halt (Machine Desk) α → Prop
  | reentered {m} : Audited reentry running plain (.error (.panic reentry) m)
  | accounted : (∀ a m, plain = .ok a m → m.vm.depth = running) →
    Audited reentry running plain plain

namespace Audited

open Audit

variable {reentry : String} {running : Nat} {α : Type}
  {plain audited : EStateM.Result Halt (Machine Desk) α}

theorem of_ended {Q : Renaming → α → Machine Desk → α → Machine Desk → Prop}
    (h : (shadow Desk (Reentered reentry) running).simulation.Ended .id Q plain audited)
    (same : ∀ {σ a m b n}, Q σ a m b n → b = a ∧ n = m ∧ m.vm.depth = running) :
    Audited reentry running plain audited := by
  obtain ⟨le, hQ⟩ | ⟨le, rfl, rfl, -⟩ | rfl := h
  · obtain ⟨rfl, rfl, counted⟩ := same hQ
    refine .accounted ?_
    rintro a m ⟨⟩
    exact counted
  · exact .accounted nofun
  · exact .reentered

theorem of_run {x y : Run Desk Value} {m : Machine Desk} (counted : m.vm.depth = running)
    (h : RunSim (shadow Desk (Reentered reentry) running).simulation .id .alike x y) :
    Audited reentry running (x.run m) (y.run m) := by
  refine of_ended (h m m ⟨rfl, rfl, counted⟩) ?_
  rintro σ _ m _ n (⟨⟨rfl, rfl, after⟩, hvw⟩ | ⟨rfl, rfl, after⟩)
  · exact ⟨congrArg Except.ok (Value.alike_id.mp hvw).symm, rfl, after⟩
  · exact ⟨rfl, rfl, after⟩

theorem of_concluded
    {plain audited : EStateM.Result Halt (Machine Desk) (Except InterpretError Unit)}
    (h : (shadow Desk (Reentered reentry) running).simulation.Ended .id
      (shadow Desk (Reentered reentry) running).simulation.Concluded plain audited) :
    Audited reentry running plain audited := by
  refine of_ended h ?_
  rintro σ _ m _ n (⟨rfl, rfl, after⟩ | ⟨rfl, rfl, after⟩ | ⟨rfl, rfl, after⟩) <;>
    exact ⟨rfl, rfl, after⟩

end Audited

/-- Inside `running` methods and constructors of scripts, whatever the host functions do: all that
scripts and the host do is as the audit has it, which keeps its own book of what is running and
compares it with the count at every turn; a method or constructor is refused exactly if a hundred
and twenty-eight are running; and messages, calls, scripts and whole programs of the host leave the
count at `running`, with a result as with an error. A script may be run outside all methods only. -/
theorem depth_counts_running_methods (c : Conduct) (reentry slip : String) (fuel running : Nat)
    (m : Machine Desk) (counted : m.vm.depth = running) (within : running ≤ depthLimit) :
    (∀ action, Audited reentry running ((c.host.perform fuel action).run m)
      ((Audit.perform (c.watched reentry slip) slip fuel running action).run m)) ∧
    (∀ receiver signature args m', m.Scripted receiver signature →
      ((invoke c.host (c.host.engine fuel) receiver signature args).run m =
        .ok (.error .refusal) m' ↔ running = 128 ∧ m' = m)) ∧
    (∀ signature, Audited reentry running ((c.host.engine fuel).call signature m)
      ((Audit.engine (c.watched reentry slip) slip fuel running).call signature m)) ∧
    (running = 0 → ∀ moduleName source,
      Audited reentry running ((c.host.engine fuel).interpret moduleName source m)
        ((Audit.engine (c.watched reentry slip) slip fuel running).interpret moduleName source m)) ∧
    (∀ d : Dialogue, Audited reentry running (d.hold (Desk.serve (c.host.engine fuel)) m)
      (d.hold (Desk.serveWatched reentry slip running
        (Audit.engine (c.watched reentry slip) slip fuel running)) m)) := by
  have engines := (Audit.watched_supervised c reentry slip).alike slip fuel running within
  have idle := Audit.alike_idle engines rfl
  refine ⟨fun action => ?_, fun receiver signature args m' scripted => ?_, fun signature => ?_, ?_,
    fun d => ?_⟩
  · exact .of_run counted (engines.perform action.alike_refl)
  · rw [invoke_refused args scripted, counted]
    exact and_congr_left fun _ => ⟨Nat.le_antisymm within, Nat.le_of_eq ∘ Eq.symm⟩
  · exact .of_concluded (Audit.call_ended idle counted within signature)
  · rintro rfl moduleName source
    exact .of_concluded (Audit.interpret_ended idle counted moduleName source)
  · refine .of_ended (Audit.hold_sim (fun _ => id) idle within d m m ⟨rfl, rfl, counted⟩) ?_
    rintro σ _ m _ n ⟨⟨rfl, rfl, after⟩, rfl⟩
    exact ⟨rfl, rfl, after⟩

/-- A program that runs a script and then calls a method of it, on a machine of its own. -/
theorem depth_counts_running_methods_fresh :
    (Machine.fresh Desk.empty).vm.depth = 0 ∧ 0 ≤ depthLimit ∧
    Audited "script inside a method" 0
      ((Dialogue.ofRequests [.interpret "main" "class A { static f() { A.f() } }",
        .readVariable "main" "A" 0, .prepareCall "f()" "f", .call "f"]).hold
        (Desk.serve ((Plan.conduct ⟨[], [], [], ⟨true, true, true, true, true⟩⟩).host.engine
          unreachedDepth)) (Machine.fresh Desk.empty))
      ((Dialogue.ofRequests [.interpret "main" "class A { static f() { A.f() } }",
        .readVariable "main" "A" 0, .prepareCall "f()" "f", .call "f"]).hold
        (Desk.serveWatched "script inside a method" "wrong count" 0
          (Audit.engine ((Plan.conduct ⟨[], [], [], ⟨true, true, true, true, true⟩⟩).watched
            "script inside a method" "wrong count") "wrong count" unreachedDepth 0))
        (Machine.fresh Desk.empty)) :=
  ⟨rfl, Nat.zero_le _, (depth_counts_running_methods _ _ _ _ 0 _ rfl (Nat.zero_le _)).2.2.2.2 _⟩

end ScriptHost
