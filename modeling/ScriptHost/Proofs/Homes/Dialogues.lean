import ScriptHost.Proofs.Depth.Requests
import ScriptHost.Proofs.Homes.Sessions

/-! Dialogues with a diary. Host functions that talk to their machine in requests, and may run
scripts and call methods with them, are talks: a request that runs no script is work that leaves
lists and classes alone. -/

namespace ScriptHost

/-- A look at the machine, and what follows. -/
theorem Live.reading_bind {H α β : Type} (f : Machine H → α) (next : α → Live H β)
    (m : Machine H) : ((f <$> get) >>= next) m = next (f m) m := rfl

namespace Desk

variable {e : Engine Desk} {m : Machine Desk}

/-- Work that starts by looking for a handle. -/
private theorem rests_handle {name : String} {next : Option Value → DeskRun Reply}
    (h : m.Rests (Live.machine (next (m.host.handles.get? name) m))) :
    m.Rests (Live.machine ((handle? name >>= next) m)) := h

/-- A request that runs no script leaves lists and classes alone. -/
theorem serve_gentle {r : Request} (plain : r.runsScript = false) : Live.Gentle (serve e r) := by
  intro m
  cases r with
  | interpret => cases plain
  | call => cases plain
  | slotCount | slotType | showSlots | look | userData | unknown => exact .refl m
  | ensureSlots | setNull | setBool | setNumber | setString | abort | prepareCall | setUserData =>
    exact ⟨rfl, rfl, rfl⟩
  | newForeign slot classSlot payload =>
    refine .get_bind ?_
    cases made : m.newForeign? slot classSlot (.u64 (payload.getD 0)) with
    | none => exact .refl m
    | some result => exact .newForeign made
  | takeHandle slot handle =>
    refine .get_bind ?_
    cases m.vm.slot? slot <;> exact ⟨rfl, rfl, rfl⟩
  | putHandle slot handle =>
    refine rests_handle ?_
    cases m.host.handles.get? handle <;> exact ⟨rfl, rfl, rfl⟩
  | showHandle handle =>
    refine .get_bind (rests_handle ?_)
    cases m.host.handles.get? handle <;> exact .refl m
  | compare a b =>
    refine rests_handle (rests_handle ?_)
    cases m.host.handles.get? a <;> cases m.host.handles.get? b <;> exact .refl m
  | readField handle name =>
    refine .get_bind (rests_handle ?_)
    rcases m.host.handles.get? handle with _ | _ | _ <;> exact .refl m
  | writeField handle name value =>
    refine rests_handle (rests_handle ?_)
    rcases m.host.handles.get? handle with _ | _ | _ <;>
      cases m.host.handles.get? value <;> exact ⟨rfl, rfl, rfl⟩
  | findMethod handle signature =>
    refine .get_bind (rests_handle ?_)
    cases m.host.handles.get? handle with
    | none => exact .refl m
    | some v =>
      cases v with
      | classObject id =>
        dsimp only
        cases m.heap.class? id <;> exact .refl m
      | _ => exact .refl m
  | readVariable moduleName name slot =>
    refine .get_bind ?_
    unfold Vm.readVariable?
    cases m.vm.binding? moduleName name <;> exact ⟨rfl, rfl, rfl⟩
  | countUserData =>
    have counting : Live.Gentle (onDesk fun d => { d with userData := counted d.userData }) :=
      .modify fun _ => ⟨rfl, rfl, rfl⟩
    refine counting.bind (fun _ m => .get_bind ?_) m
    rcases m.host.userData with _ | _ | _ <;> exact .refl m
  | decode slot kind =>
    refine .get_bind ?_
    cases m.decode slot kind <;> exact .refl m
  | decodeArguments params =>
    refine .get_bind ?_
    cases m.decodeArguments params <;> exact .refl m
  | encode slot value =>
    refine .get_bind ?_
    unfold Machine.encode
    cases value.toValue slot <;> exact ⟨rfl, rfl, rfl⟩
  | recode slot kind =>
    refine .get_bind ?_
    unfold Machine.encode
    cases m.decode slot kind with
    | error f => exact .refl m
    | ok value =>
      dsimp only [Except.bind]
      cases value.toValue slot <;> exact ⟨rfl, rfl, rfl⟩
  | dispatch params returns body =>
    have dispatching : Live.Gentle (modifyGet
        ((Routine.described params returns body).dispatch fun _ d => d).run : DeskRun _) :=
      Machine.Rests.dispatch (fun _ d => d) _
    refine dispatching.bind (fun result => ?_) m
    cases result <;> exact .refl

theorem outcome_gentle {onOk : DeskRun Reply} (gentle : Live.Gentle onOk)
    (result : Except InterpretError Unit) : Live.Gentle (outcome onOk result) := by
  cases result with
  | ok => exact gentle
  | error e => exact .refl

end Desk

/-! ### Talks -/

/-- A request as a talk. No script is run for most, so that any engine does to answer them. -/
def Request.talk (engine : Engine Desk) : Request → Talk Desk Reply
  | .interpret moduleName source => do
    .only (Desk.outcome (return .done) (← .interpret moduleName source .done))
  | .call handle => do
    match ← .only ((·.host.calls.get? handle) <$> get) with
    | some signature =>
      let result ← .call signature .done
      .only do
        let m ← get
        Desk.outcome (return .called (m.heap.view (m.vm.slots.headD .null))) result
    | none => return .none
  | r => .only (Desk.serve engine r)

/-- A dialogue as a talk. -/
def Dialogue.talk (engine : Engine Desk) : Dialogue → Talk Desk Unit
  | done => return ()
  | ask r next => do (next (← r.talk engine)).talk engine
  | note change next => do
    .only (Desk.onDesk change)
    (next (← .only ((·.host) <$> get))).talk engine

section

variable (e e' : Engine Desk)

theorem Request.talk_atOnce {r : Request} (plain : r.runsScript = false) :
    r.talk e = .only (Desk.serve e r) := by
  cases r with
  | interpret => cases plain
  | call => cases plain
  | _ => rfl

theorem Request.talk_run (r : Request) : (r.talk e).run e' = Desk.serve e' r := by
  cases plain : r.runsScript with
  | false =>
    rw [talk_atOnce e plain, Talk.run_only]
    funext m
    obtain ⟨a, n, own, other, -⟩ := Desk.serve_atOnce e e' m plain
    rw [own, other]
  | true =>
    cases r with
    | interpret moduleName source =>
      unfold talk
      simp only [Talk.run_bind, Talk.run_interpret, Talk.run_only]
      rfl
    | call handle =>
      funext m
      rw [Desk.serve_call]
      unfold talk
      rw [Talk.run_bind, Talk.run_only, Live.reading_bind]
      cases m.host.calls.get? handle with
      | none => rfl
      | some signature => simp only [Talk.run_bind, Talk.run_call, Talk.run_only]
    | _ => cases plain

theorem Request.talk_gentle (r : Request) : (r.talk e).Gentle := by
  cases plain : r.runsScript with
  | false =>
    rw [talk_atOnce e plain]
    exact Talk.gentle_only (Desk.serve_gentle plain)
  | true =>
    cases r with
    | interpret moduleName source =>
      refine Talk.gentle_bind (fun _ => trivial) fun result => Talk.gentle_only ?_
      exact Desk.outcome_gentle (.pure _) result
    | call handle =>
      refine Talk.gentle_bind (Talk.gentle_only (Live.Gentle.reading _)) fun found => ?_
      cases found with
      | none => trivial
      | some signature =>
        refine Talk.gentle_bind (fun _ => trivial) fun result =>
          Talk.gentle_only fun m => .get_bind ?_
        exact Desk.outcome_gentle (.pure _) result m
    | _ => cases plain

theorem Dialogue.talk_run (d : Dialogue) : (d.talk e).run e' = d.hold (Desk.serve e') := by
  induction d with
  | done => rfl
  | ask r next ih =>
    unfold talk hold
    rw [Talk.run_bind, Request.talk_run]
    exact bind_congr ih
  | note change next ih =>
    unfold talk hold
    rw [Talk.run_bind, Talk.run_only]
    refine bind_congr fun _ => ?_
    rw [Talk.run_bind, Talk.run_only, bind_map_left]
    exact bind_congr fun m => ih m.host

theorem Dialogue.talk_gentle (d : Dialogue) : (d.talk e).Gentle := by
  induction d with
  | done => trivial
  | ask r next ih => exact Talk.gentle_bind (r.talk_gentle e) ih
  | note change next ih =>
    have changing : Live.Gentle (Desk.onDesk change) := .modify fun _ => ⟨rfl, rfl, rfl⟩
    exact Talk.gentle_bind (Talk.gentle_only changing) fun _ =>
      Talk.gentle_bind (Talk.gentle_only (Live.Gentle.reading _)) ih

end

namespace Conduct

variable (c : Conduct)

/-- The host functions of a program, as talks. -/
def talk (f : HostFunction) : Talk Desk Unit := (c.dialogue f).talk (c.host.engine 0)

theorem talk_host : Talk.host c.callbacks c.talk = c.host := by
  refine congrArg (Host.mk c.callbacks) (funext fun f => funext fun engine => ?_)
  exact (c.dialogue f).talk_run _ engine

end Conduct
end ScriptHost
