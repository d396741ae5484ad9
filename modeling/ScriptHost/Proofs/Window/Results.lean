import ScriptHost.Proofs.Attribution.Calls
import ScriptHost.Proofs.Window
import ScriptHost.Proofs.Window.Unseen

/-! What a host function leaves to the script that called it. The machine keeps a window, a mark on
slot 0 and a request to stop; but what a call comes to can be read off what the host function itself
asked for, in its own window, by looking back from the end: for the last request to stop, and else
for the last value that went to slot 0. -/

namespace ScriptHost

/-! ### What is left in a window -/

namespace Vm

/-- What went to slot 0 since the host function started, if anything did. -/
def left? (vm : Vm) : Option Value := if vm.returnWritten then some (vm.slots.headD .null) else none

theorem verdict_eq (vm : Vm) : vm.verdict =
    match vm.abort with
    | some message => .error ⟨.aborted message, []⟩
    | none => .ok (vm.left?.getD .null) := by
  unfold verdict left?
  cases vm.returnWritten <;> rfl

theorem ensureSlots_headD (vm : Vm) (count : Nat) :
    (vm.ensureSlots count).slots.headD .null = vm.slots.headD .null := by
  unfold ensureSlots
  cases vm.slots with
  | nil => cases count <;> rfl
  | cons v rest => rfl

theorem ensureSlots_left? (vm : Vm) (count : Nat) : (vm.ensureSlots count).left? = vm.left? := by
  unfold left?
  rw [ensureSlots_headD]
  rfl

theorem setSlot_left? (vm : Vm) (slot : Nat) (v : Value) :
    (vm.setSlot slot v).left? = if slot = 0 then some v else vm.left? := by
  cases slot with
  | zero =>
    rw [if_pos rfl]
    unfold left? setSlot ensureSlots
    cases vm.slots <;> simp
  | succ k =>
    have mark : (vm.setSlot (k + 1) v).returnWritten = vm.returnWritten := Bool.or_false _
    have first : (vm.setSlot (k + 1) v).slots.headD .null = vm.slots.headD .null := by
      rw [← vm.ensureSlots_headD (k + 1 + 1)]
      change ((vm.ensureSlots (k + 1 + 1)).slots.set (k + 1) v).headD .null = _
      cases (vm.ensureSlots (k + 1 + 1)).slots <;> rfl
    rw [if_neg (Nat.succ_ne_zero k)]
    unfold left?
    rw [mark, first]

theorem SameWindow.left? {vm w : Vm} (same : vm.SameWindow w) : vm.left? = w.left? := by
  unfold Vm.left?
  rw [same.slots, same.returnWritten]

end Vm

/-- A heap and what a host leaves of it at once: one object more, or one field set, at most. -/
inductive Heap.Touched (h : Heap) : Heap → Prop
  | same : h.Touched h
  | addForeign (classId : ClassId) (payload : Payload) : h.Touched (h.addForeign classId payload).2
  | setField (id : InstanceId) (name : String) (v : Value) : h.Touched (h.setField id name v)

theorem Heap.Touched.of_eq {h h' : Heap} (same : h' = h) : h.Touched h' := same ▸ .same

/-! ### What a request does -/

/-- The value that a message came to, if it came to one. -/
def messageValue? {H : Type} :
    EStateM.Result Halt (Machine H) (Except RuntimeError Value) → Option Value
  | .ok (.ok v) _ => some v
  | _ => none

/-- The result that a routine declares and gives, as a value of scripts. -/
def Outcome.result? (returns : Option Kind) : Outcome → Option Value
  | .value (some w) => returns.bind fun kind =>
    if kind.accepts w then (w.toValue 0).toOption else none
  | _ => none

namespace Request

/-- What a request puts into which slot of the window that it is made in: a value written, an object
created, a variable read, or the value of a call. A request that fails puts nothing. -/
def put? (engine : Engine Desk) (m : Machine Desk) : Request → Option (Nat × Value)
  | .setNull slot => some (slot, .null)
  | .setBool slot b => some (slot, .bool b)
  | .setNumber slot x => some (slot, .number x)
  | .setString slot s => some (slot, .string s)
  | .newForeign slot classSlot _ =>
    (m.slotForeignClass? classSlot).map fun _ => (slot, .foreign m.heap.foreigns.size)
  | .putHandle slot handle => (m.host.handles.get? handle).map (slot, ·)
  | .readVariable moduleName name slot => (m.vm.binding? moduleName name).map (slot, ·)
  | .call handle => (m.host.calls.get? handle).bind fun signature =>
    (messageValue? ((engine.sent signature).run m)).map (0, ·)
  | .encode slot value => (value.toValue slot).toOption.map (slot, ·)
  | .recode slot kind => ((m.decode slot kind).bind (·.toValue slot)).toOption.map (slot, ·)
  | .dispatch params returns body => (m.decodeArguments params).toOption.bind fun args =>
    ((body.outcome args).result? returns).map (0, ·)
  | _ => none

theorem put?_dispatch (engine : Engine Desk) (m : Machine Desk) (params : List Kind)
    (returns : Option Kind) (body : Body) :
    put? engine m (.dispatch params returns body) =
      (m.decodeArguments params).toOption.bind fun args =>
        ((body.outcome args).result? returns).map (0, ·) := rfl

theorem put?_call (engine : Engine Desk) (m : Machine Desk) (handle : String) :
    put? engine m (.call handle) = (m.host.calls.get? handle).bind fun signature =>
      (messageValue? ((engine.sent signature).run m)).map (0, ·) := rfl

/-- The value that a request puts into slot 0. -/
def first? (r : Request) (engine : Engine Desk) (m : Machine Desk) : Option Value :=
  (r.put? engine m).bind fun put => if put.1 = 0 then some put.2 else none

/-- The message with which a request asks the script to stop. -/
def abort? : Request → Option String
  | .abort message => some message
  | _ => none

/-- What is left in the window and the request to stop, after a request: the new one, if there is
one, and else the old. -/
structure Leaves (r : Request) (engine : Engine Desk) (m m' : Machine Desk) : Prop where
  left? : m'.vm.left? = (r.first? engine m).or m.vm.left?
  abort : m'.vm.abort = r.abort?.or m.vm.abort

namespace Leaves

variable {r : Request} {engine : Engine Desk} {m m' : Machine Desk}

/-- A request that puts nothing anywhere, and leaves the window as it is. -/
theorem untouched (put : r.put? engine m = none) (quiet : r.abort? = none)
    (left? : m'.vm.left? = m.vm.left?) (abort : m'.vm.abort = m.vm.abort) :
    r.Leaves engine m m' := by
  refine ⟨?_, ?_⟩
  · unfold first?
    rw [put, left?]
    rfl
  · rw [quiet, abort]
    rfl

/-- A request that puts a value into a slot. -/
theorem written {slot : Nat} {v : Value} (put : r.put? engine m = some (slot, v))
    (quiet : r.abort? = none) {vm : Vm} (window : vm.SameWindow m.vm)
    (set : m'.vm = vm.setSlot slot v) : r.Leaves engine m m' := by
  refine ⟨?_, ?_⟩
  · unfold first?
    rw [put, set, Vm.setSlot_left?, window.left?, Option.bind_some]
    by_cases first : slot = 0
    · rw [if_pos first, if_pos first, Option.some_or]
    · rw [if_neg first, if_neg first, Option.none_or]
  · rw [quiet, set]
    exact window.abort

end Leaves
end Request

theorem Outcome.land_result {H : Type} (returns : Option Kind) (m : Machine H)
    (outcome : Outcome) : (outcome.land returns m).2 =
      match outcome.result? returns with
      | some v => m.onVm (·.setSlot 0 v)
      | none => m := by
  unfold land result? Machine.encodeResult Machine.encode
  cases outcome with
  | fault f => rfl
  | panic message => rfl
  | value v =>
    cases v with
    | none => rfl
    | some w =>
      cases returns with
      | none => rfl
      | some kind =>
        dsimp only [Option.bind]
        cases kind.accepts w with
        | false => rfl
        | true =>
          cases w.toValue 0 <;> rfl

/-! ### Requests that run scripts -/

/-- A message sent gives the window back, with a value as with a fault. -/
theorem Engine.sent_window {H : Type} (host : Host H) (depth : Nat) {signature : String}
    {m m' : Machine H} {r : Except RuntimeError Value}
    (ran : ((host.engine depth).sent signature).run m = .ok r m') : m'.vm.SameWindow m.vm := by
  rw [sent_run] at ran
  cases slots : m.vm.slots with
  | nil =>
    rw [slots] at ran
    cases ran
    exact .refl m.vm
  | cons receiver rest =>
    rw [slots] at ran
    dsimp only at ran
    by_cases enough : signatureArity signature ≤ rest.length
    · rw [if_pos enough] at ran
      cases depth with
      | zero => cases ran
      | succ depth => exact invoke_window host depth ran
    · rw [if_neg enough] at ran
      cases ran
      exact .refl m.vm

theorem Engine.reported_vm {H : Type} (engine : Engine H) (m : Machine H) (rs : List Report) :
    (engine.reported m rs).vm = m.vm := by
  induction rs generalizing m with
  | nil => rfl
  | cons r rest ih => exact ih _

namespace Desk

/-! ### Requests that are answered at once -/

/-- A request that ended with a reply, and left what it should. -/
private def Answered (r : Request) (engine : Engine Desk) (m : Machine Desk)
    (result : EStateM.Result Halt (Machine Desk) Reply) : Prop :=
  ∃ reply m', result = .ok reply m' ∧ r.Leaves engine m m' ∧ m.heap.Touched m'.heap

namespace Answered

variable {r : Request} {engine : Engine Desk} {m : Machine Desk}

private theorem of_get {n : Machine Desk} {f : Machine Desk → DeskRun Reply}
    (h : Answered r engine m (f n n)) : Answered r engine m ((get >>= f) n) := h

private theorem of_desk {change : Desk → Desk} {f : Unit → DeskRun Reply}
    (h : Answered r engine m (f () { m with host := change m.host })) :
    Answered r engine m ((onDesk change >>= f) m) := h

private theorem of_handle {name : String} {f : Option Value → DeskRun Reply}
    (h : Answered r engine m (f (m.host.handles.get? name) m)) :
    Answered r engine m ((handle? name >>= f) m) := h

private theorem untouched {reply : Reply} {host : Desk} (put : r.put? engine m = none)
    (quiet : r.abort? = none) : Answered r engine m (.ok reply ⟨m.heap, m.vm, host⟩) :=
  ⟨reply, _, rfl, .untouched put quiet rfl rfl, .same⟩

private theorem written {reply : Reply} {slot : Nat} {v : Value} {host : Desk}
    (put : r.put? engine m = some (slot, v)) (quiet : r.abort? = none) :
    Answered r engine m (.ok reply ⟨m.heap, m.vm.setSlot slot v, host⟩) :=
  ⟨reply, _, rfl, .written put quiet (.refl m.vm) rfl, .same⟩

end Answered

private theorem dispatch_answered (engine : Engine Desk) (m : Machine Desk) (params : List Kind)
    (returns : Option Kind) (body : Body) :
    Answered (.dispatch params returns body) engine m ((do
      let result ← modifyGet ((Routine.described params returns body).dispatch fun _ d => d).run
      return match result with
        | .ok () => .done
        | .error f => .boundaryFault f : DeskRun Reply) m) := by
  have put (args : List HostValue) (read : m.decodeArguments params = .ok args) :
      Request.put? engine m (.dispatch params returns body) =
        ((body.outcome args).result? returns).map (0, ·) := by
    rw [Request.put?_dispatch, read]
    rfl
  have course := (Routine.described params returns body).dispatch_run (fun _ d => d) m
  refine ⟨_, (((Routine.described params returns body).dispatch fun _ d => d).run m).2, rfl, ?_⟩
  rw [course]
  dsimp only [Routine.described]
  cases read : m.decodeArguments params with
  | error f =>
    refine ⟨.untouched ?_ rfl rfl rfl, .same⟩
    rw [Request.put?_dispatch, read]
    rfl
  | ok args =>
    have landed := Outcome.land_result returns m (body.outcome args)
    cases given : (body.outcome args).result? returns with
    | none =>
      rw [given] at landed
      have same : _ = m := landed
      refine ⟨.untouched ?_ rfl (congrArg (·.vm.left?) same) (congrArg (·.vm.abort) same),
        .of_eq (congrArg Machine.heap same)⟩
      rw [put args read, given]
      rfl
    | some v =>
      rw [given] at landed
      refine ⟨.written ?_ rfl (.refl m.vm) (congrArg Machine.vm landed),
        .of_eq ((congrArg Machine.heap landed).trans rfl)⟩
      rw [put args read, given]
      rfl

private theorem serve_answered (engine : Engine Desk) (m : Machine Desk) {r : Request}
    (plain : r.runsScript = false) : Answered r engine m (serve engine r m) := by
  cases r with
  | interpret => cases plain
  | call => cases plain
  | slotCount | slotType | showSlots | look | userData | unknown | prepareCall | setUserData =>
    exact .untouched rfl rfl
  | setNull | setBool | setNumber | setString => exact .written rfl rfl
  | ensureSlots count =>
    exact ⟨_, _, rfl, .untouched rfl rfl (m.vm.ensureSlots_left? count) rfl, .same⟩
  | abort message => exact ⟨_, _, rfl, ⟨rfl, rfl⟩, .same⟩
  | newForeign slot classSlot payload =>
    refine .of_get ?_
    unfold Machine.newForeign?
    cases found : m.slotForeignClass? classSlot with
    | none => exact .untouched (congrArg (Option.map _) found) rfl
    | some classId =>
      exact ⟨_, _, rfl, .written (congrArg (Option.map _) found) rfl (.refl m.vm) rfl,
        .addForeign classId _⟩
  | takeHandle slot handle =>
    refine .of_get ?_
    cases m.vm.slot? slot <;> exact .untouched rfl rfl
  | putHandle slot handle =>
    refine .of_handle ?_
    cases found : m.host.handles.get? handle with
    | none => exact .untouched (congrArg (Option.map _) found) rfl
    | some v => exact .written (congrArg (Option.map _) found) rfl
  | showHandle handle =>
    refine .of_get (.of_handle ?_)
    cases m.host.handles.get? handle <;> exact .untouched rfl rfl
  | compare a b =>
    refine .of_handle (.of_handle ?_)
    cases m.host.handles.get? a <;> cases m.host.handles.get? b <;> exact .untouched rfl rfl
  | readField handle name =>
    refine .of_get (.of_handle ?_)
    rcases m.host.handles.get? handle with _ | _ | _ <;> exact .untouched rfl rfl
  | writeField handle name value =>
    refine .of_handle (.of_handle ?_)
    rcases m.host.handles.get? handle with _ | object <;>
      rcases m.host.handles.get? value with _ | v
    · exact .untouched rfl rfl
    · exact .untouched rfl rfl
    · cases object <;> exact .untouched rfl rfl
    · cases object with
      | object id => exact ⟨_, _, rfl, .untouched rfl rfl rfl rfl, .setField id name v⟩
      | _ => exact .untouched rfl rfl
  | findMethod handle signature =>
    refine .of_get (.of_handle ?_)
    cases m.host.handles.get? handle with
    | none => exact .untouched rfl rfl
    | some v =>
      cases v with
      | classObject id =>
        dsimp only
        cases m.heap.class? id <;> exact .untouched rfl rfl
      | _ => exact .untouched rfl rfl
  | readVariable moduleName name slot =>
    refine .of_get ?_
    unfold Vm.readVariable?
    cases found : m.vm.binding? moduleName name with
    | none => exact .untouched (congrArg (Option.map _) found) rfl
    | some v => exact .written (congrArg (Option.map _) found) rfl
  | countUserData =>
    refine .of_desk (.of_get ?_)
    dsimp only
    rcases counted m.host.userData with _ | _ | _ <;> exact .untouched rfl rfl
  | decode slot kind =>
    refine .of_get ?_
    cases m.decode slot kind <;> exact .untouched rfl rfl
  | decodeArguments params =>
    refine .of_get ?_
    cases m.decodeArguments params <;> exact .untouched rfl rfl
  | encode slot value =>
    refine .of_get ?_
    unfold Machine.encode
    cases found : value.toValue slot with
    | error f => exact .untouched (congrArg (·.toOption.map (slot, ·)) found) rfl
    | ok v => exact .written (congrArg (·.toOption.map (slot, ·)) found) rfl
  | recode slot kind =>
    refine .of_get ?_
    unfold Machine.encode
    cases read : m.decode slot kind with
    | error f =>
      have unread : (m.decode slot kind).bind (·.toValue slot) = .error f := by
        rw [read]
        rfl
      exact .untouched (congrArg (·.toOption.map (slot, ·)) unread) rfl
    | ok w =>
      have again : (m.decode slot kind).bind (·.toValue slot) = w.toValue slot := by
        rw [read]
        rfl
      dsimp only [Except.bind]
      cases found : w.toValue slot with
      | error f =>
        exact .untouched (congrArg (·.toOption.map (slot, ·)) (again.trans found)) rfl
      | ok v => exact .written (congrArg (·.toOption.map (slot, ·)) (again.trans found)) rfl
  | dispatch params returns body =>
    rw [serve_dispatch]
    exact dispatch_answered engine m params returns body

/-- What a request that runs no script makes of the heap. -/
theorem serve_touched {engine : Engine Desk} {m m' : Machine Desk} {r : Request} {reply : Reply}
    (plain : r.runsScript = false) (ran : serve engine r m = .ok reply m') :
    m.heap.Touched m'.heap := by
  obtain ⟨_, _, same, -, touched⟩ := serve_answered engine m plain
  cases same.symm.trans ran
  exact touched

/-! ### All requests -/

variable {host : Host Desk} {depth : Nat} {m m' : Machine Desk} {reply : Reply}

private theorem outcome_machine (onOk : Reply) {result : Except InterpretError Unit}
    (ran : outcome (return onOk) result m = .ok reply m') : m' = m := by
  cases result <;> cases ran <;> rfl

private theorem interpret_leaves {moduleName source : String}
    (ran : serve (host.engine depth) (.interpret moduleName source) m = .ok reply m') :
    (Request.interpret moduleName source).Leaves (host.engine depth) m m' := by
  obtain ⟨result, n, interpreted, told⟩ := Live.bind_inv ran
  obtain rfl := outcome_machine .done told
  have window := interpret_window host depth interpreted
  exact .untouched rfl rfl window.left? window.abort

private theorem call_leaves {handle : String}
    (ran : serve (host.engine depth) (.call handle) m = .ok reply m') :
    (Request.call handle).Leaves (host.engine depth) m m' := by
  rw [serve_call] at ran
  cases prepared : m.host.calls.get? handle with
  | none =>
    rw [prepared] at ran
    cases ran
    refine .untouched ?_ rfl rfl rfl
    rw [Request.put?_call, prepared]
    rfl
  | some signature =>
    rw [prepared] at ran
    have put : Request.put? (host.engine depth) m (.call handle) =
        (messageValue? (((host.engine depth).sent signature).run m)).map (0, ·) := by
      rw [Request.put?_call, prepared]
      rfl
    obtain ⟨result, k, called, told⟩ := Live.bind_inv ran
    obtain rfl := outcome_machine (.called (k.heap.view (k.vm.slots.headD .null))) told
    -- Only a call that comes to a value touches slot 0; what its method did is behind it.
    obtain ⟨v, n, sent, -, rfl⟩ | ⟨e, n, sent, -, rfl⟩ := Engine.call_cases called
    · rw [sent] at put
      exact .written put rfl (Engine.sent_window host depth sent) rfl
    · rw [sent] at put
      have window := Engine.sent_window host depth sent
      refine .untouched put rfl ?_ ?_
      · rw [Engine.reported_vm]
        exact window.left?
      · rw [Engine.reported_vm]
        exact window.abort

/-- Every request leaves what it should: whatever scripts and host functions it sets off, they have
windows of their own. -/
theorem serve_leaves {r : Request} (ran : serve (host.engine depth) r m = .ok reply m') :
    r.Leaves (host.engine depth) m m' := by
  cases kind : r.runsScript with
  | false =>
    obtain ⟨reply', n, same, leaves, -⟩ := serve_answered (host.engine depth) m kind
    cases same.symm.trans ran
    exact leaves
  | true =>
    cases r with
    | interpret moduleName source => exact interpret_leaves ran
    | call handle => exact call_leaves ran
    | _ => cases kind

end Desk

/-! ### Host functions -/

namespace Dialogue

/-- The requests of a dialogue, in the order in which they are made, each with the machine that it
is made on. -/
def course (answer : Request → DeskRun Reply) :
    Dialogue → Machine Desk → List (Request × Machine Desk)
  | done, _ => []
  | ask r next, m => (r, m) ::
    match answer r m with
    | .ok reply m' => (next reply).course answer m'
    | .error _ _ => []
  | note change next, m => (next (change m.host)).course answer { m with host := change m.host }

theorem course_ask {answer : Request → DeskRun Reply} {r : Request} {reply : Reply}
    {m n : Machine Desk} (next : Reply → Dialogue) (served : answer r m = .ok reply n) :
    (ask r next).course answer m = (r, m) :: (next reply).course answer n := by
  rw [course, served]

end Dialogue

/-- The message of the last request to stop. -/
def lastAbort? (course : List (Request × Machine Desk)) : Option String :=
  course.reverse.findSome? fun step => step.1.abort?

/-- The value that went to slot 0 last. -/
def lastFirst? (engine : Engine Desk) (course : List (Request × Machine Desk)) : Option Value :=
  course.reverse.findSome? fun step => step.1.first? engine step.2

/-- What a script gets for what a host function asked for. -/
def courseResult (engine : Engine Desk) (course : List (Request × Machine Desk)) :
    Except RuntimeError Value :=
  match lastAbort? course with
  | some message => .error ⟨.aborted message, []⟩
  | none => .ok ((lastFirst? engine course).getD .null)

theorem findSome?_reverse_cons {α β : Type} (f : α → Option β) (a : α) (rest : List α) :
    (a :: rest).reverse.findSome? f = (rest.reverse.findSome? f).or (f a) := by
  rw [List.reverse_cons, List.findSome?_append, List.findSome?_singleton]

theorem lastAbort?_cons (step : Request × Machine Desk) (rest : List (Request × Machine Desk)) :
    lastAbort? (step :: rest) = (lastAbort? rest).or step.1.abort? :=
  findSome?_reverse_cons _ step rest

theorem lastFirst?_cons (engine : Engine Desk) (step : Request × Machine Desk)
    (rest : List (Request × Machine Desk)) : lastFirst? engine (step :: rest) =
      (lastFirst? engine rest).or (step.1.first? engine step.2) :=
  findSome?_reverse_cons _ step rest

/-- What is left after a dialogue: what went to slot 0 last in its course, or what was there before;
and likewise the request to stop. -/
theorem Dialogue.hold_leaves {host : Host Desk} {depth : Nat} (d : Dialogue) {m m' : Machine Desk}
    (held : d.hold (Desk.serve (host.engine depth)) m = .ok () m') :
    m'.vm.left? = (lastFirst? (host.engine depth)
      (d.course (Desk.serve (host.engine depth)) m)).or m.vm.left? ∧
    m'.vm.abort = (lastAbort? (d.course (Desk.serve (host.engine depth)) m)).or m.vm.abort := by
  induction d generalizing m with
  | done =>
    cases held
    exact ⟨rfl, rfl⟩
  | ask r next ih =>
    obtain ⟨reply, n, served, later⟩ := Live.bind_inv held
    have leaves := Desk.serve_leaves served
    obtain ⟨left, abort⟩ := ih reply later
    rw [course_ask next served]
    rw [lastFirst?_cons, lastAbort?_cons, left, abort, leaves.left?, leaves.abort,
      Option.or_assoc, Option.or_assoc]
    exact ⟨rfl, rfl⟩
  | note change next ih => exact ih (change m.host) held

/-- A host function that talks in requests: what comes of its course. -/
theorem callForeign_course (c : Conduct) (depth : Nat) (f : HostFunction) (receiver : Value)
    (args : List Value) (m : Machine Desk) :
    (callForeign c.host (c.host.engine depth) f receiver args).run m =
      match (c.dialogue f).hold (Desk.serve (c.host.engine depth)) (m.windowed receiver args) with
      | .ok _ inner =>
        .ok (courseResult (c.host.engine depth) ((c.dialogue f).course
          (Desk.serve (c.host.engine depth)) (m.windowed receiver args))) (inner.closed m.vm)
      | .error h inner => .error h inner := by
  rw [callForeign_bind]
  change EStateM.bind ((c.dialogue f).hold (Desk.serve (c.host.engine depth))) _
    (m.windowed receiver args) = _
  unfold EStateM.bind
  cases held : (c.dialogue f).hold (Desk.serve (c.host.engine depth))
    (m.windowed receiver args) with
  | error h inner => rfl
  | ok _ inner =>
    obtain ⟨left, abort⟩ := (c.dialogue f).hold_leaves held
    have clean : (m.windowed receiver args).vm.left? = none := rfl
    have quiet : (m.windowed receiver args).vm.abort = none := rfl
    rw [clean, Option.or_none] at left
    rw [quiet, Option.or_none] at abort
    dsimp only
    rw [Vm.verdict_eq, left, abort]
    rfl

/-- For every host whose functions talk to the machine in requests, each of which may depend on all
replies before; for every such function, receiver and arguments, and every machine, whatever its own
window holds and was marked with. The function is a dialogue on a window of its own. If it comes to
an end, the call fails with the message of the last request to stop that the function itself made;
if it made none, the value is the one that it put into slot 0 last, by a value written, an object
created, a variable read or a call, whichever succeeded last; and null if there was none. Requests
that functions called in between make in their windows have no part in this, nor has anything that
was in the window before; and the window is put back as it was. -/
theorem foreign_call_result (c : Conduct) (depth : Nat) (f : HostFunction) (receiver : Value)
    (args : List Value) (m : Machine Desk) :
    let engine := c.host.engine depth
    let started := m.windowed receiver args
    ((callForeign c.host engine f receiver args).run m =
      match (c.dialogue f).hold (Desk.serve engine) started with
      | .ok _ inner =>
        .ok (courseResult engine ((c.dialogue f).course (Desk.serve engine) started))
          (inner.closed m.vm)
      | .error h inner => .error h inner) ∧
    ∀ n : Machine Desk, m.SameBeyondWindow n →
      EndsAlike ((callForeign c.host engine f receiver args).run m)
        ((callForeign c.host engine f receiver args).run n) := by
  intro engine started
  exact ⟨callForeign_course c depth f receiver args m,
    fun n same => callForeign_unseen c.host engine f receiver args same⟩

end ScriptHost
