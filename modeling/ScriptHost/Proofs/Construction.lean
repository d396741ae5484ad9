import ScriptHost.Proofs.Construction.Persistence

/-! Objects made by constructors. A class of a script makes an instance of its own; a foreign class
has the host make an object, and takes whatever foreign object the host hands over. In either case
the object is there before the body of the constructor starts, and is what the expression comes to,
whatever the body returns. -/

namespace ScriptHost

variable {H α β : Type}

/-! ### Runs that came to a value -/

theorem Live.map_ok {x : Live H α} {g : α → β} {m m' : Machine H} {b : β}
    (ran : (g <$> x) m = .ok b m') : ∃ a, x m = .ok a m' ∧ g a = b := by
  change EStateM.map g x m = _ at ran
  unfold EStateM.map at ran
  cases worked : x m with
  | ok a n =>
    rw [worked] at ran
    cases ran
    exact ⟨a, rfl, rfl⟩
  | error h n =>
    rw [worked] at ran
    cases ran

/-- A method that came to a value was not refused. -/
theorem nested_ok {act : Run H α} {m m' : Machine H} {a : α}
    (ran : (nested act).run m = .ok (.ok a) m') :
    ∃ n, act.run (m.onVm Vm.deeper) = .ok (.ok a) n ∧ m' = n.onVm Vm.shallower := by
  by_cases deep : depthLimit ≤ m.vm.depth
  · rw [nested_run_deep act deep] at ran
    cases ran
  · obtain ⟨n, acted, -, same⟩ := nested_inv deep ran
    exact ⟨n, acted, same⟩

/-! ### Expressions that ask for an object -/

/-- The receiver and the arguments of a call, in their order. -/
def operands (engine : Engine H) (receiver : Expr) (args : List Expr) :
    Script H (Value × List Value) := do
  let object ← eval engine receiver
  let values ← evalAll engine args
  return (object, values)

theorem eval_call (engine : Engine H) (span : Span) (receiver : Expr) (name : String)
    (args : List Expr) : eval engine (.call span receiver name args) =
      operands engine receiver args >>= fun both =>
        Script.send engine both.1 (callSignature name (some args.length)) both.2 := by
  unfold operands
  rw [eval]
  simp only [bind_assoc, pure_bind]

theorem operands_sim {H₁ H₂ : Type} {S : Simulation H₁ H₂} {host₁ : Host H₁} {host₂ : Host H₂}
    {e₁ : Engine H₁} {e₂ : Engine H₂} (laws : Lawful S host₁ host₂)
    (engines : Engine.Alike S host₁ host₂ e₁ e₂) {ρ : Renaming} {moduleName : String}
    (receiver : Expr) (args : List Expr) :
    ScriptSim S ρ moduleName (fun σ a b => a.1.Alike σ b.1 ∧ Value.AllAlike σ a.2 b.2)
      (operands e₁ receiver args) (operands e₂ receiver args) :=
  (eval_sim laws engines receiver).bind fun _ hv =>
    (evalAll_sim laws engines args).bind fun le hvs => .pure ⟨hv.mono le, hvs⟩

/-- Once receiver and arguments are there, a call is a message. -/
theorem call_sent {engine : Engine H} {span : Span} {receiver : Expr} {name : String}
    {args : List Expr} {frame frame' : Frame} {m n : Machine H} {v : Value} {vs : List Value}
    (evaluated : (operands engine receiver args).run.run frame m = .ok (.ok (v, vs), frame') n) :
    (eval engine (.call span receiver name args)).run.run frame m =
      ((fun result => (result, frame')) <$>
        (engine.send v (callSignature name (some args.length)) vs).run) n := by
  rw [eval_call, Script.bind_run evaluated]
  rfl

/-! ### The object -/

section

variable {host : Host H} {engine : Engine H} {id : ClassId} {k : ClassObject} {decl : MethodDecl}
  {values : List Value} {v : Value} {m m' : Machine H}

/-- A message that a class has a constructor for. -/
theorem invoke_constructor {signature : String} (found : m.heap.class? id = some k)
    (constructs : k.statics.get? signature = some (.constructor decl)) :
    (invoke host engine (.classObject id) signature values).run m =
      (nested (construct host engine id decl values)).run m := by
  have method : m.method? (.classObject id) signature = some (.constructor decl) := by
    unfold Machine.method?
    dsimp only
    rw [found]
    exact constructs
  rw [invoke_run, method]

/-- What a constructor comes to is the object that was there before its body. -/
theorem construct_ok (found : m.heap.class? id = some k)
    (ran : (construct host engine id decl values).run m = .ok (.ok v) m') :
    ∃ n w, (newObject host engine id k values).run m = .ok (.ok v) n ∧
      (callScript engine decl v values).run n = .ok (.ok w) m' := by
  rw [construct_run, found] at ran
  obtain ⟨object, n, made, later⟩ := Run.bind_ok ran
  obtain ⟨w, n', body, ended⟩ := Run.bind_ok later
  cases ended
  exact ⟨n, w, made, body⟩

/-- A constructor without an object fails before its body. -/
theorem construct_failed {e : RuntimeError} (found : m.heap.class? id = some k)
    (failed : (newObject host engine id k values).run m = .ok (.error e) m') :
    (construct host engine id decl values).run m = .ok (.error e) m' := by
  rw [construct_run, found]
  exact Live.bind_run (x := (newObject host engine id k values).run)
    (f := ExceptT.bindCont _) failed

theorem newObject_plain (plain : ¬k.isForeign) :
    (newObject host engine id k values).run m =
      .ok (.ok (.object m.heap.instances.size)) (m.onHeap (·.addInstance id)).2 := by
  unfold newObject
  rw [if_neg plain]
  rfl

/-- The error of a constructor whose allocator left no foreign object. -/
def allocationError? (className : String) : Except RuntimeError Value → Option RuntimeError
  | .error e => some e
  | .ok (.foreign _) => none
  | .ok _ => some ⟨.nothingAllocated className, []⟩

theorem newObject_foreign (foreign : k.isForeign) {f : HostFunction}
    (allocates : k.binding.allocate = some f) {r : Except RuntimeError Value}
    (called : (callForeign host engine f (.classObject id) values).run m = .ok r m') :
    (newObject host engine id k values).run m =
      match allocationError? k.name r with
      | some e => .ok (.error e) m'
      | none => .ok r m' := by
  unfold newObject
  rw [if_pos foreign, allocates]
  change EStateM.bind (callForeign host engine f (.classObject id) values).run
    (ExceptT.bindCont _) m = _
  rw [Live.bind_run called]
  rcases r with e | v
  · rfl
  · cases v <;> rfl

/-- An object of a foreign class is one that its allocator left. -/
theorem newObject_foreign_ok (foreign : k.isForeign)
    (made : (newObject host engine id k values).run m = .ok (.ok v) m') :
    ∃ f o, k.binding.allocate = some f ∧ v = .foreign o ∧
      (callForeign host engine f (.classObject id) values).run m = .ok (.ok (.foreign o)) m' := by
  unfold newObject at made
  rw [if_pos foreign] at made
  cases allocates : k.binding.allocate with
  | none =>
    rw [allocates] at made
    cases made
  | some f =>
    rw [allocates] at made
    obtain ⟨w, n, called, made⟩ := Run.bind_ok made
    cases w with
    | foreign o =>
      cases made
      exact ⟨f, o, rfl, rfl, called⟩
    | _ => cases made

end

/-! ### What an allocator hands over -/

/-- The last request of a course that put anything into slot 0, the machine that it was made on, and
what it put there. -/
def PutLast (engine : Engine Desk) (course : List (Request × Machine Desk)) (r : Request)
    (p : Machine Desk) (v : Value) : Prop :=
  ∃ before after, course = before ++ (r, p) :: after ∧ r.first? engine p = some v ∧
    ∀ step ∈ after, step.1.first? engine step.2 = none

theorem putLast_of_lastFirst? {engine : Engine Desk} {course : List (Request × Machine Desk)}
    {v : Value} (left : lastFirst? engine course = some v) :
    ∃ r p, PutLast engine course r p v := by
  obtain ⟨after, ⟨r, p⟩, before, same, put, later⟩ := List.findSome?_eq_some_iff.mp left
  refine ⟨r, p, before.reverse, after.reverse, ?_, put, fun step member => ?_⟩
  · rw [← List.reverse_reverse course, same]
    simp
  · exact later step (List.mem_reverse.mp member)

/-- The value of a host function is what it put into slot 0 last, unless it is null. -/
theorem courseResult_ok {engine : Engine Desk} {course : List (Request × Machine Desk)} {v : Value}
    (came : courseResult engine course = .ok v) (something : v ≠ .null) :
    lastFirst? engine course = some v := by
  unfold courseResult at came
  cases quiet : lastAbort? course with
  | some message =>
    rw [quiet] at came
    cases came
  | none =>
    rw [quiet] at came
    cases left : lastFirst? engine course with
    | none =>
      rw [left] at came
      cases came
      exact absurd rfl something
    | some w =>
      rw [left] at came
      cases came
      rfl

/-- Requests that run no scripts leave the count of methods alone. -/
theorem Dialogue.hold_depth (engine : Engine Desk) (d : Dialogue) {m m' : Machine Desk}
    (held : d.hold (Desk.serve engine) m = .ok () m')
    (plain : ∀ step ∈ d.course (Desk.serve engine) m, step.1.runsScript = false) :
    m'.vm.depth = m.vm.depth := by
  induction d generalizing m with
  | done =>
    cases held
    rfl
  | ask r next ih =>
    obtain ⟨reply, n, served, later⟩ := Live.bind_inv held
    rw [course_ask next served] at plain
    obtain ⟨first, rest⟩ := List.forall_mem_cons.mp plain
    obtain ⟨_, _, served', -, beyond⟩ := Desk.serve_atOnce engine engine m first
    cases served.symm.trans served'
    exact (ih reply later rest).trans beyond.depth
  | note change next ih =>
    exact ih (change m.host) (m := { m with host := change m.host }) held plain

/-- A request makes an object of a foreign class. -/
def Request.Makes (r : Request) (p : Machine Desk) (o : ForeignId) (b : ClassId) : Prop :=
  ∃ slot classSlot payload, r = .newForeign slot classSlot payload ∧
    p.slotForeignClass? classSlot = some b ∧ o = p.heap.foreigns.size

/-- An allocator at work: the course of its requests, in the window that it is given. -/
def Conduct.allocation (c : Conduct) (depth : Nat) (f : HostFunction) (id : ClassId)
    (values : List Value) (n : Machine Desk) : List (Request × Machine Desk) :=
  (c.dialogue f).course (Desk.serve (c.host.engine depth))
    ((n.onVm Vm.deeper).windowed (.classObject id) values)

section

variable {c : Conduct} {depth : Nat} {id : ClassId} {k : ClassObject} {decl : MethodDecl}
  {values : List Value} {v : Value} {n m' : Machine Desk}

/-- An instance comes from its class alone: it is new, and of the class. -/
theorem constructed_plain (found : n.heap.class? id = some k) (plain : ¬k.isForeign)
    (ran : (nested (construct c.host (c.host.engine depth) id decl values)).run n =
      .ok (.ok v) m') :
    ∃ o, v = .object o ∧ ¬n.heap.Made (.instance o) ∧ m'.classOf v = id := by
  obtain ⟨inner, constructed, rfl⟩ := nested_ok ran
  obtain ⟨started, w, made, body⟩ := construct_ok (m := n.onVm Vm.deeper) found constructed
  rw [newObject_plain plain] at made
  cases made
  refine ⟨n.heap.instances.size, rfl, Nat.lt_irrefl _, ?_⟩
  -- The instance is there when the body starts, and the body cannot change its class.
  have there : (n.heap.addInstance id).2.instance? n.heap.instances.size = some ⟨id, []⟩ := by
    rw [Heap.instance?_addInstance, if_pos rfl]
  have persists : (n.heap.addInstance id).2.Persists inner.heap :=
    (Heap.lasting_persists _).callScript c depth decl _ values (.refl _) body
  obtain ⟨i, found', same⟩ := persists.instances there
  exact (Machine.classOf_object (m := inner.onVm Vm.shallower) found').trans same

/-- A foreign object comes from the allocator, whose requests were all answered before the body. -/
theorem constructed_foreign (found : n.heap.class? id = some k) (foreign : k.isForeign)
    (ran : (nested (construct c.host (c.host.engine depth) id decl values)).run n =
      .ok (.ok v) m') :
    ∃ f o inner, k.binding.allocate = some f ∧ v = .foreign o ∧
      (c.dialogue f).hold (Desk.serve (c.host.engine depth))
        ((n.onVm Vm.deeper).windowed (.classObject id) values) = .ok () inner ∧
      lastFirst? (c.host.engine depth) (c.allocation depth f id values n) = some v ∧
      inner.heap.Persists m'.heap := by
  obtain ⟨last, constructed, rfl⟩ := nested_ok ran
  obtain ⟨started, w, made, body⟩ := construct_ok (m := n.onVm Vm.deeper) found constructed
  obtain ⟨f, o, allocates, rfl, called⟩ := newObject_foreign_ok foreign made
  rw [callForeign_course] at called
  cases held : (c.dialogue f).hold (Desk.serve (c.host.engine depth))
      ((n.onVm Vm.deeper).windowed (.classObject id) values) with
  | error h inner =>
    rw [held] at called
    cases called
  | ok _ inner =>
    rw [held] at called
    injection called with came left
    have persists : started.heap.Persists last.heap :=
      (Heap.lasting_persists _).callScript c depth decl _ values (.refl _) body
    rw [← left] at persists
    exact ⟨f, o, inner, allocates, rfl, held, courseResult_ok came nofun, persists⟩

/-- An object that an allocator made in its course is new, and stays of the class that it was made
of. -/
theorem allocated_new {f : HostFunction} {o : ForeignId} {inner : Machine Desk}
    (held : (c.dialogue f).hold (Desk.serve (c.host.engine depth))
      ((n.onVm Vm.deeper).windowed (.classObject id) values) = .ok () inner)
    (persists : inner.heap.Persists m'.heap) {step : Request × Machine Desk}
    (member : step ∈ c.allocation depth f id values n) {b : ClassId}
    (makes : step.1.Makes step.2 o b) :
    ¬n.heap.Made (.foreign o) ∧ m'.classOf (.foreign o) = b := by
  obtain ⟨earlier, reply, q, served, later⟩ :=
    Dialogue.course_persists c depth (c.dialogue f) held step member
  obtain ⟨slot, classSlot, payload, same, asked, rfl⟩ := makes
  rw [same] at served
  refine ⟨fun there => Nat.lt_irrefl _ (earlier.made there), ?_⟩
  have there : q.heap.foreign? step.2.heap.foreigns.size = some ⟨b, .u64 (payload.getD 0)⟩ := by
    rw [Desk.serve_newForeign asked served, Heap.foreign?_addForeign, if_pos rfl]
  obtain ⟨object, found, ofClass, -⟩ := (later.trans persists).objects there
  exact (Machine.classOf_foreign found).trans ofClass

/-- An allocator that leaves no foreign object: the body is not run. The constructor ends with the
error, if it still counts after what the allocator ran. -/
theorem constructed_failed (found : n.heap.class? id = some k) (foreign : k.isForeign)
    {f : HostFunction} (allocates : k.binding.allocate = some f) (room : n.vm.depth < depthLimit)
    {inner : Machine Desk} {e : RuntimeError}
    (held : (c.dialogue f).hold (Desk.serve (c.host.engine depth))
      ((n.onVm Vm.deeper).windowed (.classObject id) values) = .ok () inner)
    (failed : allocationError? k.name
      (courseResult (c.host.engine depth) (c.allocation depth f id values n)) = some e) :
    (nested (construct c.host (c.host.engine depth) id decl values)).run n =
      if inner.vm.depth = 0 then .error .miscount (inner.closed n.vm)
      else .ok (.error e) ((inner.closed n.vm).onVm Vm.shallower) := by
  have called := callForeign_course c depth f (.classObject id) values (n.onVm Vm.deeper)
  rw [held] at called
  have made := newObject_foreign foreign allocates called
  have same : courseResult (c.host.engine depth) ((c.dialogue f).course
      (Desk.serve (c.host.engine depth)) ((n.onVm Vm.deeper).windowed (.classObject id) values)) =
    courseResult (c.host.engine depth) (c.allocation depth f id values n) := rfl
  rw [same, failed] at made
  rw [nested_run _ (Nat.not_le.mpr room)]
  exact (Live.bind_run (x := (construct c.host (c.host.engine depth) id decl values).run)
    (construct_failed (m := n.onVm Vm.deeper) found made)).trans (countOff_then _ _)

end

/-- What comes of an expression that asks a class for an object, once the receiver has come to the
class, and the arguments to values. For every host whose functions talk to the machine in requests,
each of which may depend on all replies before; every class, constructor and body, which may return,
leave a loop or construct in its turn; and every arguments. If the expression comes to a value, the
value is an object. If the class is not foreign, the object is none of those that were there before
the expression, and its class is the one that was asked. If the class is foreign, the object is the
one that its allocator put into slot 0 last: if the allocator made it, it is none of those that were
there before, and of the class that it was made of; if it was there before, it has the class that it
had. An allocator that leaves anything but a foreign object makes the expression fail, on the
machine that the allocator left: no body runs. If a script that the allocator ran has started the
count of methods anew, everything stops there; an allocator that runs no scripts leaves the count
alone. -/
theorem constructors_give_objects (c : Conduct) (depth : Nat) (frame frame' : Frame)
    (m n : Machine Desk) (span : Span) (receiver : Expr) (name : String) (args : List Expr)
    (id : ClassId) (values : List Value) (k : ClassObject) (decl : MethodDecl)
    (evaluated : (operands (c.host.engine (depth + 1)) receiver args).run.run frame m =
      .ok (.ok (.classObject id, values), frame') n)
    (found : n.heap.class? id = some k)
    (constructs : k.statics.get? (callSignature name (some args.length)) =
      some (.constructor decl)) :
    let ran := (eval (c.host.engine (depth + 1)) (.call span receiver name args)).run.run frame m
    let engine := c.host.engine depth
    (∀ v frame'' m', ran = .ok (.ok v, frame'') m' →
      (¬k.isForeign → ∃ o, v = .object o ∧ ¬m.heap.Made (.instance o) ∧ m'.classOf v = id) ∧
      (k.isForeign → ∃ f o r p, k.binding.allocate = some f ∧ v = .foreign o ∧
        PutLast engine (c.allocation depth f id values n) r p v ∧
        (∀ step ∈ c.allocation depth f id values n, ∀ b, step.1.Makes step.2 o b →
          ¬m.heap.Made (.foreign o) ∧ m'.classOf v = b) ∧
        (m.heap.Made (.foreign o) → m'.classOf v = m.classOf v))) ∧
    ∀ f inner e, k.isForeign → k.binding.allocate = some f → n.vm.depth < depthLimit →
      (c.dialogue f).hold (Desk.serve engine)
        ((n.onVm Vm.deeper).windowed (.classObject id) values) = .ok () inner →
      allocationError? k.name (courseResult engine (c.allocation depth f id values n)) = some e →
      ((∀ step ∈ c.allocation depth f id values n, step.1.runsScript = false) →
        ran = .ok (.error e, frame') ((inner.closed n.vm).onVm Vm.shallower)) ∧
      ran = if inner.vm.depth = 0 then .error .miscount (inner.closed n.vm)
        else .ok (.error e, frame') ((inner.closed n.vm).onVm Vm.shallower) := by
  intro ran engine
  -- Whatever the operands do, what was there before them is there when the message is sent.
  have lasting := Heap.lasting_persists m.heap
  have before : m.heap.Persists n.heap :=
    Heap.twice_script (operands_sim (lasting.conduct_nesting c).simulates.toLawful
      (lasting.conduct_engine c (depth + 1)) receiver args) (.refl m.heap) evaluated
  have sent : ran = ((fun result => (result, frame')) <$>
      (nested (construct c.host engine id decl values)).run) n := by
    refine (call_sent evaluated).trans ?_
    change EStateM.map _ (invoke c.host engine _ _ values).run n = EStateM.map _ _ n
    unfold EStateM.map
    rw [invoke_constructor found constructs]
  refine ⟨fun v frame'' m' came => ?_, fun f inner e foreign allocates room held failed => ?_⟩
  · rw [sent] at came
    obtain ⟨_, constructed, same⟩ := Live.map_ok came
    cases same
    refine ⟨fun plain => ?_, fun foreign => ?_⟩
    · obtain ⟨o, same, new, ofClass⟩ := constructed_plain found plain constructed
      exact ⟨o, same, fun there => new (before.made there), ofClass⟩
    · obtain ⟨f, o, inner, allocates, rfl, held, left, after⟩ :=
        constructed_foreign found foreign constructed
      obtain ⟨r, p, put⟩ := putLast_of_lastFirst? left
      refine ⟨f, o, r, p, allocates, rfl, put, fun step member b makes => ?_, fun there => ?_⟩
      · obtain ⟨new, ofClass⟩ := allocated_new held after member makes
        exact ⟨fun there => new (before.made there), ofClass⟩
      · have working : n.heap.Persists inner.heap :=
          (Heap.lasting_persists n.heap).hold c depth _
            (m := (n.onVm Vm.deeper).windowed (.classObject id) values) (.refl n.heap) held
        exact Machine.classOf_persists (before.trans (working.trans after)) there
  · have constructed : (nested (construct c.host engine id decl values)).run n = _ :=
      constructed_failed found foreign allocates room held failed
    have comes : ran = if inner.vm.depth = 0 then .error .miscount (inner.closed n.vm)
        else .ok (.error e, frame') ((inner.closed n.vm).onVm Vm.shallower) := by
      rw [sent]
      change EStateM.map _ _ n = _
      unfold EStateM.map
      rw [constructed]
      by_cases uncounted : inner.vm.depth = 0
      · rw [if_pos uncounted, if_pos uncounted]
      · rw [if_neg uncounted, if_neg uncounted]
    refine ⟨fun plain => ?_, comes⟩
    have counted : inner.vm.depth = n.vm.depth + 1 := (c.dialogue f).hold_depth engine held plain
    rw [comes, if_neg (counted ▸ Nat.succ_ne_zero _)]

/-! ### Objects made, and objects handed over -/

/-- An expression that came to a value, as can be found out by running it. -/
theorem came_of_check {r : EStateM.Result Halt (Machine Desk) (Except RuntimeError Value × Frame)}
    (h : (match r with
      | .ok (.ok _, _) _ => true
      | _ => false) = true) : ∃ v f m, r = .ok (.ok v, f) m := by
  split at h
  · exact ⟨_, _, _, rfl⟩
  · cases h

/-- A program with three foreign classes. The objects of `A` are made of the class that the
constructor is given; the constructor of `C` gives back what it is given. -/
def obliging : Plan where
  modules := []
  methods := []
  classes := [("A", ⟨some [.newForeign 0 1 none], false, none⟩), ("B", ⟨some [], false, none⟩),
    ("C", ⟨some [.takeHandle 1 "it", .putHandle 0 "it"], false, none⟩)]
  hearing := ⟨true, true, true, true, true⟩

/-- A constructor that returns null. -/
def returning : MethodDecl :=
  ⟨"new", .constructor, [], false, false, default, some [.returnValue default none]⟩

/-- A fresh machine with one class of a script, whose constructor returns null. -/
def withReturning : Machine Desk :=
  let m := Machine.fresh Desk.empty
  { m with
    heap := (m.heap.addClass ⟨"P", "main", false, [], [("new()", .constructor returning)], .none⟩).2
    vm := (m.vm.openModule "main").define "main" "P" (.classObject m.heap.classes.size) }

/-- The object is what the expression comes to, not what the constructor returns. -/
theorem constructors_give_objects_returning :
    ∃ v f m', (eval (obliging.conduct.host.engine 2)
        (.call default (.variable default "P") "new" [])).run.run (.ofModule "main") withReturning =
          .ok (.ok v, f) m' ∧
      ∃ o, v = .object o ∧ ¬withReturning.heap.Made (.instance o) ∧ m'.classOf v = 6 := by
  obtain ⟨v, f, m', ran⟩ := came_of_check
    (r := (eval (obliging.conduct.host.engine 2)
      (.call default (.variable default "P") "new" [])).run.run (.ofModule "main") withReturning)
    (by decide +kernel)
  have objects := constructors_give_objects obliging.conduct 1 (.ofModule "main")
    (.ofModule "main") withReturning withReturning default (.variable default "P") "new" [] 6 [] _
    returning rfl rfl rfl
  exact ⟨v, f, m', ran, (objects.1 v f m' ran).1 Bool.false_ne_true⟩

/-- A script that came to its end, as can be found out by running it. -/
theorem ended_of_check {r : EStateM.Result Halt (Machine Desk) (Except InterpretError Unit)}
    {P : Machine Desk → Prop} [∀ m, Decidable (P m)]
    (h : (match r with
      | .ok (.ok ()) m => decide (P m)
      | _ => false) = true) : ∃ m, r = .ok (.ok ()) m ∧ P m := by
  split at h
  · exact ⟨_, rfl, of_decide_eq_true h⟩
  · cases h

def obliged : String :=
  "foreign class B \x7b\x7d\nforeign class A \x7b\n  construct new(b) \x7b\x7d\n\x7d\n" ++
    "foreign class C \x7b\n  construct new(x) \x7b\x7d\n\x7d\nvar X = A.new(B)\nvar Y = C.new(X)"

/-- The class that a variable of a module holds is that of the object that another holds. -/
def Machine.HasClass {H : Type} (m : Machine H) (moduleName name className : String) : Bool :=
  match m.vm.binding? moduleName name, m.vm.binding? moduleName className with
  | some v, some (.classObject id) => m.classOf v = id
  | _, _ => false

/-- The foreign object that a variable of a module holds. -/
def Machine.foreignNamed? {H : Type} (m : Machine H) (moduleName name : String) :
    Option ForeignId :=
  match m.vm.binding? moduleName name with
  | some (.foreign id) => some id
  | _ => none

/-- What a variable of a module looks like to the host. -/
def Machine.shown? {H : Type} (m : Machine H) (moduleName name : String) : Option String :=
  (m.vm.binding? moduleName name).map m.heap.display

/-- Objects that are not new, or not of the class that was asked: `A.new(B)` is a `B` and no `A`,
and `C.new(X)` is `X`, which was there before and is no `C`. -/
theorem constructors_give_others :
    ∃ m', (obliging.conduct.host.engine unreachedDepth).interpret "main" obliged
        (.fresh .empty) = .ok (.ok ()) m' ∧
      m'.HasClass "main" "X" "A" = false ∧ m'.HasClass "main" "X" "B" = true ∧
      m'.foreignNamed? "main" "X" = some 0 ∧ m'.foreignNamed? "main" "Y" = some 0 ∧
      m'.HasClass "main" "Y" "C" = false :=
  ended_of_check (by decide +kernel)

end ScriptHost
