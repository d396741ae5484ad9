import Mathlib.Data.List.Perm.Subperm
import ScriptHost.Proofs.Course.Erasure
import ScriptHost.Proofs.Course.Interpreter
import ScriptHost.Proofs.Tables

/-! What the logbook tells. While a run goes on, the bodies in the logbook are those around it; when
a fault is on its way, they are those that the fault passed through, which its trace names, and then
those around. The host is asked for a module only where it is not registered, and the statements of
a module are started only as it becomes registered. Each part of the interpreter with a logbook
keeps to that, and so does the interpreter, by induction on its depth. -/

namespace ScriptHost

/-! ### Tables of modules that grow -/

/-- Modules keep their places, and so do the variables of each; what is new comes last. -/
structure Table.Grows (t t' : Table Bindings) : Prop where
  modules : t.names <+: t'.names
  bindings : ∀ {name vars}, t.get? name = some vars →
    ∃ vars', t'.get? name = some vars' ∧ vars.names <+: vars'.names

namespace Table.Grows

variable {t t' t'' : Table Bindings}

theorem refl (t : Table Bindings) : t.Grows t :=
  ⟨List.prefix_refl _, fun found => ⟨_, found, List.prefix_refl _⟩⟩

theorem trans (h : t.Grows t') (h' : t'.Grows t'') : t.Grows t'' where
  modules := h.modules.trans h'.modules
  bindings found := by
    obtain ⟨vars', found', grown⟩ := h.bindings found
    obtain ⟨vars'', found'', grown'⟩ := h'.bindings found'
    exact ⟨vars'', found'', grown.trans grown'⟩

theorem has (h : t.Grows t') {name : String} (known : t.has name = true) : t'.has name = true := by
  obtain ⟨vars, found⟩ := Table.has_iff.mp known
  obtain ⟨vars', found', -⟩ := h.bindings found
  exact Table.has_iff.mpr ⟨vars', found'⟩

/-- What is not there now was not there before. -/
theorem absent (h : t.Grows t') {name : String} (absent : t'.has name = false) :
    t.has name = false := by
  rw [Bool.eq_false_iff] at absent ⊢
  exact fun known => absent (h.has known)

theorem define (t : Table Bindings) (moduleName name : String) (v : Value) :
    t.Grows (t.update moduleName (·.set name v)) where
  modules := (t.names_update moduleName _).symm ▸ List.prefix_refl _
  bindings {other vars} found := by
    rw [Table.get?_update, found]
    split
    · exact ⟨_, rfl, vars.names_set name v⟩
    · exact ⟨vars, rfl, List.prefix_refl _⟩

theorem register {name : String} (absent : t.has name = false) (new : Bindings) :
    t.Grows (t.set name new) where
  modules := t.names_set name new
  bindings {other vars} found := by
    have ne : other ≠ name := by
      rintro rfl
      rw [Table.has_iff.mpr ⟨vars, found⟩] at absent
      cases absent
    exact ⟨vars, by rw [Table.get?_set_of_ne _ _ ne, found], List.prefix_refl _⟩

end Table.Grows

/-- The host may have a source for a module. -/
def Conduct.Offers (c : Conduct) (name : String) : Prop :=
  ∃ desk, ((c.callbacks.load name).run desk).1.isSome = true

namespace Logged

/-- What the table of modules and the logbook say of the loads since a moment. -/
structure Tallies (c : Conduct) (start modules : Table Bindings) (b : Logbook) : Prop where
  grows : start.Grows modules
  /-- The host was asked only for modules that were not registered. -/
  asked : ∀ entry ∈ b.asked, entry.2 = false ∧ start.has entry.1 = false
  distinct : b.begun.Nodup
  begun : ∀ name ∈ b.begun, modules.has name = true ∧ start.has name = false ∧ c.Offers name

namespace Tallies

variable {c : Conduct} {start modules modules' : Table Bindings} {b : Logbook}

theorem blank (c : Conduct) (start : Table Bindings) : Tallies c start start .blank :=
  ⟨.refl start, nofun, List.nodup_nil, nofun⟩

theorem grow (h : Tallies c start modules b) (grown : modules.Grows modules') :
    Tallies c start modules' b where
  grows := h.grows.trans grown
  asked := h.asked
  distinct := h.distinct
  begun name listed := (h.begun name listed).imp_left grown.has

theorem withActive (h : Tallies c start modules b) (active : List Activation) :
    Tallies c start modules { b with active } := ⟨h.grows, h.asked, h.distinct, h.begun⟩

theorem ask (h : Tallies c start modules b) {name : String} (absent : modules.has name = false) :
    Tallies c start modules (b.ask name (modules.has name)) where
  grows := h.grows
  asked entry listed := by
    obtain rfl | listed := List.mem_cons.mp listed
    · exact ⟨absent, h.grows.absent absent⟩
    · exact h.asked entry listed
  distinct := h.distinct
  begun := h.begun

/-- The statements of a module are started as it is registered: all that were started before are
registered, so that it is none of them. -/
theorem begin (h : Tallies c start modules b) {name : String} (absent : modules.has name = false)
    (new : Bindings) (offered : c.Offers name) :
    Tallies c start (modules.set name new) (b.begin name) where
  grows := h.grows.trans (.register absent new)
  asked := h.asked
  distinct := by
    refine List.nodup_cons.mpr ⟨fun listed => ?_, h.distinct⟩
    rw [(h.begun name listed).1] at absent
    cases absent
  begun other listed := by
    obtain rfl | listed := List.mem_cons.mp listed
    · exact ⟨(modules.has_set _ _).mpr (.inl rfl), h.grows.absent absent, offered⟩
    · exact (h.begun other listed).imp_left fun known => (modules.has_set _ _).mpr (.inr known)

/-- No more modules are started than the host has sources for. -/
theorem begun_le (h : Tallies c start modules b) {names : List String}
    (offers : ∀ name, c.Offers name → name ∈ names) : b.begun.length ≤ names.length :=
  (h.distinct.subperm fun name listed => offers name (h.begun name listed).2.2).length_le

end Tallies

/-! ### The course of a run -/

/-- The course of a run inside some bodies. -/
def course (c : Conduct) (start : Table Bindings) (around : List Activation) : Course Logged where
  going modules l := l.book.active = around ∧ Tallies c start modules l.book
  fault _ trace modules l :=
    l.book.active = trace.map (·.activation) ++ around ∧ Tallies c start modules l.book
  halt modules l := Tallies c start modules l.book

/-- The course inside one more body: its faults have left it. -/
def bodyCourse (c : Conduct) (start : Table Bindings) (body : Activation)
    (around : List Activation) : Course Logged where
  going := (course c start (body :: around)).going
  fault f trace modules l := ∃ inner entry, trace = inner ++ [entry] ∧ entry.activation = body ∧
    (course c start (body :: around)).fault f inner modules l
  halt := (course c start around).halt

/-- The course around a body that has run, with its faults. -/
def afterCourse (c : Conduct) (start : Table Bindings) (body : Activation)
    (around : List Activation) : Course Logged :=
  { bodyCourse c start body around with going := (course c start around).going }

variable {α : Type} {c : Conduct} {start : Table Bindings} {around : List Activation}
  {body : Activation} {engine : Engine Logged} {m : Machine Logged}

theorem course_lawful (c : Conduct) (start : Table Bindings) (around : List Activation) :
    (course c start around).Lawful where
  define going := fun moduleName name v => ⟨going.1, going.2.grow (.define _ moduleName name v)⟩
  register going := fun absent new => ⟨going.1, going.2.grow (.register absent new)⟩
  raise going := fun _ => going
  stop going := going.2
  fail failed := failed.2

theorem course_raises (c : Conduct) (start : Table Bindings) (around : List Activation) :
    (course c start around).Raises := fun going _ => going

theorem course_follows (act : StateM Desk α) : (course c start around).Follows (callback act) :=
  fun going => going

/-- A fault that left a body has it last on its trace. -/
theorem bodyCourse_fault {f : RuntimeFault} {trace : List TraceEntry} {modules : Table Bindings}
    {l : Logged} (h : (bodyCourse c start body around).fault f trace modules l) :
    (course c start around).fault f trace modules l := by
  obtain ⟨inner, entry, rfl, rfl, active, tallies⟩ := h
  refine ⟨?_, tallies⟩
  rw [active, List.map_append, List.append_assoc]
  rfl

theorem entered (going : (course c start around).going m.vm.modules m.host) (body : Activation) :
    (bodyCourse c start body around).going m.vm.modules (noted (.enter body) m).host :=
  ⟨congrArg (List.cons body) going.1, going.2.withActive _⟩

theorem within_after {x : Run Logged α} (going : (course c start around).going m.vm.modules m.host)
    (h : (bodyCourse c start body around).going m.vm.modules (noted (.enter body) m).host →
      (bodyCourse c start body around).Ended (bodyCourse c start body around).Settled
        (x.run (noted (.enter body) m))) :
    (afterCourse c start body around).Ended (afterCourse c start body around).Settled
      ((within body x).run m) := by
  have ended := h (entered going body)
  change Course.Ended _ _ (EStateM.bind x.run _ (noted (.enter body) m))
  unfold EStateM.bind
  revert ended
  rcases x.run (noted (.enter body) m) with ⟨e | a, n⟩ | ⟨halt, n⟩
  · exact id
  · rintro ⟨active, tallies⟩
    exact ⟨congrArg List.tail active, tallies.withActive _⟩
  · exact id

theorem within_keeps {x : Run Logged α} (going : (course c start around).going m.vm.modules m.host)
    (h : (bodyCourse c start body around).going m.vm.modules (noted (.enter body) m).host →
      (bodyCourse c start body around).Ended (bodyCourse c start body around).Settled
        (x.run (noted (.enter body) m))) :
    (course c start around).Ended (course c start around).Settled ((within body x).run m) := by
  refine Course.Ended.imp (C := course c start around) (within_after going h) fun result n => ?_
  cases result with
  | ok a => exact id
  | error e => exact bodyCourse_fault

theorem activate_keeps {k : Frame} {x : Script Logged α}
    (h : ScriptKeeps (course c start (k.activation :: around)) k.activation x) :
    RunKeeps (bodyCourse c start k.activation around) (Script.activate k x) :=
  fun _ going => ScriptKeeps.activate h id (fun fault entry named => ⟨_, entry, rfl, named, fault⟩)
    id going

/-! ### Bodies -/

theorem runModule_keeps (name : String) (statements : List Stmt)
    (runs : (course c start (.ofModule name :: around)).Runs engine) :
    RunKeeps (bodyCourse c start (.ofModule name) around) (runModule engine name statements) :=
  (activate_keeps (k := .ofModule name) (execAll_keeps runs statements)).bind fun _ => .pure _

theorem callScript_keeps {decl : MethodDecl} {receiver : Value} (args : List Value)
    (runs : (course c start (m.bodyOf (m.classOf receiver) decl :: around)).Runs engine)
    (going : (bodyCourse c start (m.bodyOf (m.classOf receiver) decl) around).going m.vm.modules
      m.host) :
    (bodyCourse c start (m.bodyOf (m.classOf receiver) decl) around).Ended
      (bodyCourse c start (m.bodyOf (m.classOf receiver) decl) around).Settled
      ((callScript engine decl receiver args).run m) := by
  have ran : RunKeeps (bodyCourse c start (m.bodyOf (m.classOf receiver) decl) around)
      (Script.activate
        (decl.frame (m.moduleOf receiver) (m.heap.className (m.classOf receiver)) receiver args)
        (execAll engine (decl.body.getD []))) :=
    activate_keeps (k := decl.frame _ _ receiver args) (execAll_keeps runs _)
  rw [callScript_run]
  refine RunKeeps.bind (.modify fun _ going => ?_) (fun _ => ran.bind fun flow => ?_) m going
  · exact runs.toLawful.openModule going _
  · cases flow <;> exact .pure _

/-- A body of the class of its receiver, in the logbook while it runs. -/
theorem receiver_keeps (runs : ∀ around, (course c start around).Runs engine) (decl : MethodDecl)
    (receiver : Value) (args : List Value)
    (going : (course c start around).going m.vm.modules m.host) :
    (course c start around).Ended (course c start around).Settled
      ((within (m.bodyOf (m.classOf receiver) decl)
        (callScript engine decl receiver args)).run m) :=
  within_keeps going (callScript_keeps (m := noted _ m) args (runs _))

theorem method_keeps (runs : ∀ around, (course c start around).Runs engine) (decl : MethodDecl)
    (receiver : Value) (args : List Value) :
    RunKeeps (course c start around) (method engine decl receiver args) := by
  intro m going
  rw [method_run]
  exact receiver_keeps runs decl receiver args going

/-- A new instance is of the class that was asked for. -/
theorem newObject_native {H : Type} {host : Host H} {engine : Engine H} {m n : Machine H}
    {classId : ClassId} {k : ClassObject} {args : List Value} {v : Value}
    (native : k.isForeign = false)
    (made : (newObject host engine classId k args).run m = .ok (.ok v) n) :
    n.classOf v = classId := by
  unfold newObject at made
  rw [if_neg (Bool.eq_false_iff.mp native)] at made
  cases made
  change Option.getD (Option.map _ (Array.push _ _)[_]?) 0 = _
  rw [Array.getElem?_push_size]
  rfl

theorem making_keeps {host : Host Logged} (runs : ∀ around, (course c start around).Runs engine)
    (called : ∀ f v vs, RunKeeps (course c start around) (callForeign host engine f v vs))
    (classId : ClassId) (decl : MethodDecl) (args : List Value) :
    RunKeeps (course c start around) (making host engine classId decl args) := by
  refine .get_bind fun m => ?_
  cases m.heap.class? classId with
  | none => exact .pure _
  | some k =>
    intro m going
    refine RunKeeps.bind_ran (newObject_keeps (course_lawful c start around) called classId k args m
      going) fun object n made going => ?_
    -- A new instance is of the class asked for, so that the body is one of its receiver's class.
    have named : (if k.isForeign then n.classOf object else classId) = n.classOf object := by
      cases native : k.isForeign with
      | true => rfl
      | false => exact (newObject_native native made).symm
    refine RunKeeps.bind_at ?_ fun _ => .pure object
    change Course.Ended _ _ ((within (n.bodyOf (if k.isForeign then _ else _) decl) _).run n)
    rw [named]
    exact receiver_keeps runs decl object args going

theorem loading_keeps (runs : ∀ around, (course c start around).Runs engine)
    (heard : engine.callbacks = callbacks c.callbacks)
    (going : (course c start around).going m.vm.modules m.host) {name : String}
    (absent : m.vm.hasModule name = false) :
    (course c start around).Ended (course c start around).Settled
      ((loading engine name).run m) := by
  obtain ⟨active, tallies⟩ := going
  have asked := tallies.ask absent
  rw [loading_run, loadBy_run, heard]
  cases found : ((noted (.ask name (m.vm.hasModule name)) m).onHost
      ((callbacks c.callbacks).load name)).1 with
  | none => exact ⟨active, asked⟩
  | some source =>
    have offered : c.Offers name := ⟨m.host.desk, Option.isSome_iff_exists.mpr ⟨source, found⟩⟩
    dsimp only
    cases parseModule source with
    | error errors =>
      refine RunKeeps.bind (.lift (Engine.reportAll_keeps (runs around) _)) (fun _ => ?_) _
        ⟨active, asked⟩
      exact .fault (course_lawful c start around) rfl
    | ok statements =>
      have opened : (m.vm.openModule name).modules = m.vm.modules.set name m.vm.coreBindings := by
        unfold Vm.openModule
        rw [absent]
        rfl
      change Course.Ended _ _ ((starting engine name statements).run _)
      rw [starting_run]
      refine within_keeps ⟨active, ?_⟩ (runModule_keeps name statements (runs _) _)
      change Tallies c start (m.vm.openModule name).modules _
      rw [opened]
      exact asked.begin absent _ offered

/-! ### What the host asks for -/

theorem reported_same (heard : engine.callbacks = callbacks c.callbacks) (rs : List Report)
    (m : Machine Logged) :
    (engine.reported m rs).vm = m.vm ∧ (engine.reported m rs).host.book = m.host.book := by
  induction rs generalizing m with
  | nil => exact ⟨rfl, rfl⟩
  | cons r rest ih =>
    obtain ⟨vm, book⟩ := ih (m.onHost (engine.callbacks.report r)).2
    refine ⟨vm, book.trans ?_⟩
    rw [heard]
    rfl

/-- What the host is told of a run, with the fault that ended it. -/
def Told (C : Course Logged) : Except InterpretError Unit → Machine Logged → Prop
  | .error (.runtime e), m => C.fault e.fault e.trace m.vm.modules m.host
  | _, m => C.going m.vm.modules m.host

theorem reported_told {e : RuntimeError} (heard : engine.callbacks = callbacks c.callbacks)
    (fault : (afterCourse c start body around).fault e.fault e.trace m.vm.modules m.host) :
    (afterCourse c start body around).Ended (Told (afterCourse c start body around))
      ((do
        engine.reportAll e.reports
        return .error (.runtime e) : Live Logged (Except InterpretError Unit)) m) := by
  rw [Engine.reporting_run]
  obtain ⟨vm, book⟩ := reported_same heard e.reports m
  obtain ⟨inner, entry, trace, named, active, tallies⟩ := fault
  refine ⟨inner, entry, trace, named, ?_, ?_⟩
  · rw [book]
    exact active
  · rw [vm, book]
    exact tallies

theorem interpret_told (runs : ∀ around, (course c start around).Runs engine)
    (heard : engine.callbacks = callbacks c.callbacks) (moduleName source : String)
    (going : (course c start around).going m.vm.modules m.host) :
    (afterCourse c start (.ofModule moduleName) around).Ended
      (Told (afterCourse c start (.ofModule moduleName) around))
      (interpret engine moduleName source m) := by
  unfold interpret Engine.interpretBy
  cases parseModule source with
  | error errors =>
    change (course c start around).Ended _ _
    exact (Engine.reportAll_keeps (runs around) _ m going).bind fun _ _ going => going
  | ok statements =>
    have opened := (course_lawful c start around).openModule going moduleName
    have ran := within_after (x := runModule engine moduleName statements)
      (m := m.onVm fun vm => { vm.openModule moduleName with depth := 0 }) opened
      (runModule_keeps moduleName statements (runs _) _)
    refine ran.bind fun result n settled => ?_
    cases result with
    | ok _ => exact settled
    | error e => exact reported_told heard settled

theorem call_told (runs : ∀ around, (course c start around).Runs engine)
    (heard : engine.callbacks = callbacks c.callbacks) (signature : String)
    (going : (course c start around).going m.vm.modules m.host) :
    (course c start around).Ended (Told (course c start around)) (engine.call signature m) := by
  rw [Engine.call_run]
  refine Course.Ended.bind (Engine.sent_keeps (runs around) signature m going)
    fun result n settled => ?_
  cases result with
  | ok v => exact settled
  | error e =>
    dsimp only
    rw [Engine.reporting_run]
    obtain ⟨vm, book⟩ := reported_same heard e.reports n
    change _ ∧ _
    rw [vm, book]
    exact settled

theorem told_after {r : Except InterpretError Unit} {n : Machine Logged}
    (told : Told (afterCourse c start body around) r n) : Told (course c start around) r n := by
  cases r with
  | ok _ => exact told
  | error e =>
    cases e with
    | compile errors => exact told
    | runtime e => exact bodyCourse_fault told

/-- Work with its bodies counted on their own leaves those around it as they were. -/
theorem apart_keeps {x : Live Logged α}
    (h : (course c start []).going m.vm.modules (noted (.withActive []) m).host →
      (course c start []).Ended (fun _ n => Tallies c start n.vm.modules n.host.book)
        (x (noted (.withActive []) m)))
    (going : (course c start around).going m.vm.modules m.host) :
    (course c start around).Ended
      (fun _ n => (course c start around).going n.vm.modules n.host) (apart x m) := by
  have ended := h ⟨rfl, going.2.withActive []⟩
  change (course c start []).Ended _ (EStateM.bind x _ (noted (.withActive []) m))
  exact Course.Ended.bind ended fun _ n tallies => ⟨going.1, tallies.withActive _⟩

theorem told_tallies {r : Except InterpretError Unit} {n : Machine Logged}
    (told : Told (course c start around) r n) : Tallies c start n.vm.modules n.host.book := by
  cases r with
  | ok _ => exact told.2
  | error e => cases e <;> exact told.2

theorem lift_keeps {act : DeskRun α}
    (h : ∀ m, ∃ a n, act m = .ok a n ∧ n.vm.modules = m.vm.modules) :
    LiveKeeps (course c start around) (lift act) := by
  intro m going
  obtain ⟨a, n, ran, modules⟩ := h (plain m)
  unfold lift
  rw [ran]
  change _ ∧ Tallies _ _ n.vm.modules _
  rw [modules]
  exact going

theorem outcome_keeps {onOk : DeskRun Reply}
    (h : ∀ m, ∃ a n, onOk m = .ok a n ∧ n.vm.modules = m.vm.modules)
    (result : Except InterpretError Unit) (m : Machine Desk) :
    ∃ a n, Desk.outcome onOk result m = .ok a n ∧ n.vm.modules = m.vm.modules := by
  cases result with
  | ok _ => exact h m
  | error e => exact ⟨_, m, rfl, rfl⟩

theorem serve_keeps (runs : ∀ around, (course c start around).Runs engine)
    (heard : engine.callbacks = callbacks c.callbacks) (r : Request) :
    LiveKeeps (course c start around) (serve c engine r) := by
  cases kind : r.runsScript with
  | false =>
    have same : serve c engine r = lift (Desk.serve (c.host.engine 0) r) := by
      cases r <;> first | rfl | cases kind
    rw [same]
    refine lift_keeps fun m => ?_
    obtain ⟨a, n, served, -, beyond⟩ := Desk.serve_atOnce (c.host.engine 0) (c.host.engine 0) m kind
    exact ⟨a, n, served, beyond.modules⟩
  | true =>
    cases r with
    | interpret moduleName source =>
      refine LiveKeeps.bind (fun m going => apart_keeps (fun entered => ?_) going) fun result => ?_
      · exact (interpret_told runs heard moduleName source entered).imp fun _ _ told =>
          told_tallies (told_after told)
      · exact lift_keeps (outcome_keeps (fun m => ⟨_, m, rfl, rfl⟩) result)
    | call handle =>
      refine .get_bind fun m => ?_
      cases m.host.desk.calls.get? handle with
      | none => exact .pure _
      | some signature =>
        refine LiveKeeps.bind (fun m going => apart_keeps (fun entered => ?_) going)
          fun result => ?_
        · exact (call_told runs heard signature entered).imp fun _ _ => told_tallies
        · exact lift_keeps fun m => outcome_keeps (fun m' => ⟨_, m', rfl, rfl⟩) result m
    | _ => cases kind

theorem hold_keeps (runs : ∀ around, (course c start around).Runs engine)
    (heard : engine.callbacks = callbacks c.callbacks) (d : Dialogue) :
    LiveKeeps (course c start around) (hold (serve c engine) d) := by
  induction d with
  | done => exact .pure ()
  | ask r next ih => exact (serve_keeps runs heard r).bind ih
  | note change next ih =>
    have changed : LiveKeeps (course c start around) (lift (Desk.onDesk change)) :=
      lift_keeps fun m => ⟨(), _, rfl, rfl⟩
    exact changed.bind fun _ => .get_bind fun m => ih m.host.desk

/-! ### The interpreter -/

/-- The interpreter with a logbook stays on course, at every depth and inside all bodies. -/
theorem engine_runs (c : Conduct) (start : Table Bindings) (depth : Nat)
    (around : List Activation) : (course c start around).Runs (Logged.engine c depth) := by
  induction depth generalizing around with
  | zero =>
    exact ⟨course_lawful c start around, fun _ => course_follows _, fun _ => course_follows _,
      fun _ => course_follows _, fun _ _ => course_follows _, fun _ _ _ _ going => going.2,
      fun going _ _ => going.2⟩
  | succ depth ih =>
    have called (around : List Activation) (f : HostFunction) (v : Value) (vs : List Value) :
        RunKeeps (course c start around) (callForeign (host c) (Logged.engine c depth) f v vs) :=
      callForeign_keeps (course_lawful c start around) f v vs (hold_keeps ih rfl (c.dialogue f))
    refine ⟨course_lawful c start around, fun _ => course_follows _, fun _ => course_follows _,
      fun _ => course_follows _, fun _ _ => course_follows _, fun receiver signature args => ?_,
      fun going name absent => ?_⟩
    · change RunKeeps _ (perform c (depth + 1) (.send receiver signature args))
      rw [perform_send]
      exact invokeBy_keeps (ih around) (course_raises c start around) (called around)
        (fun decl => nested_keeps (course_lawful c start around) (method_keeps ih decl _ _))
        (fun id decl => nested_keeps (course_lawful c start around)
          (making_keeps ih (called around) id decl _)) receiver signature args
    · exact RunKeeps.bind_at (loading_keeps ih rfl going absent) fun _ => .pure _

end Logged
end ScriptHost
