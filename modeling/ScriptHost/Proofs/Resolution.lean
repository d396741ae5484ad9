import ScriptHost.Proofs.Binding.History

/-! What foreign members run. A class declaration of the entry module binds each of its foreign
members to the routine that was registered last under the key of the member, and a foreign class to
the maker that was registered last under its name; or it stops before there is a class. What a class
was bound to it keeps: its members run that and nothing else, whatever is registered later, and
whichever machine they are called through. -/

namespace ScriptHost

/-! ### Calls -/

/-- What a script gets from an entry of the registration table, called on a window of its own. -/
def Entry.answer (e : Entry) (receiver : Value) (args : List Value) (m : Machine Surroundings) :
    EStateM.Result Halt (Machine Surroundings) (Except RuntimeError Value) :=
  .ok (Surroundings.runEntry e (m.windowed receiver args)).vm.verdict
    ((Surroundings.runEntry e (m.windowed receiver args)).closed m.vm)

variable {engine : Engine Surroundings} {m : Machine Surroundings} {f : HostFunction} {e : Entry}

theorem callForeign_leads (leads : m.host.registry.Leads f e) (receiver : Value)
    (args : List Value) :
    (callForeign Surroundings.host engine f receiver args).run m = e.answer receiver args m := by
  obtain ⟨point, rfl, entry⟩ := leads
  rw [callForeign_run, Surroundings.runs_entry (m := m.windowed receiver args) entry]
  rfl

/-- A message is answered by what it means for the receiver. -/
theorem perform_send (depth : Nat) (m : Machine Surroundings) (receiver : Value)
    (signature : String) (args : List Value) :
    (Surroundings.host.perform (depth + 1) (.send receiver signature args)).run m =
      (match m.method? receiver signature with
        | none => Primitive.answer (answerAnyway m receiver signature args)
        | some (.primitive p) => p.apply (Surroundings.host.engine depth) receiver args
        | some (.foreign f) =>
          callForeign Surroundings.host (Surroundings.host.engine depth) f receiver args
        | some (.script decl) =>
          nested (callScript (Surroundings.host.engine depth) decl receiver args)
        | some (.constructor decl) =>
          match receiver with
          | .classObject id =>
            nested (construct Surroundings.host (Surroundings.host.engine depth) id decl args)
          | _ => fault .constructorOnObject : Run Surroundings Value).run m := rfl

theorem perform_foreign (leads : m.host.registry.Leads f e) {receiver : Value} {signature : String}
    (found : m.method? receiver signature = some (.foreign f)) (args : List Value) (depth : Nat) :
    (Surroundings.host.perform (depth + 1) (.send receiver signature args)).run m =
      e.answer receiver args m := by
  rw [perform_send, found]
  exact callForeign_leads leads receiver args

theorem newObject_leads {maker : Maker} (leads : m.host.registry.Leads f (.maker maker))
    {id : ClassId} {c : ClassObject} (found : m.heap.class? id = some c) (foreign : c.isForeign)
    (made : c.binding.allocate = some f) (args : List Value) :
    (newObject Surroundings.host engine id c args).run m =
      match maker.make with
      | .ok payload =>
        .ok (.ok (.foreign m.heap.foreigns.size))
          { m with heap := (m.heap.addForeign id payload).2 }
      | .error message =>
        .ok (.error ⟨.aborted (BoundaryFault.failed message).message, []⟩)
          (m.remembering (.failed message)) := by
  have slot : (m.windowed (.classObject id) args).slotForeignClass? 0 = some id :=
    Machine.slotForeignClass?_eq rfl found foreign
  unfold newObject
  rw [if_pos foreign, made]
  change EStateM.bind (callForeign Surroundings.host engine f (.classObject id) args).run _ m = _
  unfold EStateM.bind
  rw [callForeign_leads leads]
  unfold Entry.answer
  rw [Surroundings.runEntry_maker maker slot]
  cases maker.make with
  | error message => rfl
  | ok payload =>
    dsimp only
    rw [Vm.setSlot_verdict]
    rfl

/-! ### Declarations -/

/-- A class object bound to what tables of routines and makers say. -/
structure ClassDecl.Resolved (decl : ClassDecl) (reg : Registry) (routines : Table Routine)
    (makers : Table Maker) (c : ClassObject) : Prop where
  name : c.name = decl.name
  moduleName : c.moduleName = entryModule
  isForeign : c.isForeign = decl.isForeign
  member : ∀ {onClass signature d}, decl.member? onClass signature = some d → d.isForeign →
    ∃ f r, (c.table onClass).get? signature = some (.foreign f) ∧ reg.Leads f (.routine r) ∧
      routines.get? (d.key decl.name) = some r
  maker : decl.isForeign →
    ∃ maker, c.binding.MadeBy reg maker ∧ makers.get? decl.name = some maker

/-- The first foreign member of a declaration that no routine was registered for. -/
def ClassDecl.unresolved? (decl : ClassDecl) (routines : Table Routine) : Option MethodDecl :=
  decl.methods.find? fun d => d.isForeign && !routines.has (d.key decl.name)

namespace VmRecord

variable {record : VmRecord} {reg : Registry} {routines : Table Routine} {makers : Table Maker}
  {decl : ClassDecl}

theorem declared_unregistered
    (classes : record.classes.Follows (fun b maker => b.MadeBy reg maker) makers)
    (foreign : decl.isForeign) (unknown : makers.get? decl.name = none) :
    record.declared entryModule decl =
      .error (.panic ("foreign class " ++ decl.name ++ " not found")) := by
  have unbound : record.classes.get? decl.name = none := classes.none_iff.mpr unknown
  unfold declared classBinding
  rw [if_pos foreign, if_pos rfl, unbound]

/-- With a maker for a foreign class there is a binding to declare it with. -/
theorem classBinding_registered
    (classes : record.classes.Follows (fun b maker => b.MadeBy reg maker) makers)
    (known : decl.isForeign → makers.has decl.name) :
    ∃ binding, record.classBinding entryModule decl = .ok binding ∧
      (decl.isForeign → ∃ maker, binding.MadeBy reg maker ∧
        makers.get? decl.name = some maker) := by
  unfold classBinding
  by_cases foreign : decl.isForeign = true
  · rw [if_pos foreign, if_pos rfl]
    obtain ⟨maker, registered⟩ := Option.isSome_iff_exists.mp (known foreign)
    obtain ⟨b, there, made⟩ := classes.of_right registered
    rw [there]
    obtain ⟨f, rfl, leads⟩ := made
    exact ⟨_, rfl, fun _ => ⟨maker, ⟨f, rfl, leads⟩, registered⟩⟩
  · rw [if_neg foreign]
    exact ⟨_, rfl, fun isForeign => absurd isForeign foreign⟩

/-- A member is bound to the first routine that its key leads to. -/
theorem method_entry
    (methods : record.methods.Follows (fun f r => reg.Leads f (.routine r)) routines)
    {className : String} {d : MethodDecl} (foreign : d.isForeign) :
    (∀ r, routines.get? (d.key className) = some r → ∃ f, reg.Leads f (.routine r) ∧
      record.method entryModule className d = .ok (.foreign f)) ∧
    (routines.get? (d.key className) = none →
      record.method entryModule className d = .error (.unresolved (d.key className))) := by
  unfold method
  rw [if_pos foreign, if_pos rfl]
  refine ⟨fun r registered => ?_, fun unknown => ?_⟩
  · obtain ⟨f, there, leads⟩ := methods.of_right registered
    rw [there]
    exact ⟨f, leads, rfl⟩
  · rw [methods.none_iff.mpr unknown]

theorem declared_unresolved
    (methods : record.methods.Follows (fun f r => reg.Leads f (.routine r)) routines)
    (classes : record.classes.Follows (fun b maker => b.MadeBy reg maker) makers)
    (known : decl.isForeign → makers.has decl.name) {d : MethodDecl}
    (first : decl.unresolved? routines = some d) :
    record.declared entryModule decl = .error (.member d (.unresolved (d.key decl.name))) := by
  obtain ⟨unresolved, before, after, members, resolved⟩ := List.find?_eq_some_iff_append.mp first
  rw [Bool.and_eq_true, Bool.not_eq_true'] at unresolved
  obtain ⟨foreign, unknown⟩ := unresolved
  obtain ⟨binding, bound, -⟩ := classBinding_registered classes known
  refine declared_member_iff.mpr ⟨⟨binding, bound⟩, before, after, members, fun b hb => ?_, ?_⟩
  · by_cases own : b.isForeign = true
    · have there : routines.has (b.key decl.name) := by simpa [own] using resolved b hb
      obtain ⟨r, registered⟩ := Option.isSome_iff_exists.mp there
      obtain ⟨f, -, method⟩ := (method_entry methods own).1 r registered
      exact ⟨_, method⟩
    · unfold method
      rw [if_neg own]
      split <;> exact ⟨_, rfl⟩
  · exact (method_entry methods foreign).2
      (Option.not_isSome_iff_eq_none.mp (Bool.eq_false_iff.mp unknown))

/-- With a routine for every foreign member there is a class, bound to them. -/
theorem declared_resolved
    (methods : record.methods.Follows (fun f r => reg.Leads f (.routine r)) routines)
    (classes : record.classes.Follows (fun b maker => b.MadeBy reg maker) makers)
    (known : decl.isForeign → makers.has decl.name) (all : decl.unresolved? routines = none) :
    ∃ c, record.declared entryModule decl = .ok c ∧ decl.Resolved reg routines makers c := by
  obtain ⟨binding, bound, maker⟩ := classBinding_registered classes known
  have registered {d : MethodDecl} (member : d ∈ decl.methods) (foreign : d.isForeign) :
      ∃ r, routines.get? (d.key decl.name) = some r := by
    have there : routines.has (d.key decl.name) := by
      simpa [foreign] using List.find?_eq_none.mp all d member
    exact Option.isSome_iff_exists.mp there
  have made : ∃ c, record.declared entryModule decl = .ok c := by
    unfold declared
    rw [bound]
    dsimp only
    cases stops : record.bound ⟨decl.name, entryModule, decl.isForeign, [], [], binding⟩
      decl.methods with
    | ok c => exact ⟨c, rfl⟩
    | error refused =>
      obtain ⟨d, why⟩ := refused
      obtain ⟨before, after, members, -, stopped⟩ := bound_error_iff.mp stops
      obtain ⟨foreign, -⟩ := method_error stopped
      have member : d ∈ decl.methods := by
        rw [members]
        exact List.mem_append_right _ List.mem_cons_self
      obtain ⟨r, there⟩ := registered member foreign
      obtain ⟨f, -, method⟩ := (method_entry methods foreign).1 r there
      cases method.symm.trans stopped
  obtain ⟨c, declared⟩ := made
  obtain ⟨name, moduleName, isForeign, bound', members⟩ := declared_ok declared
  rw [bound] at bound'
  cases bound'
  refine ⟨c, declared, name, moduleName, isForeign, ?_, maker⟩
  intro onClass signature d stands foreign
  obtain ⟨r, there⟩ := registered (List.mem_reverse.mp (List.mem_of_find?_eq_some stands)) foreign
  obtain ⟨f, leads, method⟩ := (method_entry methods foreign).1 r there
  have entered := members onClass signature
  rw [stands] at entered
  obtain ⟨x, bound, entered⟩ := entered
  rw [method] at bound
  cases bound
  exact ⟨f, r, entered, leads, there⟩

end VmRecord

/-! ### Sessions -/

namespace Program

variable {texts : Texts} {p : Program} {name : String}

/-- At each moment of the work on a machine its names are those that the history tells of. -/
theorem Recalls.moment {h : History} (known : p.Recalls h) {m : Machine Surroundings}
    (moment : p.Moment texts name m) :
    p.Methods m.host.record.methods (h.methods name) ∧
      p.Classes m.host.record.classes (h.classes name) := by
  obtain ⟨vm, record, found, methods, classes⟩ := moment.names
  rw [methods, classes]
  refine known name record.methods record.classes ?_
  unfold names
  rw [found]
  rfl

/-- In every session a class declaration of the entry module binds its foreign members to the
routines registered last under their keys, and a foreign class to the maker registered last under
its name. A foreign class without a maker is a panic; the first member without a routine is a fault
that is reported with its key; there is no new class then, nor a new name. Whatever is done later,
through whichever machine: a member runs the routine that it was bound to, and a class asks the
maker that it was bound to. -/
theorem members_bound_when_declared (files : Files) (ss : List Step) :
    (∀ (name : String) (vm : Vm) (record : VmRecord),
      (after files ss).machines.get? name = some (vm, record) →
      (after files ss).Moment (fun _ _ => True) name ((after files ss).started vm record)) ∧
    (∀ (name : String) (m : Machine Surroundings) (depth : Nat) (frame : Frame) (decl : ClassDecl),
      (after files ss).Moment (fun _ _ => True) name m → frame.moduleName = entryModule →
      (decl.isForeign → ¬((history files ss).classes name).has decl.name →
        (exec (Surroundings.host.engine depth) (.classDecl decl)).run.run frame m =
          .error (.panic ("foreign class " ++ decl.name ++ " not found")) m) ∧
      ((decl.isForeign → ((history files ss).classes name).has decl.name) →
        (∀ d, decl.unresolved? ((history files ss).methods name) = some d →
          (exec (Surroundings.host.engine depth) (.classDecl decl)).run.run frame m =
            .ok (.error ⟨.unknownForeignMethod d.signature decl.name entryModule, []⟩,
                { frame with line := decl.span.line })
              (m.remembering (.unresolved (d.key decl.name)))) ∧
        (decl.unresolved? ((history files ss).methods name) = none →
          ∃ c, decl.Resolved (after files ss).registry ((history files ss).methods name)
              ((history files ss).classes name) c ∧
            (exec (Surroundings.host.engine depth) (.classDecl decl)).run.run frame m =
              .ok (.ok .normal,
                  { frame with line := decl.span.line }.declaring decl.name
                    (.classObject m.heap.classes.size))
                ({ m with heap := (m.heap.addClass c).2 }.declaring frame decl.name
                  (.classObject m.heap.classes.size))))) ∧
    (∀ (name : String) (m m' : Machine Surroundings) (run : Client (Except InterpretError Unit))
      (e : RuntimeError) (signature className : String),
      (after files ss).Moment (fun _ _ => True) name m → Asked (fun _ _ => True) run →
      run m = .ok (.error (.runtime e)) m' →
      e.fault = .unknownForeignMethod signature className entryModule →
      ∃ (decl : ClassDecl) (d : MethodDecl), decl.name = className ∧ d ∈ decl.methods ∧
        d.isForeign ∧ d.signature = signature ∧
        Client.settled run m = .ok (.error (.unresolved (d.key className)))
          { m' with host := m'.host.setPending none }) ∧
    (∀ (later : List Step) (name : String) (m : Machine Surroundings) (depth : Nat)
      (receiver : Value) (args : List Value) (c : ClassObject) (signature : String)
      (f : HostFunction) (r : Routine),
      (after files (ss ++ later)).Moment (fun _ _ => True) name m →
      m.heap.class? (m.classOf receiver) = some c →
      (c.table receiver.isClass).get? signature = some (.foreign f) →
      (after files ss).registry.Leads f (.routine r) →
      (Surroundings.host.perform (depth + 1) (.send receiver signature args)).run m =
        (Entry.routine r).answer receiver args m) ∧
    (∀ (later : List Step) (name : String) (m : Machine Surroundings) (depth : Nat)
      (args : List Value) (id : ClassId) (c : ClassObject) (maker : Maker),
      (after files (ss ++ later)).Moment (fun _ _ => True) name m →
      m.heap.class? id = some c → c.isForeign →
      c.binding.MadeBy (after files ss).registry maker →
      (newObject Surroundings.host (Surroundings.host.engine depth) id c args).run m =
        match maker.make with
        | .ok payload =>
          .ok (.ok (.foreign m.heap.foreigns.size))
            { m with heap := (m.heap.addForeign id payload).2 }
        | .error message =>
          .ok (.error ⟨.aborted (BoundaryFault.failed message).message, []⟩)
            (m.remembering (.failed message))) ∧
    (∀ (name : String) (m m' : Machine Surroundings) (depth : Nat) (s : Stmt)
      (frame frame' : Frame) (flow : Flow),
      (after files ss).Moment (fun _ _ => True) name m →
      (∀ decl ∈ s.declarations, Written (fun _ _ => True) frame.moduleName decl) →
      (exec (Surroundings.host.engine depth) s).run.run frame m = .ok (.ok flow, frame') m' →
      (after files ss).Moment (fun _ _ => True) name m' ∧ m.heap.KeptIn m'.heap) ∧
    (∀ (name : String) (m m' : Machine Surroundings) (depth : Nat) (a : Action) (v : Value),
      (after files ss).Moment (fun _ _ => True) name m →
      (Surroundings.host.perform depth a).run m = .ok (.ok v) m' →
      (after files ss).Moment (fun _ _ => True) name m' ∧ m.heap.KeptIn m'.heap) ∧
    ∀ later : List Step, (after files ss).heap.KeptIn (after files (ss ++ later)).heap := by
  have sound : (after files ss).Sound fun _ _ => True := sound_after fun _ _ _ => trivial
  have known := recalls_after files ss
  refine ⟨fun name vm record found => sound.moment_started found, ?_, ?_, ?_, ?_, ?_, ?_,
    fun later => (leadsTo_after files ss later).heap⟩
  · intro name m depth frame decl moment entry
    obtain ⟨methods, classes⟩ := known.moment moment
    refine ⟨fun foreign unknown => ?_, fun registered => ⟨fun d first => ?_, fun all => ?_⟩⟩
    · rw [exec_classDecl_run rfl, entry, VmRecord.declared_unregistered classes foreign
        (Option.not_isSome_iff_eq_none.mp unknown)]
    · rw [exec_classDecl_run rfl, entry,
        VmRecord.declared_unresolved methods classes registered first]
    · obtain ⟨c, declared, resolved⟩ :=
        VmRecord.declared_resolved methods classes registered all
      refine ⟨c, resolved, ?_⟩
      rw [exec_classDecl_run rfl, entry, declared]
  · intro name m m' run e signature className moment asked ran stopped
    obtain ⟨decl, d, -, named, member, foreign, signed, reported⟩ :=
      moment.unbound_reported sound asked ran stopped
    exact ⟨decl, d, named, member, foreign, signed, reported⟩
  · intro later name m depth receiver args c signature f r moment found bound leads
    have still := leads.mono (leadsTo_after files ss later).registry
    rw [← moment.registry] at still
    rw [← Machine.method?_of_table found] at bound
    exact perform_foreign still bound args depth
  · intro later name m depth args id c maker moment found foreign made
    obtain ⟨f, binding, leads⟩ := made
    have still := leads.mono (leadsTo_after files ss later).registry
    rw [← moment.registry] at still
    exact newObject_leads still found foreign (congrArg ForeignBinding.allocate binding) args
  · intro name m m' depth s frame frame' flow moment written ran
    exact moment.exec sound depth written ran
  · intro name m m' depth a v moment ran
    exact moment.perform sound depth ran

/-- A foreign class that has neither a maker nor a routine for its member. -/
def unknownClass : List Step := [
  .machine "a" false,
  .on "a" (.interpret "foreign class D \x7b\n  foreign g()\n\x7d")]

/-- The class without a maker is what stops it, not the member without a routine. -/
theorem unknownClass_not_unresolved :
    ((history noFiles unknownClass).methods "a").get? (canonicalSignature "D" false "g()") = none ∧
    ((start noFiles).steps unknownClass).1.map StepReport.panic? =
      [none, some "foreign class D not found"] ∧
    ∀ key, ((start noFiles).steps unknownClass).1[1]?.bind StepReport.fault? ≠
      some (.unresolved key) := by
  have unreported : ((start noFiles).steps unknownClass).1[1]?.bind StepReport.fault? = none := by
    decide +kernel
  refine ⟨by decide +kernel, by decide +kernel, fun key same => ?_⟩
  rw [unreported] at same
  cases same

end Program
end ScriptHost
