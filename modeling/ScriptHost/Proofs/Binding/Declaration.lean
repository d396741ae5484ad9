import ScriptHost.Program.Surroundings
import ScriptHost.Proofs.Tables

/-! Class declarations in a program. What a declaration is bound to depends on the record of the
machine alone: `VmRecord.bound` is the class object that it makes, or the member that has nothing to
be bound to. Running the declaration adds that class object, or stops without a trace but the fault
that is remembered. -/

namespace ScriptHost

/-- The key that a method declaration of a class is looked up under. -/
def MethodDecl.key (decl : MethodDecl) (className : String) : String :=
  canonicalSignature className decl.isStatic decl.signature

namespace ClassObject

def enter (c : ClassObject) (decl : MethodDecl) (m : Method) : ClassObject :=
  if decl.onClass then { c with statics := c.statics.set decl.signature m }
  else { c with methods := c.methods.set decl.signature m }

def table (c : ClassObject) (onClass : Bool) : MethodTable :=
  if onClass then c.statics else c.methods

theorem enter_table (c : ClassObject) (decl : MethodDecl) (m : Method) (onClass : Bool)
    (signature : String) :
    ((c.enter decl m).table onClass).get? signature =
      if decl.onClass = onClass ∧ decl.signature = signature then some m
      else (c.table onClass).get? signature := by
  unfold enter table
  cases decl.onClass <;> cases onClass
  · simp [Table.get?_set, eq_comm]
  · simp
  · simp
  · simp [Table.get?_set, eq_comm]

theorem enter_rest (c : ClassObject) (decl : MethodDecl) (m : Method) :
    (c.enter decl m).name = c.name ∧ (c.enter decl m).moduleName = c.moduleName ∧
      (c.enter decl m).isForeign = c.isForeign ∧ (c.enter decl m).binding = c.binding := by
  unfold enter
  split <;> exact ⟨rfl, rfl, rfl, rfl⟩

end ClassObject

/-- Why a class declaration makes no class. -/
inductive Refusal where
  /-- A foreign class that is not registered, or is declared outside the entry module. -/
  | panic (message : String)
  /-- A foreign class that was registered without anything to make its objects. -/
  | noAllocator
  /-- A foreign member that has nothing to be bound to. -/
  | member (decl : MethodDecl) (f : BoundaryFault)

namespace VmRecord

/-- What a method declaration stands for: a foreign one for what was registered under its key, in
the entry module alone. -/
def method (record : VmRecord) (moduleName className : String) (decl : MethodDecl) :
    Except BoundaryFault Method :=
  if decl.isForeign then
    if moduleName = entryModule then
      match record.methods.get? (decl.key className) with
      | some f => .ok (.foreign f)
      | none => .error (.unresolved (decl.key className))
    else .error (.untrusted moduleName (decl.key className))
  else if decl.kind = .constructor then .ok (.constructor decl)
  else .ok (.script decl)

/-- A class object with its methods bound one after the other, or the first that could not be, and
why. -/
def bound (record : VmRecord) : ClassObject → List MethodDecl →
    Except (MethodDecl × BoundaryFault) ClassObject
  | c, [] => .ok c
  | c, decl :: rest =>
    match record.method c.moduleName c.name decl with
    | .ok m => record.bound (c.enter decl m) rest
    | .error f => .error (decl, f)

/-- What a class declaration gives its class to make objects with; else the message of a panic, or
nothing where there is no allocator. -/
def classBinding (record : VmRecord) (moduleName : String) (decl : ClassDecl) :
    Except (Option String) ForeignBinding :=
  if decl.isForeign then
    if moduleName = entryModule then
      match record.classes.get? decl.name with
      | some binding => if binding.allocate.isNone then .error none else .ok binding
      | none => .error (some ("foreign class " ++ decl.name ++ " not found"))
    else .error (some (BoundaryFault.untrusted moduleName decl.name).message)
  else .ok .none

/-- The class object that a declaration makes, or why it makes none. -/
def declared (record : VmRecord) (moduleName : String) (decl : ClassDecl) :
    Except Refusal ClassObject :=
  match record.classBinding moduleName decl with
  | .error (some message) => .error (.panic message)
  | .error none => .error .noAllocator
  | .ok binding =>
    match record.bound ⟨decl.name, moduleName, decl.isForeign, [], [], binding⟩ decl.methods with
    | .error (decl, f) => .error (.member decl f)
    | .ok c => .ok c

end VmRecord

variable {engine : Engine Surroundings} {m : Machine Surroundings}

def Machine.remembering (m : Machine Surroundings) (f : BoundaryFault) : Machine Surroundings :=
  { m with host := m.host.setPending (some f) }

theorem bindMethod_run (callbacks : engine.callbacks = Surroundings.callbacks)
    (moduleName className : String) (decl : MethodDecl) :
    (bindMethod engine moduleName className decl).run m =
      match m.host.record.method moduleName className decl with
      | .ok method => .ok (.ok method) m
      | .error f =>
        .ok (.error ⟨.unknownForeignMethod decl.signature className moduleName, []⟩)
          (m.remembering f) := by
  unfold bindMethod VmRecord.method
  rw [callbacks]
  by_cases foreign : decl.isForeign = true
  · rw [if_pos foreign, if_pos foreign]
    change (match (m.host.bindMethod ⟨moduleName, className, decl.isStatic, decl.signature⟩).1 with
      | some f => return .foreign f
      | none => fault (.unknownForeignMethod decl.signature className moduleName) :
        Run Surroundings Method).run { m with
          host := (m.host.bindMethod ⟨moduleName, className, decl.isStatic, decl.signature⟩).2 } = _
    unfold Surroundings.bindMethod
    by_cases entry : moduleName = entryModule
    · rw [if_pos entry, if_pos entry]
      change (match (match m.host.record.methods.get? (decl.key className) with
        | some f => (some f, m.host)
        | none => (none, m.host.setPending (some (.unresolved (decl.key className)))) :
          Option HostFunction × Surroundings).1 with
        | some f => _
        | none => _ : Run Surroundings Method).run { m with
          host := (match m.host.record.methods.get? (decl.key className) with
            | some f => (some f, m.host)
            | none => (none, m.host.setPending (some (.unresolved (decl.key className)))) :
              Option HostFunction × Surroundings).2 } = _
      cases m.host.record.methods.get? (decl.key className) with
      | some f => rfl
      | none => rfl
    · rw [if_neg entry, if_neg entry]
      rfl
  · rw [if_neg foreign, if_neg foreign]
    split <;> rfl

theorem bindMethods_run (callbacks : engine.callbacks = Surroundings.callbacks) (c : ClassObject)
    (decls : List MethodDecl) :
    (bindMethods engine c decls).run m =
      match m.host.record.bound c decls with
      | .ok c => .ok (.ok c) m
      | .error (decl, f) =>
        .ok (.error ⟨.unknownForeignMethod decl.signature c.name c.moduleName, []⟩)
          (m.remembering f) := by
  induction decls generalizing c with
  | nil => rfl
  | cons decl rest ih =>
    change EStateM.bind (bindMethod engine c.moduleName c.name decl).run _ m = _
    unfold EStateM.bind VmRecord.bound
    rw [bindMethod_run callbacks]
    cases m.host.record.method c.moduleName c.name decl with
    | error f => rfl
    | ok method =>
      have entered := ih (c.enter decl method)
      obtain ⟨name, moduleName, _, _⟩ := c.enter_rest decl method
      rw [name, moduleName] at entered
      exact entered

private theorem bindClass_foreign (callbacks : engine.callbacks = Surroundings.callbacks)
    (moduleName : String) {decl : ClassDecl} (foreign : decl.isForeign = true) :
    (bindClass engine moduleName decl).run m =
      (match m.host.bindClass moduleName decl.name with
      | .error message => throwThe Halt (.panic message)
      | .ok binding =>
        if binding.allocate.isNone then fault (.unknownForeignClass decl.name moduleName)
        else return binding : Run Surroundings ForeignBinding).run m := by
  unfold bindClass
  rw [callbacks, if_pos foreign]
  rfl

theorem bindClass_run (callbacks : engine.callbacks = Surroundings.callbacks)
    (moduleName : String) (decl : ClassDecl) :
    (bindClass engine moduleName decl).run m =
      match m.host.record.classBinding moduleName decl with
      | .ok binding => .ok (.ok binding) m
      | .error (some message) => .error (.panic message) m
      | .error none => .ok (.error ⟨.unknownForeignClass decl.name moduleName, []⟩) m := by
  unfold VmRecord.classBinding
  by_cases foreign : decl.isForeign = true
  · rw [bindClass_foreign callbacks moduleName foreign, if_pos foreign]
    unfold Surroundings.bindClass
    by_cases entry : moduleName = entryModule
    · rw [if_pos entry, if_pos entry]
      cases m.host.record.classes.get? decl.name with
      | none => rfl
      | some binding =>
        dsimp only
        split <;> rfl
    · rw [if_neg entry, if_neg entry]
      rfl
  · unfold bindClass
    rw [if_neg foreign, if_neg foreign]
    rfl

/-- A class declaration run: it adds the class object that the record leads to, and nothing else. -/
theorem defineClass_run (callbacks : engine.callbacks = Surroundings.callbacks)
    (moduleName : String) (decl : ClassDecl) :
    (defineClass engine moduleName decl).run m =
      match m.host.record.declared moduleName decl with
      | .ok c => .ok (.ok m.heap.classes.size) { m with heap := (m.heap.addClass c).2 }
      | .error (.panic message) => .error (.panic message) m
      | .error .noAllocator => .ok (.error ⟨.unknownForeignClass decl.name moduleName, []⟩) m
      | .error (.member d f) =>
        .ok (.error ⟨.unknownForeignMethod d.signature decl.name moduleName, []⟩)
          (m.remembering f) := by
  change EStateM.bind (bindClass engine moduleName decl).run _ m = _
  unfold EStateM.bind VmRecord.declared
  rw [bindClass_run callbacks]
  cases m.host.record.classBinding moduleName decl with
  | error refusal => cases refusal <;> rfl
  | ok binding =>
    change EStateM.bind (bindMethods engine _ decl.methods).run _ m = _
    unfold EStateM.bind
    rw [bindMethods_run callbacks]
    dsimp only
    cases m.host.record.bound _ decl.methods with
    | error refused => rfl
    | ok c => rfl

def Frame.declaring (f : Frame) (name : String) (v : Value) : Frame :=
  match f.scopes with
  | [] => f
  | scope :: outer => { f with scopes := scope.set name v :: outer }

def Machine.declaring (m : Machine Surroundings) (f : Frame) (name : String) (v : Value) :
    Machine Surroundings :=
  match f.scopes with
  | [] => m.onVm (·.define f.moduleName name v)
  | _ => m

theorem declare_run (name : String) (v : Value) (f : Frame) :
    (Script.declare name v).run.run f m =
      .ok (.ok (), f.declaring name v) (m.declaring f name v) := by
  change (match f.scopes with
    | [] => modifyThe (Machine Surroundings) (·.onVm (·.define f.moduleName name v))
    | scope :: outer => modifyThe Frame fun f => { f with scopes := scope.set name v :: outer } :
      Script Surroundings Unit).run.run f m = _
  unfold Frame.declaring Machine.declaring
  cases f.scopes <;> rfl

/-- A class declaration executed: its class object is declared under its name, or there is neither
an object nor a name. -/
theorem exec_classDecl_run (callbacks : engine.callbacks = Surroundings.callbacks)
    (decl : ClassDecl) (f : Frame) :
    (exec engine (.classDecl decl)).run.run f m =
      match m.host.record.declared f.moduleName decl with
      | .ok c =>
        .ok (.ok .normal,
            { f with line := decl.span.line }.declaring decl.name
              (.classObject m.heap.classes.size))
          ({ m with heap := (m.heap.addClass c).2 }.declaring f decl.name
            (.classObject m.heap.classes.size))
      | .error (.panic message) => .error (.panic message) m
      | .error .noAllocator =>
        .ok (.error ⟨.unknownForeignClass decl.name f.moduleName, []⟩,
          { f with line := decl.span.line }) m
      | .error (.member d why) =>
        .ok (.error ⟨.unknownForeignMethod d.signature decl.name f.moduleName, []⟩,
          { f with line := decl.span.line }) (m.remembering why) := by
  rw [exec]
  change EStateM.bind (EStateM.bind ((defineClass engine f.moduleName decl).run) _) _ m = _
  unfold EStateM.bind
  rw [defineClass_run callbacks]
  cases m.host.record.declared f.moduleName decl with
  | error refusal => cases refusal <;> rfl
  | ok c =>
    change EStateM.bind ((Script.declare decl.name
      (.classObject m.heap.classes.size)).run.run { f with line := decl.span.line }) _
      { m with heap := (m.heap.addClass c).2 } = _
    unfold EStateM.bind
    rw [declare_run]
    rfl

/-! ### What a declaration makes -/

/-- Of the methods declared with one signature, the one that stands: the last. -/
def ClassDecl.member? (decl : ClassDecl) (onClass : Bool) (signature : String) :
    Option MethodDecl :=
  decl.methods.reverse.find? fun d => d.onClass = onClass ∧ d.signature = signature

namespace VmRecord

variable {record : VmRecord} {c c' : ClassObject} {decl : ClassDecl} {moduleName : String}

theorem bound_rest {decls : List MethodDecl} (h : record.bound c decls = .ok c') :
    c'.name = c.name ∧ c'.moduleName = c.moduleName ∧ c'.isForeign = c.isForeign ∧
      c'.binding = c.binding := by
  induction decls generalizing c with
  | nil =>
    cases h
    exact ⟨rfl, rfl, rfl, rfl⟩
  | cons decl rest ih =>
    unfold bound at h
    cases hm : record.method c.moduleName c.name decl with
    | error f =>
      rw [hm] at h
      cases h
    | ok method =>
      rw [hm] at h
      obtain ⟨name, moduleName, isForeign, binding⟩ := ih h
      obtain ⟨name', moduleName', isForeign', binding'⟩ := c.enter_rest decl method
      exact ⟨name.trans name', moduleName.trans moduleName', isForeign.trans isForeign',
        binding.trans binding'⟩

theorem bound_table {decls : List MethodDecl} (h : record.bound c decls = .ok c')
    (onClass : Bool) (signature : String) :
    match decls.reverse.find? fun d => d.onClass = onClass ∧ d.signature = signature with
    | some d => ∃ method, record.method c.moduleName c.name d = .ok method ∧
        (c'.table onClass).get? signature = some method
    | none => (c'.table onClass).get? signature = (c.table onClass).get? signature := by
  induction decls generalizing c with
  | nil =>
    cases h
    rfl
  | cons decl rest ih =>
    unfold bound at h
    cases hm : record.method c.moduleName c.name decl with
    | error f =>
      rw [hm] at h
      cases h
    | ok method =>
      rw [hm] at h
      have later := ih h
      obtain ⟨name, moduleName, _, _⟩ := c.enter_rest decl method
      rw [name, moduleName] at later
      rw [List.reverse_cons, List.find?_append]
      cases found : rest.reverse.find? fun d => d.onClass = onClass ∧ d.signature = signature with
      | some d =>
        rw [found] at later
        exact later
      | none =>
        rw [found] at later
        dsimp only at later
        rw [c.enter_table] at later
        rw [Option.none_or, List.find?_singleton]
        by_cases this : decl.onClass = onClass ∧ decl.signature = signature
        · rw [if_pos this] at later
          rw [if_pos (decide_eq_true this)]
          exact ⟨method, hm, later⟩
        · rw [if_neg this] at later
          rw [if_neg (by simpa using this)]
          exact later

/-- The member that stops a declaration is the first that has nothing to be bound to. -/
theorem bound_error_iff {decls : List MethodDecl} {d : MethodDecl} {f : BoundaryFault} :
    record.bound c decls = .error (d, f) ↔
      ∃ before after, decls = before ++ d :: after ∧
        (∀ b ∈ before, ∃ method, record.method c.moduleName c.name b = .ok method) ∧
        record.method c.moduleName c.name d = .error f := by
  induction decls generalizing c with
  | nil =>
    constructor
    · intro h
      cases h
    · rintro ⟨before, after, h, -, -⟩
      cases before <;> cases h
  | cons decl rest ih =>
    unfold bound
    cases hm : record.method c.moduleName c.name decl with
    | error g =>
      constructor
      · intro h
        cases h
        exact ⟨[], rest, rfl, nofun, hm⟩
      · rintro ⟨before, after, h, ok, error⟩
        cases before with
        | nil =>
          cases h
          rw [hm] at error
          cases error
          rfl
        | cons b before =>
          cases h
          obtain ⟨method, bound⟩ := ok _ List.mem_cons_self
          rw [hm] at bound
          cases bound
    | ok method =>
      obtain ⟨name, moduleName, _, _⟩ := c.enter_rest decl method
      dsimp only
      rw [ih, name, moduleName]
      constructor
      · rintro ⟨before, after, rfl, ok, error⟩
        refine ⟨decl :: before, after, rfl, ?_, error⟩
        rintro b (_ | ⟨_, hb⟩)
        · exact ⟨method, hm⟩
        · exact ok b hb
      · rintro ⟨before, after, h, ok, error⟩
        cases before with
        | nil =>
          cases h
          rw [hm] at error
          cases error
        | cons b before =>
          cases h
          exact ⟨before, after, rfl, fun b hb => ok b (List.mem_cons_of_mem _ hb), error⟩

theorem method_error {className : String} {d : MethodDecl} {f : BoundaryFault}
    (h : record.method moduleName className d = .error f) :
    d.isForeign ∧ f = (if moduleName = entryModule then .unresolved (d.key className)
      else .untrusted moduleName (d.key className)) := by
  unfold method at h
  split at h
  · refine ⟨‹_›, ?_⟩
    split at h
    · rename_i entry
      rw [if_pos entry]
      split at h
      · cases h
      · cases h
        rfl
    · rename_i other
      rw [if_neg other]
      cases h
      rfl
  · split at h <;> cases h

/-- A declaration stops at a member when its class has a binding and no member before it stops. -/
theorem declared_member_iff {d : MethodDecl} {f : BoundaryFault} :
    record.declared moduleName decl = .error (.member d f) ↔
      (∃ binding, record.classBinding moduleName decl = .ok binding) ∧
      ∃ before after, decl.methods = before ++ d :: after ∧
        (∀ b ∈ before, ∃ method, record.method moduleName decl.name b = .ok method) ∧
        record.method moduleName decl.name d = .error f := by
  unfold declared
  cases record.classBinding moduleName decl with
  | error refusal =>
    constructor
    · intro h
      cases refusal <;> cases h
    · rintro ⟨⟨_, h⟩, -⟩
      cases h
  | ok binding =>
    have stops :
        record.bound ⟨decl.name, moduleName, decl.isForeign, [], [], binding⟩ decl.methods =
      .error (d, f) ↔ _ := bound_error_iff
    rw [← stops]
    dsimp only
    constructor
    · intro h
      refine ⟨⟨binding, rfl⟩, ?_⟩
      split at h
      · cases h
        assumption
      · cases h
    · rintro ⟨-, h⟩
      rw [h]

end VmRecord
end ScriptHost
