import ScriptHost.Program.Session
import ScriptHost.Proofs.Binding.Twin

/-! Whole sessions, run twice. From two programs that differ by guards at most, every step gives the
same report and leads to two such programs again; bindings go on holding together, every class has
its place, and no class, foreign object or entry point is lost or changes what it is. -/

namespace ScriptHost

/-! ### What a session starts with -/

theorem CoreClass.object_sound (reg : Registry) (core : CoreClass) : core.object.Sound reg where
  member found := by
    obtain ⟨p, h⟩ := table_primitive found
    cases h
  foreign isForeign := by cases isForeign
  plain _ := rfl

namespace Heap

variable {reg : Registry} {texts : Texts} {h : Heap}

theorem class?_addCore (h : Heap) (id : ClassId) :
    h.addCore.2.class? id = (h.classes.toList ++ CoreClass.all.map CoreClass.object)[id]? := by
  unfold class? addCore
  rw [← Array.getElem?_toList, Array.toList_appendList]

theorem keptIn_addCore (h : Heap) : h.KeptIn h.addCore.2 where
  classes {id c} found := by
    rw [class?_addCore, List.getElem?_append_left (class?_lt found), Array.getElem?_toList]
    exact found
  objects found := ⟨_, found, rfl, rfl⟩

theorem class?_addCore_cases {id : ClassId} {c : ClassObject}
    (found : h.addCore.2.class? id = some c) :
    h.class? id = some c ∨ ∃ core : CoreClass, c = core.object := by
  rw [class?_addCore, List.getElem?_append] at found
  split at found
  · rw [Array.getElem?_toList] at found
    exact .inl found
  · obtain ⟨core, -, same⟩ := List.mem_map.mp (List.mem_of_getElem? found)
    exact .inr ⟨core, same.symm⟩

theorem Sound.addCore (sound : h.Sound reg) : h.addCore.2.Sound reg where
  classes found := by
    obtain found | ⟨core, rfl⟩ := class?_addCore_cases found
    · exact sound.classes found
    · exact core.object_sound reg
  objects found := by
    obtain ⟨c, maker, hc, rest⟩ := sound.objects found
    exact ⟨c, maker, (keptIn_addCore h).classes hc, rest⟩

theorem Placed.addCore (placed : h.Placed texts) : h.addCore.2.Placed texts := by
  intro id c found
  obtain found | core := class?_addCore_cases found
  · exact placed id c found
  · exact .inl core

theorem class?_addCore_coreClass (h : Heap) (c : CoreClass) :
    h.addCore.2.class? ((Vm.fresh h.classes.size).coreClass c) = some c.object := by
  rw [class?_addCore, ← Array.length_toList]
  cases c <;> simp only [Vm.coreClass, Vm.fresh] <;>
    rw [List.getElem?_append_right (by omega)] <;> simp [CoreClass.all]

theorem sound_empty (reg : Registry) : Heap.empty.Sound reg := ⟨nofun, nofun⟩

end Heap

/-! ### Programs -/

/-- The text that a step runs in the entry module, if it can be read. -/
def Step.text? (files : Files) : Step → Option String
  | .on _ (.interpret source) => some source
  | .on _ (.interpretBytes bytes) => (Files.readText (fun _ => .ok bytes) "").toOption
  | .on _ (.interpretFile path) => (files.readText path).toOption
  | _ => none

/-- Only makers of their host types are registered. -/
def Step.Typed (s : Step) : Prop :=
  ∀ name className maker, s = .on name (.registerClass className maker) → maker.Typed

/-- A step and what may stand in its place: if it is safe, a routine may be guarded. -/
inductive Step.GuardedBy (safe : Prop) : Step → Step → Prop
  | same (s : Step) : GuardedBy safe s s
  | guarded (name member : String) (r : Routine) : safe →
    GuardedBy safe (.on name (.register member r)) (.on name (.register member r.guarded))

namespace Program

variable {safe : Prop} {texts : Texts} {p q : Program}

/-- The bindings of a program hold together, every class has its place, and no fault is remembered
between runs. -/
structure Sound (texts : Texts) (p : Program) : Prop where
  heap : p.heap.Sound p.registry
  placed : p.heap.Placed texts
  loads : ∀ {directory name path source}, path ∈ moduleCandidates directory name →
    p.files.readText path = .ok source → texts name source
  records : ∀ {name vm record}, p.machines.get? name = some (vm, record) →
    record.Sound p.registry ∧ record.pending = none

/-- What a program leads to keeps what it has. -/
structure LeadsTo (p q : Program) : Prop where
  registry : p.registry ≤ q.registry
  heap : p.heap.KeptIn q.heap
  files : q.files = p.files

theorem LeadsTo.refl (p : Program) : p.LeadsTo p := ⟨le_rfl, .refl _, rfl⟩

theorem LeadsTo.trans {r : Program} (first : p.LeadsTo q) (second : q.LeadsTo r) : p.LeadsTo r :=
  ⟨first.registry.trans second.registry, first.heap.trans second.heap,
    second.files.trans first.files⟩

/-- Two programs that differ by guards at most. -/
structure Paired (safe : Prop) (texts : Texts) (p q : Program) : Prop where
  same : q = { p with registry := q.registry }
  guarded : p.registry.GuardedBy safe q.registry
  typed : safe → p.registry.Typed
  sound : p.Sound texts

theorem Sound.paired (sound : p.Sound texts) (typed : safe → p.registry.Typed) :
    Paired safe texts p p :=
  ⟨rfl, List.forall₂_same.mpr fun e _ => .same e, typed, sound⟩

theorem sound_start {files : Files}
    (loads : ∀ {directory name path source}, path ∈ moduleCandidates directory name →
      files.readText path = .ok source → texts name source) : (start files).Sound texts :=
  ⟨Heap.sound_empty _, nofun, loads, nofun⟩

theorem typed_start (files : Files) : (start files).registry.Typed := nofun

/-! ### Work on one machine -/

/-- The two runs of a machine of paired programs. -/
def Paired.twin (h : Paired safe texts p q) {name : String} {vm : Vm} {record : VmRecord}
    (found : p.machines.get? name = some (vm, record)) : Twin where
  registry := p.registry
  second := q.registry
  methods := record.methods
  classes := record.classes
  files := p.files
  start := p.heap
  texts := texts
  safe := safe
  typed := h.typed
  guarded := h.guarded
  sound _ methods classes :=
    have sound := (h.sound.records found).1
    ⟨fun found => sound.methods (methods ▸ found), fun found => sound.classes (classes ▸ found)⟩
  loads := h.sound.loads

def started (p : Program) (vm : Vm) (record : VmRecord) : Machine Surroundings :=
  ⟨p.heap, vm, ⟨p.registry, record, p.files, p.kept, []⟩⟩

def leave (p : Program) (name : String) (m : Machine Surroundings) : Program :=
  { p with
    heap := m.heap
    machines := p.machines.set name (m.vm, m.host.record)
    kept := m.host.kept }

def ended {α : Type} (p : Program) (name : String) :
    EStateM.Result Halt (Machine Surroundings) α → Worked α × Program
  | .ok a m => (⟨.ok a, m.host.log.reverse⟩, p.leave name m)
  | .error (.panic message) m => (⟨.error message, m.host.log.reverse⟩, p.leave name m)
  | .error .exhausted m => (⟨.error "", m.host.log.reverse⟩, p.leave name m)

theorem work_ended {α : Type} (p : Program) (name : String) (vm : Vm) (record : VmRecord)
    (act : Client α) :
    p.work name vm record act =
      p.ended name (act (p.started vm record)) := by
  unfold work started
  generalize act ⟨p.heap, vm, ⟨p.registry, record, p.files, p.kept, []⟩⟩ = result
  obtain _ | ⟨_ | _, _⟩ := result <;> rfl

/-- Both runs of a step came to the same report, and left paired programs. -/
structure Stepped (safe : Prop) (texts : Texts) {α : Type} (p : Program)
    (x y : α × Program) : Prop where
  report : x.1 = y.1
  paired : Paired safe texts x.2 y.2
  leads : p.LeadsTo x.2

theorem leave_same (same : q = { p with registry := q.registry }) (name : String)
    (m : Machine Surroundings) {second : Registry} :
    q.leave name { m with host := { m.host with registry := second } } =
      { p.leave name m with registry := q.registry } := by
  rw [same]
  rfl

theorem Paired.leave (h : Paired safe texts p q) {name : String} {vm : Vm} {record : VmRecord}
    (found : p.machines.get? name = some (vm, record)) {m : Machine Surroundings}
    (holds : (h.twin found).Holds m) (quiet : m.host.record.pending = none) :
    Paired safe texts (p.leave name m) (q.leave name ((h.twin found).other m)) ∧
      p.LeadsTo (p.leave name m) := by
  refine ⟨⟨leave_same h.same name m, h.guarded, h.typed, ?_⟩, ⟨le_rfl, holds.kept, rfl⟩⟩
  · refine ⟨holds.sound, holds.placed, h.sound.loads, fun {other vm' record'} there => ?_⟩
    change Table.get? (Table.set p.machines name (m.vm, m.host.record)) other = _ at there
    rw [Table.get?_set] at there
    split at there
    · cases there
      exact ⟨holds.record, quiet⟩
    · exact h.sound.records there

/-- Work on a machine of two paired programs ends at two machines of their runs. -/
theorem Paired.worked {α : Type} (h : Paired safe texts p q) {name : String} {vm : Vm}
    {record : VmRecord} (found : p.machines.get? name = some (vm, record)) {R : Results α α}
    {x y : Client α} (hR : ∀ {a b}, R .id a b → a = b)
    (hxy : LiveSim (h.twin found).simulation .id R x y) :
    ∃ w m, p.work name vm record x = (w, p.leave name m) ∧
      q.work name vm record y = (w, q.leave name ((h.twin found).other m)) ∧
      (h.twin found).Holds m ∧ m.host.record.pending = none := by
  obtain ⟨-, quiet⟩ := h.sound.records found
  have run := hxy (p.started vm record) _
    ⟨rfl, rfl, ⟨rfl, rfl, rfl, rfl, h.sound.heap, h.sound.placed, .refl _⟩, quiet⟩
  have second : (h.twin found).other (p.started vm record) = q.started vm record := by
    have heap : q.heap = p.heap := by rw [h.same]
    have files : q.files = p.files := by rw [h.same]
    have kept : q.kept = p.kept := by rw [h.same]
    unfold started
    rw [heap, files, kept]
    rfl
  rw [second] at run
  rw [work_ended, work_ended]
  revert run
  generalize x (p.started vm record) = r, y (q.started vm record) = s
  rintro (⟨_, ⟨⟨rfl, rfl, holds, quiet⟩, hab⟩⟩ |
    @⟨_, halt, _, _, _, ⟨rfl, rfl, holds, quiet⟩⟩ | never)
  · obtain rfl := hR hab
    exact ⟨_, _, rfl, rfl, holds, quiet⟩
  · cases halt <;> exact ⟨_, _, rfl, rfl, holds, quiet⟩
  · cases never

theorem Paired.work {α : Type} (h : Paired safe texts p q) {name : String} {vm : Vm}
    {record : VmRecord} (found : p.machines.get? name = some (vm, record)) {R : Results α α}
    {x y : Client α} (hR : ∀ {a b}, R .id a b → a = b)
    (hxy : LiveSim (h.twin found).simulation .id R x y) :
    Stepped safe texts p (p.work name vm record x) (q.work name vm record y) := by
  obtain ⟨w, m, hp, hq, holds, quiet⟩ := h.worked found hR hxy
  obtain ⟨paired, leads⟩ := h.leave found holds quiet
  rw [hp, hq]
  exact ⟨rfl, paired, leads⟩

/-! ### Registrations -/

theorem Registry.register_error {r s : Registry} {e e' : Entry} {f : BoundaryFault}
    (lengths : r.entries.length = s.entries.length) (h : r.register e = .error f) :
    s.register e' = .error f := by
  unfold Registry.register Registry.registered at h ⊢
  rw [← lengths]
  split at h
  · cases h
  · rw [if_neg ‹_›]
    exact h

theorem Registry.register_both {r s r' : Registry} {e e' : Entry} {point : Nat}
    (lengths : r.entries.length = s.entries.length) (h : r.register e = .ok (point, r')) :
    ∃ s', s.register e' = .ok (point, s') := by
  unfold Registry.register Registry.registered at h ⊢
  rw [← lengths]
  split at h
  · cases h
    exact ⟨_, if_pos ‹_›⟩
  · cases h

theorem Sound.register (sound : p.Sound texts) {name : String} {e : Entry} {point : Nat}
    {registry : Registry} (registered : p.registry.register e = .ok (point, registry))
    {enter : HostFunction → VmRecord → VmRecord}
    (enters : ∀ record, record.Sound registry →
      (enter (.entry point) record).Sound registry ∧
        (enter (.entry point) record).pending = record.pending) :
    Sound texts { p with
      registry
      machines := p.machines.update name
        fun (vm, record) => (vm, enter (.entry point) record) } := by
  have le := (Registry.register_ok registered).1
  refine ⟨sound.heap.mono le, sound.placed, sound.loads, fun {other vm record} found => ?_⟩
  dsimp only at found
  rw [Table.get?_update] at found
  split at found
  · obtain ⟨⟨vm', record'⟩, there, same⟩ := Option.map_eq_some_iff.mp found
    cases same
    obtain ⟨known, quiet⟩ := sound.records there
    obtain ⟨entered, pending⟩ := enters record' (known.mono le)
    exact ⟨entered, pending.trans quiet⟩
  · obtain ⟨known, quiet⟩ := sound.records found
    exact ⟨known.mono le, quiet⟩

/-- A registration that fails in one of two paired programs fails in both; else it leaves them
paired. -/
theorem Paired.register (h : Paired safe texts p q) (name : String) {e e' : Entry}
    (guarded : e.GuardedBy safe e') (typed : safe → ∀ maker, e = .maker maker → maker.Typed)
    {enter : HostFunction → VmRecord → VmRecord}
    (enters : ∀ {reg : Registry} {f record}, record.Sound reg → reg.Leads f e →
      (enter f record).Sound reg ∧ (enter f record).pending = record.pending) :
    (∃ f, p.register name e enter = .error f ∧ q.register name e' enter = .error f) ∨
      ∃ p' q', p.register name e enter = .ok p' ∧ q.register name e' enter = .ok q' ∧
        Paired safe texts p' q' ∧ p.LeadsTo p' := by
  have lengths := h.guarded.length_eq
  unfold Program.register
  cases registered : p.registry.register e with
  | error f => exact .inl ⟨f, rfl, by rw [Registry.register_error lengths registered]; rfl⟩
  | ok result =>
    obtain ⟨point, registry⟩ := result
    obtain ⟨le, leads, entries⟩ := Registry.register_ok registered
    obtain ⟨second, registered'⟩ : ∃ s, q.registry.register e' = .ok (point, s) :=
      Registry.register_both lengths registered
    obtain ⟨-, -, entries'⟩ := Registry.register_ok registered'
    rw [registered']
    refine .inr ⟨_, _, rfl, rfl, ⟨?_, ?_, fun s => (h.typed s).register (typed s) registered, ?_⟩,
      ⟨le, .refl _, rfl⟩⟩
    · rw [h.same]
    · unfold Registry.GuardedBy
      rw [entries, entries']
      exact List.rel_append h.guarded (.cons guarded .nil)
    · exact h.sound.register registered fun record known => enters known leads

theorem Paired.registerMethod (h : Paired safe texts p q) (name member : String) {r r' : Routine}
    (guarded : Entry.GuardedBy safe (.routine r) (.routine r')) :
    (∃ f, p.registerMethod name member r = .error f ∧ q.registerMethod name member r' = .error f) ∨
      ∃ p' q', p.registerMethod name member r = .ok p' ∧ q.registerMethod name member r' = .ok q' ∧
        Paired safe texts p' q' ∧ p.LeadsTo p' := by
  refine h.register name guarded (fun _ => nofun) fun {reg f record} known leads => ⟨⟨?_, ?_⟩, rfl⟩
  · intro key g found
    dsimp only at found
    rw [Table.get?_set] at found
    split at found
    · cases found
      exact ⟨r, leads⟩
    · exact known.methods found
  · exact known.classes

theorem Paired.registerClass (h : Paired safe texts p q) (name className : String) {maker : Maker}
    (typed : safe → maker.Typed) :
    (∃ f, p.registerClass name className maker = .error f ∧
        q.registerClass name className maker = .error f) ∨
      ∃ p' q', p.registerClass name className maker = .ok p' ∧
        q.registerClass name className maker = .ok q' ∧ Paired safe texts p' q' ∧ p.LeadsTo p' := by
  refine h.register name (.same (.maker maker)) (fun s _ same => ?_)
    fun {reg f record} known leads => ⟨⟨?_, ?_⟩, rfl⟩
  · cases same
    exact typed s
  · exact known.methods
  · intro key b found
    dsimp only at found
    rw [Table.get?_set] at found
    split at found
    · cases found
      exact ⟨maker, f, rfl, leads⟩
    · exact known.classes found

theorem Paired.registerMany (h : Paired safe texts p q) (name stem : String) (indices : List Nat) :
    Stepped safe texts p (p.registerMany name stem indices) (q.registerMany name stem indices) := by
  induction indices generalizing p q with
  | nil => exact ⟨rfl, h, .refl p⟩
  | cons i rest ih =>
    unfold Program.registerMany
    obtain ⟨f, hp, hq⟩ | ⟨p', q', hp, hq, paired, leads⟩ :=
      h.registerMethod name (stem ++ i.repr ++ "()") (.same (.routine (numbered i)))
    · rw [hp, hq]
      exact ⟨rfl, h, .refl p⟩
    · rw [hp, hq]
      obtain ⟨report, paired, more⟩ := ih paired
      exact ⟨report, paired, leads.trans more⟩

/-! ### Steps -/

/-- Engines that do the same on all that a program leads to. -/
def Serves (e₁ e₂ : Engine Surroundings) (p : Program) : Prop :=
  ∀ T : Twin, p.registry ≤ T.registry → p.heap.KeptIn T.start →
    Attended.Engines T.simulation e₁ e₂

variable {e₁ e₂ : Engine Surroundings} {name : String} {vm : Vm} {record : VmRecord}

theorem Serves.mono (engines : Serves e₁ e₂ p) (leads : p.LeadsTo q) : Serves e₁ e₂ q :=
  fun T le kept => engines T (leads.registry.trans le) (leads.heap.trans kept)

theorem serves_engine (p : Program) : Serves engine engine p :=
  fun T _ _ => engine_alike T.attended.toNesting programDepth

theorem Paired.runSource (h : Paired safe texts p q) (engines : Serves e₁ e₂ p)
    (found : p.machines.get? name = some (vm, record)) {source : String}
    (text : texts entryModule source) :
    Stepped safe texts p (p.runSource e₁ name vm record source)
      (q.runSource e₂ name vm record source) := by
  have ran := h.work found (R := .same) id
    (Client.interpret_sim (h.twin found).attended (engines _ le_rfl (.refl _))
      fun body parsed decl inside => .text text parsed inside)
  refine ⟨?_, ran.paired, ran.leads⟩
  exact congrArg (reported fun _ => .done) ran.report

theorem Paired.runRead (h : Paired safe texts p q) (engines : Serves e₁ e₂ p)
    (found : p.machines.get? name = some (vm, record)) {read : Except FileFault String}
    (text : ∀ source, read = .ok source → texts entryModule source) :
    Stepped safe texts p (p.runRead e₁ name vm record read) (q.runRead e₂ name vm record read) := by
  cases read with
  | ok source => exact h.runSource engines found (text source rfl)
  | error f => exact ⟨rfl, h, .refl p⟩

theorem Paired.setRecord (h : Paired safe texts p q) (name : String) {f : VmRecord → VmRecord}
    (kept : ∀ record, (f record).methods = record.methods ∧ (f record).classes = record.classes ∧
      (f record).pending = record.pending) :
    Paired safe texts (p.setRecord name f) (q.setRecord name f) := by
  refine ⟨?_, h.guarded, h.typed, h.sound.heap, h.sound.placed, h.sound.loads, ?_⟩
  · rw [h.same]
    rfl
  · intro other vm record found
    change (p.machines.update name fun (vm, record) => (vm, f record)).get? other = _ at found
    rw [Table.get?_update] at found
    split at found
    · obtain ⟨⟨vm', record'⟩, there, same⟩ := Option.map_eq_some_iff.mp found
      cases same
      obtain ⟨methods, classes, pending⟩ := kept record'
      obtain ⟨known, quiet⟩ := h.sound.records there
      exact ⟨⟨fun found => known.methods (methods ▸ found),
        fun found => known.classes (classes ▸ found)⟩, pending.trans quiet⟩
    · exact h.sound.records found

theorem Paired.withValues (h : Paired safe texts p q) (values : Table Value) :
    Paired safe texts { p with values } { q with values } := by
  refine ⟨?_, h.guarded, h.typed, h.sound.heap, h.sound.placed, h.sound.loads, h.sound.records⟩
  rw [h.same]

def holding (keep : String) : Worked (Option Value) × Program → StepReport × Program
  | (⟨.ok (some v), _⟩, p) => quietly (.flag true) { p with values := p.values.set keep v }
  | (_, p) => quietly (.flag false) p

theorem runErrand_lookup (engine : Engine Surroundings) (p : Program) (variableName keep : String) :
    p.runErrand engine name vm record (.lookup variableName keep) =
      holding keep (p.work name vm record (Client.lookup variableName)) := by
  unfold runErrand
  dsimp only
  rcases p.work name vm record (Client.lookup variableName) with ⟨⟨_ | _ | _, _⟩, _⟩ <;> rfl

theorem Stepped.holding {x y : Worked (Option Value) × Program} (h : Stepped safe texts p x y)
    (keep : String) : Stepped safe texts p (holding keep x) (holding keep y) := by
  obtain ⟨w, p'⟩ := x
  obtain ⟨w', q'⟩ := y
  obtain ⟨report, paired, leads⟩ := h
  dsimp only at report paired leads
  subst report
  have values : q'.values = p'.values := by rw [paired.same]
  rcases w with ⟨_ | _ | v, log⟩
  · exact ⟨rfl, paired, leads⟩
  · exact ⟨rfl, paired, leads⟩
  · unfold Program.holding
    dsimp only
    rw [values]
    exact ⟨rfl, paired.withValues _, leads.registry, leads.heap, leads.files⟩

theorem Paired.lookup (h : Paired safe texts p q)
    (found : p.machines.get? name = some (vm, record)) (variableName keep : String) :
    Stepped safe texts p (p.runErrand e₁ name vm record (.lookup variableName keep))
      (q.runErrand e₂ name vm record (.lookup variableName keep)) := by
  rw [runErrand_lookup, runErrand_lookup]
  refine (h.work found (fun alike => ?_)
    (Client.lookup_sim (h.twin found).attended variableName)).holding keep
  obtain ⟨rfl, rfl⟩ | ⟨v, w, rfl, rfl, hvw⟩ := optionRel_cases alike
  · rfl
  · rw [Value.alike_id.mp hvw]

theorem Paired.call (h : Paired safe texts p q) (engines : Serves e₁ e₂ p)
    (found : p.machines.get? name = some (vm, record)) (value signature : String)
    (params : List HostValue) :
    Stepped safe texts p (p.runErrand e₁ name vm record (.call value signature params))
      (q.runErrand e₂ name vm record (.call value signature params)) := by
  have values : q.values = p.values := by rw [h.same]
  unfold runErrand
  dsimp only
  rw [values]
  cases p.values.get? value with
  | none => exact ⟨rfl, h, .refl p⟩
  | some v =>
    have ran := h.work found (R := .same) id (Client.call_sim (h.twin found).attended
      (engines _ le_rfl (.refl _)) (Value.alike_refl v) signature params)
    exact ⟨congrArg (reported .returned) ran.report, ran.paired, ran.leads⟩

theorem Paired.registering (h : Paired safe texts p q) {x y : Except BoundaryFault Program}
    (registered : (∃ f, x = .error f ∧ y = .error f) ∨
      ∃ p' q', x = .ok p' ∧ y = .ok q' ∧ Paired safe texts p' q' ∧ p.LeadsTo p') :
    Stepped safe texts p (p.registering x) (q.registering y) := by
  obtain ⟨f, rfl, rfl⟩ | ⟨p', q', rfl, rfl, paired, leads⟩ := registered
  · exact ⟨rfl, h, .refl p⟩
  · exact ⟨rfl, paired, leads⟩

theorem Paired.runErrand (h : Paired safe texts p q) (engines : Serves e₁ e₂ p)
    (found : p.machines.get? name = some (vm, record)) (errand : Errand)
    (text : ∀ source, (Step.on name errand).text? p.files = some source → texts entryModule source)
    (typed : safe → (Step.on name errand).Typed) :
    Stepped safe texts p (p.runErrand e₁ name vm record errand)
      (q.runErrand e₂ name vm record errand) := by
  cases errand with
  | setModulesDir path =>
    have changed := h.setRecord name (f := fun r => { r with modulesDir := some path })
      fun _ => ⟨rfl, rfl, rfl⟩
    exact ⟨rfl, changed, le_rfl, .refl _, rfl⟩
  | breakWriter channel =>
    have changed := h.setRecord name (f := fun r => { r with broken := channel :: r.broken })
      fun _ => ⟨rfl, rfl, rfl⟩
    exact ⟨rfl, changed, le_rfl, .refl _, rfl⟩
  | register member r => exact h.registering (h.registerMethod name member (.same _))
  | registerClass className maker =>
    exact h.registering (h.registerClass name className fun s => typed s _ _ _ rfl)
  | registerMany stem count =>
    obtain ⟨report, paired, leads⟩ := h.registerMany name stem (List.range count)
    unfold Program.runErrand
    dsimp only
    revert report paired leads
    generalize p.registerMany name stem (List.range count) = x,
      q.registerMany name stem (List.range count) = y
    obtain ⟨_ | ⟨i, f⟩, p'⟩ := x
    · obtain ⟨_, q'⟩ := y
      rintro rfl paired leads
      exact ⟨rfl, paired, leads⟩
    · obtain ⟨_, q'⟩ := y
      rintro rfl paired leads
      exact ⟨rfl, paired, leads⟩
  | interpret source => exact h.runSource engines found (text source rfl)
  | interpretBytes bytes =>
    refine h.runRead engines found fun source read => text source ?_
    exact congrArg Except.toOption read
  | interpretFile path =>
    have files : q.files = p.files := by rw [h.same]
    unfold Program.runErrand
    dsimp only
    rw [files]
    refine h.runRead engines found fun source read => text source ?_
    exact congrArg Except.toOption read
  | lookup variableName keep => exact h.lookup found variableName keep
  | call value signature params => exact h.call engines found value signature params

theorem Paired.addMachine (h : Paired safe texts p q) (name : String) (modulesDir : Option String) :
    Paired safe texts (p.addMachine name modulesDir) (q.addMachine name modulesDir) := by
  refine ⟨?_, h.guarded, h.typed, h.sound.heap.addCore, h.sound.placed.addCore, h.sound.loads, ?_⟩
  · rw [h.same]
    rfl
  · intro other vm record found
    change (p.machines.set name (_, .fresh modulesDir)).get? other = _ at found
    rw [Table.get?_set] at found
    split at found
    · cases found
      exact ⟨⟨nofun, nofun⟩, rfl⟩
    · exact h.sound.records found

theorem Paired.dropMachine (h : Paired safe texts p q) (name : String) :
    Paired safe texts { p with machines := p.machines.erase name }
      { q with machines := q.machines.erase name } := by
  refine ⟨?_, h.guarded, h.typed, h.sound.heap, h.sound.placed, h.sound.loads, ?_⟩
  · rw [h.same]
  · intro other vm record found
    change (p.machines.erase name).get? other = _ at found
    rw [Table.get?_erase] at found
    split at found
    · cases found
    · exact h.sound.records found

theorem Paired.withKept (h : Paired safe texts p q) (kept : Option ForeignId) :
    Paired safe texts { p with kept } { q with kept } := by
  refine ⟨?_, h.guarded, h.typed, h.sound.heap, h.sound.placed, h.sound.loads, h.sound.records⟩
  rw [h.same]

/-- A step of paired programs: the same report, and paired programs again. -/
theorem Paired.stepOn (h : Paired safe texts p q) (engines : Serves e₁ e₂ p) {s t : Step}
    (guarded : s.GuardedBy safe t)
    (text : ∀ source, s.text? p.files = some source → texts entryModule source)
    (typed : safe → s.Typed) : Stepped safe texts p (p.stepOn e₁ s) (q.stepOn e₂ t) := by
  have machines : q.machines = p.machines := by rw [h.same]
  cases guarded with
  | guarded name member r safety =>
    unfold Program.stepOn
    dsimp only
    rw [machines]
    cases p.machines.get? name with
    | none => exact ⟨rfl, h, .refl p⟩
    | some found => exact h.registering (h.registerMethod name member (.guarded r safety))
  | same =>
    cases s with
    | machine name modules =>
      exact ⟨rfl, h.addMachine name _, le_rfl, Heap.keptIn_addCore p.heap, rfl⟩
    | on name errand =>
      unfold Program.stepOn
      dsimp only
      rw [machines]
      cases found : p.machines.get? name with
      | none => exact ⟨rfl, h, .refl p⟩
      | some there => exact h.runErrand engines found errand text typed
    | dropMachine name =>
      refine ⟨?_, h.dropMachine name, le_rfl, .refl _, rfl⟩
      change (⟨.flag (p.machines.has name), []⟩ : StepReport) = ⟨.flag (q.machines.has name), []⟩
      rw [machines]
    | dropValue value =>
      have values : q.values = p.values := by rw [h.same]
      unfold Program.stepOn
      dsimp only
      rw [values]
      exact ⟨rfl, h.withValues _, le_rfl, .refl _, rfl⟩
    | registered =>
      refine ⟨?_, h, .refl p⟩
      change (⟨.count p.registry.registered, []⟩ : StepReport) =
        ⟨.count q.registry.registered, []⟩
      rw [Registry.registered, Registry.registered, h.guarded.length_eq]
    | kept =>
      refine ⟨?_, h, .refl p⟩
      rw [h.same]
      rfl
    | dropKept => exact ⟨rfl, h.withKept none, le_rfl, .refl _, rfl⟩
    | dropped =>
      refine ⟨?_, h, .refl p⟩
      rw [h.same]
      rfl
    | unknown => exact ⟨rfl, h, .refl p⟩

theorem Paired.stepsOn (h : Paired safe texts p q) (engines : Serves e₁ e₂ p) {ss ts : List Step}
    (guarded : List.Forall₂ (Step.GuardedBy safe) ss ts)
    (text : ∀ s ∈ ss, ∀ source, s.text? p.files = some source → texts entryModule source)
    (typed : safe → ∀ s ∈ ss, s.Typed) :
    Stepped safe texts p (p.stepsOn e₁ ss) (q.stepsOn e₂ ts) := by
  induction guarded generalizing p q with
  | nil => exact ⟨rfl, h, .refl p⟩
  | cons first _ ih =>
    obtain ⟨report, paired, leads⟩ := h.stepOn engines first (text _ List.mem_cons_self)
      fun safety => typed safety _ List.mem_cons_self
    have rest := ih paired (engines.mono leads)
      (fun s hs => leads.files ▸ text s (List.mem_cons_of_mem _ hs))
      fun safety s hs => typed safety s (List.mem_cons_of_mem _ hs)
    refine ⟨?_, rest.paired, leads.trans rest.leads⟩
    unfold Program.stepsOn
    dsimp only
    rw [report, rest.report]

end Program
end ScriptHost
