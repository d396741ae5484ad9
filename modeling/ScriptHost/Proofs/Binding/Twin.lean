import ScriptHost.Proofs.Binding.Payloads
import ScriptHost.Proofs.Binding.Provenance
import ScriptHost.Proofs.Depth.Audit

/-! A machine run twice, once with a registration table and once with one that may guard its
routines. As long as bindings hold together the two runs are the same step for step, the bindings go
on holding together, and a fault that ends a run has left its cause behind. With the same table
twice this is what one run preserves. -/

namespace ScriptHost

/-- An entry and what may stand in its place: if it is safe, a routine may be guarded. -/
inductive Entry.GuardedBy (safe : Prop) : Entry → Entry → Prop
  | same (e : Entry) : GuardedBy safe e e
  | guarded (r : Routine) : safe → GuardedBy safe (.routine r) (.routine r.guarded)

def Registry.GuardedBy (safe : Prop) (r s : Registry) : Prop :=
  List.Forall₂ (Entry.GuardedBy safe) r.entries s.entries

/-- What is remembered when a fault is on its way: why a member could not be bound, or the fault
that made a host function stop the script. -/
def RuntimeFault.BlamedOn (texts : Texts) (pending : Option BoundaryFault) : RuntimeFault → Prop
  | .unknownForeignMethod signature className moduleName => ∃ decl d,
    Written texts moduleName decl ∧ decl.name = className ∧ d ∈ decl.methods ∧ d.isForeign ∧
      d.signature = signature ∧
      pending = some (if moduleName = entryModule then .unresolved (d.key className)
        else .untrusted moduleName (d.key className))
  | .aborted message => ∃ f : BoundaryFault, pending = some f ∧ message = f.message
  | _ => pending = none

theorem RuntimeFault.blamedOn_none {texts : Texts} {f : RuntimeFault} (plain : f.isPlain) :
    f.BlamedOn texts none := by
  cases f <;> first | rfl | cases plain

/-- What stays as it is while a machine runs, and the table of the second run. -/
structure Twin where
  registry : Registry
  second : Registry
  methods : Table HostFunction
  classes : Table ForeignBinding
  files : Files
  /-- The heap that the run started from. -/
  start : Heap
  texts : Texts
  /-- Whether routines may be guarded, which makers of their host types make safe. -/
  safe : Prop
  typed : safe → registry.Typed
  guarded : registry.GuardedBy safe second
  sound : ∀ record : VmRecord, record.methods = methods → record.classes = classes →
    record.Sound registry
  loads : ∀ {directory name path source}, path ∈ moduleCandidates directory name →
    files.readText path = .ok source → texts name source

namespace Twin

variable (T : Twin) {m m' : Machine Surroundings}

def other (m : Machine Surroundings) : Machine Surroundings :=
  { m with host := { m.host with registry := T.second } }

structure Holds (m : Machine Surroundings) : Prop where
  registry : m.host.registry = T.registry
  methods : m.host.record.methods = T.methods
  classes : m.host.record.classes = T.classes
  files : m.host.files = T.files
  sound : m.heap.Sound T.registry
  placed : m.heap.Placed T.texts
  kept : T.start.KeptIn m.heap

def simulation : Simulation Surroundings Surroundings where
  written := Written T.texts
  going ρ m n := ρ = .id ∧ n = T.other m ∧ T.Holds m ∧ m.host.record.pending = none
  fault f ρ m n := ρ = .id ∧ n = T.other m ∧ T.Holds m ∧ f.BlamedOn T.texts m.host.record.pending
  halt _ ρ m n := ρ = .id ∧ n = T.other m ∧ T.Holds m ∧ m.host.record.pending = none
  engines e₁ _ := e₁.Counts Surroundings.host

/-- The second run is a shadow of the first. -/
def shadow : Shadow Surroundings Surroundings where
  written := Written T.texts
  image s := { s with registry := T.second }
  going m := T.Holds m ∧ m.host.record.pending = none
  fault f m := T.Holds m ∧ f.BlamedOn T.texts m.host.record.pending
  halt m := T.Holds m ∧ m.host.record.pending = none
  engines e₁ _ := e₁.Counts Surroundings.host

variable {T}

theorem Holds.onVm (h : T.Holds m) (f : Vm → Vm) : T.Holds (m.onVm f) :=
  ⟨h.registry, h.methods, h.classes, h.files, h.sound, h.placed, h.kept⟩

theorem Holds.mapHeap (h : T.Holds m) {f : Heap → Heap}
    (classes : (f m.heap).classes = m.heap.classes)
    (foreigns : (f m.heap).foreigns = m.heap.foreigns) : T.Holds (m.mapHeap f) :=
  ⟨h.registry, h.methods, h.classes, h.files, h.sound.of_eq classes foreigns,
    h.placed.of_eq classes, h.kept.trans (.of_eq classes foreigns)⟩

theorem Holds.onHost (h : T.Holds m) {s : Surroundings} (registry : s.registry = m.host.registry)
    (methods : s.record.methods = m.host.record.methods)
    (classes : s.record.classes = m.host.record.classes) (files : s.files = m.host.files) :
    T.Holds { m with host := s } :=
  ⟨registry.trans h.registry, methods.trans h.methods, classes.trans h.classes,
    files.trans h.files, h.sound, h.placed, h.kept⟩

theorem Holds.record (h : T.Holds m) : m.host.record.Sound T.registry :=
  T.sound _ h.methods h.classes

/-! ### Host functions -/

variable (T) in
/-- What a host function leaves: no fault is remembered unless it stops the script. -/
structure Served (m : Machine Surroundings) : Prop where
  holds : T.Holds m
  quiet : m.vm.abort = none → m.host.record.pending = none
  blamed : ∀ {message}, m.vm.abort = some message →
    (RuntimeFault.aborted message).BlamedOn T.texts m.host.record.pending

theorem Holds.stop (h : T.Holds m) (f : BoundaryFault) : T.Served (Surroundings.stop m f) where
  holds := ⟨h.registry, h.methods, h.classes, h.files, h.sound, h.placed, h.kept⟩
  quiet stopped := by cases stopped
  blamed stopped := by
    cases stopped
    exact ⟨f, rfl, rfl⟩

theorem Holds.served (h : T.Holds m) (quiet : m.host.record.pending = none)
    (calm : m.vm.abort = none) : T.Served m where
  holds := h
  quiet _ := quiet
  blamed stopped := by
    rw [calm] at stopped
    cases stopped

theorem Served.closed (h : T.Served m) (outer : Vm) :
    T.simulation.Ended .id (T.simulation.Settled .alike) (.ok m.vm.verdict (m.closed outer))
      (.ok (T.other m).vm.verdict ((T.other m).closed outer)) := by
  refine .ok le_rfl ?_
  change T.simulation.Settled .alike .id m.vm.verdict _ m.vm.verdict _
  unfold Vm.verdict
  cases stopped : m.vm.abort with
  | none => exact .ok ⟨rfl, rfl, h.holds.onVm _, h.quiet stopped⟩ (Value.alike_refl _)
  | some message => exact .fault ⟨rfl, rfl, h.holds.onVm _, h.blamed stopped⟩

theorem Holds.mark (h : T.Holds m) (effect : Effect) :
    T.Holds (effect.mark Surroundings.keep m) := by
  have sound := h.sound.setPayloads effect.writes
  have placed := h.placed.of_eq (Heap.setPayloads_classes m.heap effect.writes)
  have kept := h.kept.trans (Heap.keptIn_setPayloads m.heap effect.writes)
  unfold Effect.mark
  cases effect.keeps with
  | none => exact ⟨h.registry, h.methods, h.classes, h.files, sound, placed, kept⟩
  | some id => exact ⟨h.registry, h.methods, h.classes, h.files, sound, placed, kept⟩

theorem mark_other (effect : Effect) (m : Machine Surroundings) :
    effect.mark Surroundings.keep (T.other m) = T.other (effect.mark Surroundings.keep m) := by
  unfold Effect.mark
  cases effect.keeps <;> rfl

theorem encodeResult_other (returns : Option Kind) (v : HostValue) (m : Machine Surroundings) :
    (T.other m).encodeResult returns v = (m.encodeResult returns v).map T.other := by
  unfold Machine.encodeResult
  cases returns with
  | none => rfl
  | some kind =>
    dsimp only
    split
    · unfold Machine.encode
      cases v.toValue 0 <;> rfl
    · rfl

theorem land_other (returns : Option Kind) (outcome : Outcome) (m : Machine Surroundings) :
    outcome.land returns (T.other m) =
      ((outcome.land returns m).1, T.other (outcome.land returns m).2) := by
  unfold Outcome.land
  cases outcome with
  | fault f => rfl
  | panic message => rfl
  | value v =>
    cases v with
    | none => rfl
    | some v =>
      dsimp only
      rw [encodeResult_other]
      cases m.encodeResult returns v <;> rfl

theorem Holds.land (h : T.Holds m) (returns : Option Kind) (outcome : Outcome) :
    T.Holds (outcome.land returns m).2 := by
  obtain same | ⟨w, same⟩ := outcome.land_machine returns m
  · rw [same]
    exact h
  · rw [same]
    exact h.onVm _

/-- A routine that gives the same for the arguments on the window does the same in both runs. -/
theorem runEntry_routine_other {r r' : Routine} (params : r'.params = r.params)
    (returns : r'.returns = r.returns)
    (call : ∀ args, m.decodeArguments r.params = .ok args →
      r'.call args m.heap = r.call args m.heap) :
    Surroundings.runEntry (.routine r') (T.other m) =
      T.other (Surroundings.runEntry (.routine r) m) := by
  rw [Surroundings.runEntry_routine, Surroundings.runEntry_routine, params, returns]
  have window : (T.other m).decodeArguments r.params = m.decodeArguments r.params :=
    Machine.decodeArguments_congr (m := T.other m) (n := m) rfl rfl _
  rw [window]
  cases read : m.decodeArguments r.params with
  | error f => rfl
  | ok args =>
    dsimp only
    rw [show (T.other m).heap = m.heap from rfl, call args read, mark_other, land_other]
    obtain ⟨_ | _, _⟩ := (r.call args m.heap).outcome.land r.returns
      ((r.call args m.heap).mark Surroundings.keep m) <;> rfl

theorem Holds.runEntry_routine (h : T.Holds m) (quiet : m.host.record.pending = none)
    (calm : m.vm.abort = none) (r : Routine) :
    T.Served (Surroundings.runEntry (.routine r) m) := by
  rw [Surroundings.runEntry_routine]
  cases m.decodeArguments r.params with
  | error f => exact h.stop f
  | ok args =>
    dsimp only
    have landed := (h.mark (r.call args m.heap)).land r.returns (r.call args m.heap).outcome
    have host := (r.call args m.heap).outcome.land_host r.returns
      ((r.call args m.heap).mark Surroundings.keep m)
    have marked : ((r.call args m.heap).mark Surroundings.keep m).host.record.pending = none := by
      unfold Effect.mark
      cases (r.call args m.heap).keeps <;> exact quiet
    have unstopped : ((r.call args m.heap).mark Surroundings.keep m).vm.abort = none := by
      unfold Effect.mark
      cases (r.call args m.heap).keeps <;> exact calm
    rw [← host] at marked
    rw [← (r.call args m.heap).outcome.land_abort r.returns] at unstopped
    generalize (r.call args m.heap).outcome.land r.returns
      ((r.call args m.heap).mark Surroundings.keep m) = ended at landed marked unstopped
    obtain ⟨_ | _, m'⟩ := ended
    · exact landed.stop _
    · exact landed.served marked unstopped

/-- A routine that a foreign method leads to, in both runs. -/
theorem runs_routine (h : T.Holds m) (quiet : m.host.record.pending = none)
    (calm : m.vm.abort = none) {f : HostFunction} {r : Routine}
    (leads : T.registry.Leads f (.routine r)) :
    Surroundings.runs f (T.other m) = T.other (Surroundings.runs f m) ∧
      T.Served (Surroundings.runs f m) := by
  obtain ⟨point, rfl, found⟩ := leads
  rw [Surroundings.runs_entry (m := m) (h.registry ▸ found)]
  obtain ⟨hr, -⟩ | ⟨_, r', hr, second, guarded⟩ :=
    optionRel_cases (forall₂_getElem? T.guarded point)
  · cases found.symm.trans hr
  cases found.symm.trans hr
  rw [Surroundings.runs_entry (m := T.other m) second]
  refine ⟨?_, h.runEntry_routine quiet calm r⟩
  cases guarded with
  | same => exact runEntry_routine_other rfl rfl fun _ _ => rfl
  | guarded _ safe =>
    exact runEntry_routine_other rfl rfl fun args read =>
      Routine.guarded_call h.sound (T.typed safe) r read

theorem runs_maker (h : T.Holds m) (quiet : m.host.record.pending = none)
    (calm : m.vm.abort = none) {f : HostFunction} {maker : Maker}
    (leads : T.registry.Leads f (.maker maker)) {classId : ClassId}
    {c : ClassObject} (slot : m.vm.slot? 0 = some (.classObject classId))
    (found : m.heap.class? classId = some c) (foreign : c.isForeign)
    (made : c.binding.MadeBy T.registry maker) :
    Surroundings.runs f (T.other m) = T.other (Surroundings.runs f m) ∧
      T.Served (Surroundings.runs f m) := by
  obtain ⟨point, rfl, entry⟩ := leads
  rw [Surroundings.runs_entry (m := m) (h.registry ▸ entry)]
  obtain ⟨hr, -⟩ | ⟨_, r', hr, second, guarded⟩ :=
    optionRel_cases (forall₂_getElem? T.guarded point)
  · cases entry.symm.trans hr
  cases entry.symm.trans hr
  rw [Surroundings.runs_entry (m := T.other m) second]
  cases guarded
  have classSlot := Machine.slotForeignClass?_eq slot found foreign
  rw [Surroundings.runEntry_maker maker classSlot,
    Surroundings.runEntry_maker (m := T.other m) maker classSlot]
  cases outcome : maker.make with
  | error message => exact ⟨rfl, h.stop _⟩
  | ok payload =>
    refine ⟨rfl, Holds.served ⟨h.registry, h.methods, h.classes, h.files, ?_,
      h.placed.of_eq rfl, ?_⟩ quiet calm⟩
    · refine h.sound.addForeign found foreign made fun typed => ?_
      exact typed point maker entry payload outcome
    · exact h.kept.trans (Heap.keptIn_addForeign _ _ _)

/-! ### The laws -/

theorem defineClass_sim {e₁ e₂ : Engine Surroundings}
    (callbacks₁ : e₁.callbacks = Surroundings.callbacks)
    (callbacks₂ : e₂.callbacks = Surroundings.callbacks) (h : T.Holds m)
    (quiet : m.host.record.pending = none) (moduleName : String) (decl : ClassDecl)
    (written : Written T.texts moduleName decl) :
    T.simulation.Ended .id (T.simulation.Settled .same)
      ((defineClass e₁ moduleName decl).run m)
      ((defineClass e₂ moduleName decl).run (T.other m)) := by
  have same : (T.other m).host.record = m.host.record := rfl
  rw [defineClass_run callbacks₁, defineClass_run callbacks₂, same]
  cases made : m.host.record.declared moduleName decl with
  | ok c =>
    have sound := h.sound.addClass (VmRecord.declared_sound h.record made)
    have moduleOf := (VmRecord.declared_ok made).2.1
    have placed : (m.heap.addClass c).2.Placed T.texts :=
      h.placed.addClass (.inr ⟨decl, moduleOf ▸ written, VmRecord.declared_makes made⟩)
    have kept := h.kept.trans (Heap.keptIn_addClass m.heap c)
    refine .ok le_rfl (.ok ⟨rfl, rfl, ?_, quiet⟩ rfl)
    exact ⟨h.registry, h.methods, h.classes, h.files, sound, placed, kept⟩
  | error refusal =>
    cases refusal with
    | panic message => exact .halt le_rfl ⟨rfl, rfl, h, quiet⟩
    | noAllocator => exact .ok le_rfl (.fault ⟨rfl, rfl, h, quiet⟩)
    | member d f =>
      refine .ok le_rfl (.fault ⟨rfl, rfl, h.onHost rfl rfl rfl rfl, ?_⟩)
      obtain ⟨-, before, after, members, -, stopped⟩ := VmRecord.declared_member_iff.mp made
      obtain ⟨foreign, same⟩ := VmRecord.method_error stopped
      refine ⟨decl, d, written, rfl, ?_, foreign, rfl, congrArg some same⟩
      rw [members]
      exact List.mem_append_right _ List.mem_cons_self

theorem Holds.callForeign_sim (h : T.Holds m) (quiet : m.host.record.pending = none)
    (e₁ e₂ : Engine Surroundings) {v : Value} (vs : List Value) {signature : String}
    {f : HostFunction} (hf : m.method? v signature = some (.foreign f)) :
    T.simulation.Ended .id (T.simulation.Settled .alike)
      ((callForeign Surroundings.host e₁ f v vs).run m)
      ((callForeign Surroundings.host e₂ f v vs).run (T.other m)) := by
  obtain ⟨c, onClass, hc, found⟩ := Machine.method?_table hf
  obtain ⟨-, r, leads⟩ := (h.sound.classes hc).member found
  obtain ⟨other, served⟩ := runs_routine (h.onVm fun vm =>
    { vm with slots := v :: vs, returnWritten := false, abort := none }) quiet rfl leads
  rw [callForeign_run, callForeign_run]
  have closed := served.closed m.vm
  rw [← other] at closed
  exact closed

theorem Holds.allocate_sim (h : T.Holds m) (quiet : m.host.record.pending = none)
    (e₁ e₂ : Engine Surroundings) {a : ClassId} {c : ClassObject} (vs : List Value)
    {f : HostFunction} (hc : m.heap.class? a = some c) (hf : c.binding.allocate = some f) :
    T.simulation.Ended .id (T.simulation.Settled .alike)
      ((callForeign Surroundings.host e₁ f (.classObject a) vs).run m)
      ((callForeign Surroundings.host e₂ f (.classObject a) vs).run (T.other m)) := by
  obtain ⟨foreign, maker, made, leads⟩ := (h.sound.classes hc).allocate hf
  obtain ⟨other, served⟩ := runs_maker (h.onVm fun vm =>
    { vm with slots := .classObject a :: vs, returnWritten := false, abort := none }) quiet rfl
    leads
    rfl hc foreign made
  rw [callForeign_run, callForeign_run]
  have closed := served.closed m.vm
  rw [← other] at closed
  exact closed

/-- An object that a class gives out is its own. -/
theorem Holds.allocated (h : T.Holds m) {engine : Engine Surroundings} {a : ClassId}
    {c : ClassObject} {vs : List Value} {f : HostFunction} {id : ForeignId}
    (hc : m.heap.class? a = some c) (hf : c.binding.allocate = some f)
    (made : (callForeign Surroundings.host engine f (.classObject a) vs).run m =
      .ok (.ok (.foreign id)) m') : m'.heap.class? (m'.classOf (.foreign id)) = some c := by
  obtain ⟨foreign, maker, -, ⟨point, rfl, entry⟩⟩ := (h.sound.classes hc).allocate hf
  have slot : (m.windowed (.classObject a) vs).slotForeignClass? 0 = some a :=
    Machine.slotForeignClass?_eq rfl hc foreign
  rw [callForeign_run, Surroundings.runs_entry (m := m.windowed _ _) (h.registry ▸ entry)] at made
  injection made with verdict machine
  rw [← machine]
  exact Surroundings.runEntry_maker_class maker slot hc verdict

theorem write_other (s : Surroundings) (second : Registry) (channel : Channel) (text : String) :
    Surroundings.write { s with registry := second } channel text =
      { s.write channel text with registry := second } := by
  unfold Surroundings.write
  dsimp only
  split <;> rfl

theorem Holds.write (h : T.Holds m) (channel : Channel) (text : String) :
    T.Holds { m with host := m.host.write channel text } ∧
      (m.host.write channel text).record = m.host.record := by
  obtain ⟨registry, record, files⟩ := m.host.write_names channel text
  exact ⟨h.onHost registry (congrArg _ record) (congrArg _ record) files, record⟩

/-- What a module is loaded from is one of its texts. -/
theorem Holds.load (h : T.Holds m) {name source : String}
    (loaded : m.host.load name = some source) :
    T.simulation.Covers name source := by
  unfold Surroundings.load at loaded
  split at loaded
  · cases loaded
  obtain ⟨directory, -, found⟩ := Option.bind_eq_some_iff.mp loaded
  obtain ⟨path, candidate, read⟩ := List.exists_of_findSome?_eq_some found
  rw [h.files] at read
  have text : T.files.readText path = .ok source := by
    cases result : T.files.readText path with
    | error f =>
      rw [result] at read
      cases read
    | ok text =>
      rw [result] at read
      cases read
      rfl
  exact fun body parsed decl inside => .text (T.loads candidate text) parsed inside

/-- Text written by both runs. -/
theorem Holds.follows_write (h : T.Holds m) (quiet : m.host.record.pending = none)
    (channel : Channel) (text : String) :
    T.shadow.Follows m (modify (·.write channel text)) (modify (·.write channel text)) := by
  obtain ⟨holds, record⟩ := h.write channel text
  refine ⟨?_, holds, (congrArg _ record).trans quiet⟩
  exact congrArg (Prod.mk ()) (write_other m.host T.second channel text)

theorem nesting (T : Twin) : T.shadow.Nesting Surroundings.host Surroundings.host where
  bodies := fun ⟨h, _⟩ _ _ _ _ found hd => h.placed.bodies found hd
  define := fun ⟨h, quiet⟩ _ _ _ => ⟨h.onVm _, quiet⟩
  openModule := fun ⟨h, quiet⟩ _ => ⟨h.onVm _, quiet⟩
  append _ := fun ⟨h, quiet⟩ _ _ => ⟨h.mapHeap rfl rfl, quiet⟩
  setField := fun ⟨h, quiet⟩ _ _ _ => ⟨h.mapHeap rfl rfl, quiet⟩
  addList := fun ⟨h, quiet⟩ _ => ⟨h.mapHeap (f := fun h => (h.addList _).2) rfl rfl, quiet⟩
  addInstance := fun ⟨h, quiet⟩ _ =>
    ⟨h.mapHeap (f := fun h => (h.addInstance _).2) rfl rfl, quiet⟩
  write := fun ⟨h, quiet⟩ text => h.follows_write quiet .out text
  report := fun ⟨h, quiet⟩ r => h.follows_write quiet .err r.text
  load := fun ⟨h, quiet⟩ _ => ⟨⟨rfl, h, quiet⟩, fun _ loaded => h.load loaded⟩
  defineClass := fun callbacks₁ callbacks₂ _ ⟨h, quiet⟩ =>
    defineClass_sim callbacks₁ callbacks₂ h quiet
  callForeign := fun {e₁ e₂} _ _ ⟨h, quiet⟩ _ vs => h.callForeign_sim quiet e₁ e₂ vs
  allocate := fun {e₁ e₂} _ _ ⟨h, quiet⟩ _ _ vs => h.allocate_sim quiet e₁ e₂ vs
  allocated := .inr fun _ _ ⟨h, _⟩ _ _ _ _ _ _ hc hf made => h.allocated hc hf made
  raise := fun ⟨h, quiet⟩ _ plain => ⟨h, quiet ▸ RuntimeFault.blamedOn_none plain⟩
  exhaust := id
  deeper := fun ⟨h, quiet⟩ => ⟨h.onVm _, quiet⟩
  shallower := fun ⟨h, quiet⟩ => ⟨h.onVm _, quiet⟩
  fault_shallower := fun ⟨h, blamed⟩ => ⟨h.onVm _, blamed⟩
  miscount := .inr id
  engines := Surroundings.counts

theorem driven (T : Twin) : T.shadow.Driven Surroundings.host Surroundings.host where
  toLawful := T.nesting.toLawful
  setSlot := fun ⟨h, quiet⟩ _ _ => ⟨h.onVm _, quiet⟩
  fault_report {f m} := fun ⟨h, blamed⟩ r => by
    obtain ⟨holds, record⟩ := h.write .err r.text
    refine ⟨?_, holds, ?_⟩
    · exact congrArg (Machine.mk m.heap m.vm) (write_other m.host T.second .err r.text).symm
    · change f.BlamedOn T.texts (m.host.write .err r.text).record.pending
      rw [record]
      exact blamed

/-- Both runs of a machine do the same, whatever is asked of it. -/
theorem attended (T : Twin) : Attended T.simulation where
  toNesting := T.nesting.simulates
  slots := T.driven.simulates.slots
  setSlot := T.driven.simulates.setSlot
  fault_report := T.driven.simulates.fault_report
  ensureSlots := by
    rintro ρ m n ⟨rfl, rfl, h, quiet⟩ count
    exact ⟨rfl, rfl, h.onVm _, quiet⟩
  rewind := by
    rintro ρ m n ⟨rfl, rfl, h, quiet⟩
    exact ⟨rfl, rfl, h.onVm _, quiet⟩
  fault_pending := by
    rintro f ρ m n ⟨rfl, rfl, -⟩
    rfl
  settle := by
    rintro ρ m n ⟨rfl, rfl, h, -⟩
    exact ⟨rfl, rfl, h.onHost rfl rfl rfl rfl, rfl⟩
  fault_settle := by
    rintro f ρ m n ⟨rfl, rfl, h, -⟩
    exact ⟨rfl, rfl, h.onHost rfl rfl rfl rfl, rfl⟩

end Twin
end ScriptHost
