import ScriptHost.Proofs.Binding.Moment
import ScriptHost.Proofs.Isolation.Neighbours

/-! Programs with many machines beside programs with one of them alone. Work on that machine comes
to the same report in both, and afterwards the one program is as much as before an image of the
other; work on another machine leaves alone all that is about this one. -/

namespace ScriptHost

/-! ### Registration tables -/

namespace Registry

variable {r s r' s' : Registry} {e : Entry} {point point' : Nat}

theorem registered_mono (le : r ≤ s) : r.registered ≤ s.registered := by
  by_contra longer
  obtain ⟨e, there⟩ : ∃ e, r.find? s.registered = some e :=
    ⟨_, List.getElem?_eq_getElem (Nat.lt_of_not_le longer)⟩
  have beyond : s.find? s.registered = none := List.getElem?_eq_none (Nat.le_refl _)
  cases beyond.symm.trans (le _ e there)

theorem Uniform.register (uniform : r.Uniform)
    (own : ∀ routine, e = .routine routine → routine.Uniform)
    (h : r.register e = .ok (point, s)) : s.Uniform := by
  intro place routine found
  obtain ⟨place, before⟩ | new := find_of_register h found
  · exact uniform place routine before
  · exact own routine new.symm

/-- Where there is room among many there is room alone. -/
theorem register_alone (fewer : s.registered ≤ r.registered)
    (h : r.register e = .ok (point, r')) : ∃ point' s', s.register e = .ok (point', s') := by
  unfold register at h ⊢
  split at h
  · exact ⟨_, _, if_pos (Nat.lt_of_le_of_lt fewer ‹_›)⟩
  · cases h

theorem registered_register (h : r.register e = .ok (point, s)) :
    s.registered = r.registered + 1 := by
  unfold registered
  rw [(register_ok h).2.2, List.length_append]
  rfl

end Registry

/-- Which machine each value is from that the embedding program holds. -/
abbrev Holders := Table String

namespace Program

variable {p q p' q' p'' q'' : Program} {ρ σ τ : Renaming} {name other : String}
  {holders before after : Holders}

/-! ### Mirrors -/

/-- A machine of two programs, with what is known about it. -/
structure Resident (p q : Program) (ρ : Renaming) (x y : Vm × VmRecord) : Prop where
  vm : x.1.Alike ρ y.1
  core : ∀ c, p.heap.class? (x.1.coreClass c) = some c.object
  record : x.2.Matches p.registry q.registry y.2

/-- All that is about one machine of a program is in the other as well, up to the places of objects
and to entry points. -/
structure Mirrors (holders : Holders) (ρ : Renaming) (name : String) (p q : Program) : Prop where
  heap : p.heap.Alike p.registry q.registry ρ q.heap
  registered : q.registry.registered ≤ p.registry.registered
  files : p.files = q.files
  machine : Option.Rel (p.Resident q ρ) (p.machines.get? name) (q.machines.get? name)
  values : ∀ {key}, holders.get? key = some name →
    ∃ v w, p.values.get? key = some v ∧ q.values.get? key = some w ∧ v.Alike ρ w

/-- A step on one machine, or on none, leaves everything alone that is about others. -/
structure Yields (who : Option String) (before after : Holders) (ρ σ : Renaming)
    (p p' : Program) : Prop where
  grown : Heap.Grown ρ p.heap σ p'.heap
  registry : p.registry ≤ p'.registry
  files : p'.files = p.files
  machines : ∀ {other}, who ≠ some other → p'.machines.get? other = p.machines.get? other
  values : ∀ {other key}, who ≠ some other → after.get? key = some other →
    before.get? key = some other ∧ p'.values.get? key = p.values.get? key

/-- No routine has state of its own, and every value that is held is from a machine. -/
structure Orderly (holders : Holders) (p : Program) : Prop where
  uniform : p.registry.Uniform
  held : ∀ {key}, holders.get? key = none → p.values.get? key = none

/-- What is not about the machine of a step is mirrored after it as before. -/
theorem Mirrors.spared (h : Mirrors before τ other p q) {who : Option String}
    (yields : Yields who before after ρ σ p p') (ne : who ≠ some other) (apart : τ.Apart ρ) :
    Mirrors after τ other p' q where
  heap := (h.heap.spared yields.grown apart).tables yields.registry le_rfl
  registered := Nat.le_trans h.registered (Registry.registered_mono yields.registry)
  files := yields.files.trans h.files
  machine := by
    rw [yields.machines ne]
    refine optionRel_imp h.machine fun {x y} resident => ?_
    refine ⟨resident.vm, fun c => ?_, resident.record.mono yields.registry le_rfl⟩
    have own := resident.vm.core c
    unfold Heap.class?
    rw [yields.grown.classes.spared (h.heap.classes.lt own).1 fun b => apart.classes own]
    exact resident.core c
  values own := by
    obtain ⟨held, kept⟩ := yields.values ne own
    rw [kept]
    exact h.values held

theorem Mirrors.apart (h : Mirrors before τ other p q) {who : Option String}
    (yields : Yields who before after ρ σ p p') (apart : τ.Apart ρ) : τ.Apart σ :=
  h.heap.apart yields.grown apart

theorem Yields.refl (who : Option String) (holders : Holders) (ρ : Renaming) (p : Program) :
    Yields who holders holders ρ ρ p p :=
  ⟨.refl ρ p.heap, le_rfl, rfl, fun _ => rfl, fun _ own => ⟨own, rfl⟩⟩

/-- Where a step on a machine leads, among others and alone. -/
structure Moved (name : String) (before after : Holders) (ρ σ : Renaming) (p q p' q' : Program) :
    Prop where
  mirrors : Mirrors after σ name p' q'
  counts : p'.registry.registered + q.registry.registered =
    q'.registry.registered + p.registry.registered
  yields : Yields (some name) before after ρ σ p p'
  orderly : p'.Orderly after

/-- Both programs come to the same report, and the second mirrors the first afterwards. -/
def Echoed {α : Type} (name : String) (before after : Holders) (ρ : Renaming) (p q : Program)
    (x y : α × Program) : Prop :=
  x.1 = y.1 ∧ ∃ σ, Moved name before after ρ σ p q x.2 y.2

theorem Mirrors.stays (h : Mirrors holders ρ name p q) (orderly : p.Orderly holders) :
    Moved name holders holders ρ ρ p q p q :=
  ⟨h, Nat.add_comm _ _, .refl _ holders ρ p, orderly⟩

theorem Mirrors.echoed {α : Type} (h : Mirrors holders ρ name p q) (orderly : p.Orderly holders)
    (a : α) : Echoed name holders holders ρ p q (a, p) (a, q) :=
  ⟨rfl, ρ, h.stays orderly⟩

theorem Echoed.map {α β : Type} {x y : α × Program} (h : Echoed name before after ρ p q x y)
    (f : α → β) : Echoed name before after ρ p q (f x.1, x.2) (f y.1, y.2) :=
  ⟨congrArg f h.1, h.2⟩

/-- A step that changes the heap and the machine, and leaves the rest alone. -/
theorem Mirrors.remachined (h : Mirrors holders ρ name p q) (orderly : p.Orderly holders)
    (le : ρ ≤ σ) {heap heap' : Heap} {machines machines' : Table (Vm × VmRecord)}
    {kept kept' : Option ForeignId} (alike : heap.Alike p.registry q.registry σ heap')
    (grown : Heap.Grown ρ p.heap σ heap)
    (machine : Option.Rel (Resident { p with heap } q σ) (machines.get? name) (machines'.get? name))
    (others : ∀ {other}, other ≠ name → machines.get? other = p.machines.get? other) :
    Moved name holders holders ρ σ p q { p with heap, machines, kept }
      { q with heap := heap', machines := machines', kept := kept' } where
  mirrors := by
    refine ⟨alike, h.registered, h.files, ?_, fun own => ?_⟩
    · exact optionRel_imp machine fun resident => ⟨resident.vm, resident.core, resident.record⟩
    · obtain ⟨v, w, hv, hw, hvw⟩ := h.values own
      exact ⟨v, w, hv, hw, hvw.mono le⟩
  counts := Nat.add_comm _ _
  yields := ⟨grown, le_rfl, rfl, fun ne => others fun same => ne (congrArg some same.symm),
    fun _ own => ⟨own, rfl⟩⟩
  orderly := ⟨orderly.uniform, orderly.held⟩

/-! ### Work -/

variable {vm vm' : Vm} {record record' : VmRecord}

def neighbours (p q : Program) (ρ : Renaming) (orderly : p.Orderly holders) : Neighbours :=
  ⟨p.registry, q.registry, orderly.uniform, ρ, p.heap⟩

theorem Mirrors.started (h : Mirrors holders ρ name p q) (orderly : p.Orderly holders)
    (resident : p.Resident q ρ (vm, record) (vm', record')) :
    (p.neighbours q ρ orderly).Holds ρ (p.started vm record) (q.started vm' record') :=
  ⟨h.heap, .refl ρ p.heap, resident.vm, resident.core,
    ⟨rfl, rfl, resident.record, h.files, rfl⟩⟩

theorem Mirrors.leave (h : Mirrors holders ρ name p q) {orderly : p.Orderly holders} (le : ρ ≤ σ)
    {m n : Machine Surroundings} (holds : (p.neighbours q ρ orderly).Holds σ m n) :
    Moved name holders holders ρ σ p q (p.leave name m) (q.leave name n) := by
  refine h.remachined orderly le holds.heap holds.grown ?_ (Table.get?_set_of_ne _ _)
  rw [Table.get?_set_self, Table.get?_set_self]
  exact .some ⟨holds.vm, holds.core, holds.host.record⟩

theorem Mirrors.work {α : Type} (h : Mirrors holders ρ name p q) (orderly : p.Orderly holders)
    (resident : p.Resident q ρ (vm, record) (vm', record')) {R : Results α α} {x y : Client α}
    (run : LiveSim (p.neighbours q ρ orderly).simulation ρ R x y) :
    ∃ σ a b log p' q', p.work name vm record x = (⟨a, log⟩, p') ∧
      q.work name vm' record' y = (⟨b, log⟩, q') ∧ ExceptRel (R σ) a b ∧
      Moved name holders holders ρ σ p q p' q' := by
  have ended := run _ _ (h.started orderly resident)
  rw [work_ended, work_ended]
  revert ended
  generalize x (p.started vm record) = r, y (q.started vm' record') = s
  rintro (@⟨σ, a, m, b, n, le, ⟨holds, hab⟩⟩ | @⟨σ, halt, m, n, le, holds⟩ |
    never)
  · have log := congrArg List.reverse holds.host.log
    refine ⟨σ, .ok a, .ok b, _, _, _, rfl, ?_, .ok hab, h.leave le holds⟩
    rw [log]
    rfl
  · have log := congrArg List.reverse holds.host.log
    cases halt with
    | panic message =>
      refine ⟨σ, .error message, .error message, _, _, _, rfl, ?_, .error _, h.leave le holds⟩
      rw [log]
      rfl
    | exhausted =>
      refine ⟨σ, .error "", .error "", _, _, _, rfl, ?_, .error _, h.leave le holds⟩
      rw [log]
      rfl
  · cases never

theorem Mirrors.work_same {α : Type} (h : Mirrors holders ρ name p q)
    (orderly : p.Orderly holders) (resident : p.Resident q ρ (vm, record) (vm', record'))
    {x y : Client α} (run : LiveSim (p.neighbours q ρ orderly).simulation ρ .same x y) :
    Echoed name holders holders ρ p q (p.work name vm record x) (q.work name vm' record' y) := by
  obtain ⟨σ, a, b, log, p', q', hx, hy, results, moved⟩ := h.work orderly resident run
  rw [hx, hy]
  refine ⟨?_, σ, moved⟩
  cases results with
  | ok same => rw [show _ = _ from same]
  | error message => rfl

theorem Mirrors.runSource (h : Mirrors holders ρ name p q) (orderly : p.Orderly holders)
    (resident : p.Resident q ρ (vm, record) (vm', record')) (source : String) :
    Echoed name holders holders ρ p q (p.runSource engine name vm record source)
      (q.runSource engine name vm' record' source) := by
  have laws := (p.neighbours q ρ orderly).attended
  have covers : (p.neighbours q ρ orderly).simulation.Covers entryModule source :=
    fun _ _ _ _ => trivial
  have ran := h.work_same orderly resident
    (Client.interpret_sim laws (engine_alike laws.toNesting programDepth) covers)
  exact ran.map (reported fun _ => .done)

theorem Mirrors.runRead (h : Mirrors holders ρ name p q) (orderly : p.Orderly holders)
    (resident : p.Resident q ρ (vm, record) (vm', record')) (read : Except FileFault String) :
    Echoed name holders holders ρ p q (p.runRead engine name vm record read)
      (q.runRead engine name vm' record' read) := by
  cases read with
  | ok source => exact h.runSource orderly resident source
  | error f => exact h.echoed orderly _

theorem Mirrors.call (h : Mirrors holders ρ name p q) (orderly : p.Orderly holders)
    (resident : p.Resident q ρ (vm, record) (vm', record')) {value : String}
    (own : holders.get? value = some name) (signature : String) (params : List HostValue) :
    Echoed name holders holders ρ p q
      (p.runErrand engine name vm record (.call value signature params))
      (q.runErrand engine name vm' record' (.call value signature params)) := by
  obtain ⟨v, w, hv, hw, hvw⟩ := h.values own
  have laws := (p.neighbours q ρ orderly).attended
  have ran := h.work_same orderly resident (Client.call_sim laws
    (engine_alike laws.toNesting programDepth) hvw signature params)
  unfold runErrand
  dsimp only
  rw [hv, hw]
  exact ran.map (reported .returned)

/-- A value of the machine taken under a name, whatever machine the name was for before. -/
theorem Moved.hold (h : Moved name holders holders ρ σ p q p' q') (keep : String) {v w : Value}
    (hvw : v.Alike σ w) :
    Moved name holders (holders.set keep name) ρ σ p q { p' with values := p'.values.set keep v }
      { q' with values := q'.values.set keep w } := by
  obtain ⟨mirrors, counts, yields, orderly⟩ := h
  refine ⟨⟨mirrors.heap, mirrors.registered, mirrors.files, ?_, fun {key} own => ?_⟩,
    counts, ⟨yields.grown, yields.registry, yields.files, yields.machines,
      fun {other key} ne own => ?_⟩,
    orderly.uniform, fun {key} free => ?_⟩
  · exact optionRel_imp mirrors.machine fun resident =>
      ⟨resident.vm, resident.core, resident.record⟩
  · dsimp only
    rw [Table.get?_set, Table.get?_set]
    rw [Table.get?_set] at own
    split
    · exact ⟨v, w, rfl, rfl, hvw⟩
    · rw [if_neg ‹_›] at own
      exact mirrors.values own
  · dsimp only
    rw [Table.get?_set] at own ⊢
    split at own
    · exact absurd own ne
    · rw [if_neg ‹_›]
      exact yields.values ne own
  · dsimp only
    rw [Table.get?_set] at free ⊢
    split at free
    · cases free
    · rw [if_neg ‹_›]
      exact orderly.held free

/-! ### Registrations -/

theorem Mirrors.register (h : Mirrors holders ρ name p q) (orderly : p.Orderly holders) {e : Entry}
    (own : ∀ routine, e = .routine routine → routine.Uniform)
    {enter : HostFunction → VmRecord → VmRecord}
    (enters : ∀ {r s : Registry} {f g x y}, x.Matches r s y → r.Leads f e → s.Leads g e →
      (enter f x).Matches r s (enter g y)) (registered : p.register name e enter = .ok p') :
    ∃ q', q.register name e enter = .ok q' ∧ Moved name holders holders ρ ρ p q p' q' := by
  unfold Program.register at registered ⊢
  cases entered : p.registry.register e with
  | error f =>
    rw [entered] at registered
    cases registered
  | ok result =>
    obtain ⟨point, registry⟩ := result
    rw [entered] at registered
    cases registered
    obtain ⟨point', registry', entered'⟩ := Registry.register_alone h.registered entered
    obtain ⟨le, leads, -⟩ := Registry.register_ok entered
    obtain ⟨le', leads', -⟩ := Registry.register_ok entered'
    rw [entered']
    have made := Registry.registered_register entered
    have made' := Registry.registered_register entered'
    refine ⟨_, rfl, ⟨h.heap.tables le le', ?_, h.files, ?_, h.values⟩, ?_,
      ⟨.refl ρ p.heap, le, rfl, fun {other} ne => ?_, fun _ own => ⟨own, rfl⟩⟩,
      orderly.uniform.register own entered, orderly.held⟩
    · dsimp only
      rw [made, made']
      exact Nat.succ_le_succ h.registered
    · dsimp only
      rw [Table.get?_update_self, Table.get?_update_self]
      refine optionRel_map h.machine fun {x y} resident => ?_
      exact ⟨resident.vm, resident.core, enters (resident.record.mono le le') leads leads'⟩
    · dsimp only
      omega
    · dsimp only
      rw [Table.get?_update_of_ne _ _ fun same => ne (congrArg some same.symm)]

theorem Mirrors.registerMethod (h : Mirrors holders ρ name p q) (orderly : p.Orderly holders)
    {member : String} {r : Routine} (uniform : r.Uniform)
    (registered : p.registerMethod name member r = .ok p') :
    ∃ q', q.registerMethod name member r = .ok q' ∧ Moved name holders holders ρ ρ p q p' q' := by
  refine h.register orderly (fun routine same => ?_) (fun known leads leads' => ?_) registered
  · cases same
    exact uniform
  · exact ⟨known.methods.set member ⟨r, leads, leads'⟩, known.classes, known.modulesDir,
      known.pending, known.broken⟩

theorem Mirrors.registerClass (h : Mirrors holders ρ name p q) (orderly : p.Orderly holders)
    {className : String} {maker : Maker}
    (registered : p.registerClass name className maker = .ok p') :
    ∃ q', q.registerClass name className maker = .ok q' ∧
      Moved name holders holders ρ ρ p q p' q' := by
  refine h.register orderly (fun routine same => by cases same) (fun known leads leads' => ?_)
    registered
  exact ⟨known.methods, known.classes.set className ⟨maker, ⟨_, rfl, leads⟩, _, rfl, leads'⟩,
    known.modulesDir, known.pending, known.broken⟩

theorem numbered_uniform (i : Nat) : (numbered i).Uniform :=
  described_uniform _ _ fun _ same => by cases same

theorem Yields.trans {who : Option String} {σ' : Renaming} {middle : Holders}
    (first : Yields who before middle ρ σ p p') (second : Yields who middle after σ σ' p' p'') :
    Yields who before after ρ σ' p p'' where
  grown := first.grown.trans second.grown
  registry := first.registry.trans second.registry
  files := second.files.trans first.files
  machines ne := (second.machines ne).trans (first.machines ne)
  values ne own := by
    obtain ⟨held, kept⟩ := second.values ne own
    obtain ⟨held', kept'⟩ := first.values ne held
    exact ⟨held', kept.trans kept'⟩

theorem Mirrors.registerMany (h : Mirrors holders ρ name p q) (orderly : p.Orderly holders)
    {stem : String} {indices : List Nat}
    (registered : p.registerMany name stem indices = (none, p')) :
    ∃ q', q.registerMany name stem indices = (none, q') ∧
      Moved name holders holders ρ ρ p q p' q' := by
  induction indices generalizing p q with
  | nil =>
    cases registered
    exact ⟨q, rfl, h.stays orderly⟩
  | cons i rest ih =>
    unfold Program.registerMany at registered ⊢
    cases entered : p.registerMethod name (stem ++ i.repr ++ "()") (Program.numbered i) with
    | error f =>
      rw [entered] at registered
      cases registered
    | ok p₁ =>
      rw [entered] at registered
      obtain ⟨q₁, entered', moved⟩ := h.registerMethod orderly (numbered_uniform i) entered
      rw [entered']
      obtain ⟨q', registered', later⟩ := ih moved.mirrors moved.orderly registered
      have counts := moved.counts
      have counts' := later.counts
      exact ⟨q', registered', later.mirrors, by omega, moved.yields.trans later.yields,
        later.orderly⟩

end Program
end ScriptHost
