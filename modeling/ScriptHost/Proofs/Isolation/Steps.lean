import ScriptHost.Proofs.Isolation.Programs

/-! The steps of a session: whose each of them is, what it takes for steps to keep machines apart,
and that a step on one machine comes to the same among others and alone. -/

namespace ScriptHost

namespace Step

variable (holders : Holders)

/-- The machine that a step is about. What is done with a value that is not held is about none. -/
def machine? : Step → Option String
  | .machine name _ | .dropMachine name => some name
  | .on name (.call value _ _) => (holders.get? value).map fun _ => name
  | .on name _ => some name
  | .dropValue value => holders.get? value
  | _ => none

/-- Which machine each held value is from after a step. -/
def held : Step → StepResult → Holders
  | .on name (.lookup _ keep), .flag true => holders.set keep name
  | .dropValue value, _ => holders.erase value
  | _, _ => holders

/-- Whether no value of one machine is used with another. -/
def keepsApart : Step → Bool
  | .on name (.call value _ _) => (holders.get? value).all (· == name)
  | _ => true

/-- No routine with state of its own is registered. -/
def Uniform : Step → Prop
  | .on _ (.register _ r) => r.Uniform
  | _ => True

/-- A registration that failed. -/
def refused : Step → StepResult → Bool
  | .on _ (.register ..), .fault _ | .on _ (.registerClass ..), .fault _ => true
  | .on _ (.registerMany ..), .failedAt .. => true
  | _, _ => false

end Step

namespace Program

variable {p q p' : Program} {ρ : Renaming} {name : String} {holders : Holders} {vm vm' : Vm}
  {record record' : VmRecord}

/-! ### Machines and values -/

theorem Mirrors.setRecord (h : Mirrors holders ρ name p q) (orderly : p.Orderly holders)
    {f : VmRecord → VmRecord} (alike : ∀ {x y : VmRecord}, x.Matches p.registry q.registry y →
      (f x).Matches p.registry q.registry (f y)) :
    Moved name holders holders ρ ρ p q (p.setRecord name f) (q.setRecord name f) := by
  refine h.remachined orderly le_rfl h.heap (.refl ρ p.heap) ?_ (Table.get?_update_of_ne _ _)
  rw [Table.get?_update_self, Table.get?_update_self]
  exact optionRel_map h.machine fun resident =>
    ⟨resident.vm, resident.core, alike resident.record⟩

/-- A new machine: its core classes are new pairs. -/
theorem Mirrors.addMachine (h : Mirrors holders ρ name p q) (orderly : p.Orderly holders)
    (modulesDir : Option String) :
    ∃ σ, Moved name holders holders ρ σ p q (p.addMachine name modulesDir)
      (q.addMachine name modulesDir) := by
  have same (c : ClassObject) (core : c ∈ CoreClass.all.map CoreClass.object) :
      c.Matches p.registry q.registry c := by
    obtain ⟨kind, -, rfl⟩ := List.mem_map.mp core
    exact kind.object_matches
  obtain ⟨σ, le, alike, grown, pairs⟩ := h.heap.addClasses same
  refine ⟨σ, h.remachined orderly le alike grown ?_ (Table.get?_set_of_ne _ _)⟩
  rw [Table.get?_set_self, Table.get?_set_self]
  refine .some ⟨⟨fun c => ?_, .nil, .nil, rfl, rfl, rfl⟩, fun c => ?_, .nil, .nil, rfl, rfl, rfl⟩
  · cases c with
    | bool => exact pairs 0 (by decide)
    | null => exact pairs 1 (by decide)
    | num => exact pairs 2 (by decide)
    | string => exact pairs 3 (by decide)
    | list => exact pairs 4 (by decide)
    | system => exact pairs 5 (by decide)
  · exact p.heap.class?_addCore_coreClass c

theorem Mirrors.dropMachine (h : Mirrors holders ρ name p q) (orderly : p.Orderly holders) :
    Echoed name holders holders ρ p q (p.stepOn engine (.dropMachine name))
      (q.stepOn engine (.dropMachine name)) := by
  refine ⟨?_, ρ, h.remachined orderly le_rfl h.heap (.refl ρ p.heap) ?_
    (Table.get?_erase_of_ne _)⟩
  · have there : p.machines.has name = q.machines.has name := optionRel_isSome h.machine
    change StepReport.mk (.flag (p.machines.has name)) [] = ⟨.flag (q.machines.has name), []⟩
    rw [there]
  · rw [Table.get?_erase_self, Table.get?_erase_self]
    exact .none

theorem Yields.dropValue (who : Option String) (holders : Holders) (ρ : Renaming) (p : Program)
    (value : String) :
    Yields who holders (holders.erase value) ρ ρ p { p with values := p.values.erase value } := by
  refine ⟨.refl ρ p.heap, le_rfl, rfl, fun _ => rfl, fun {other key} _ left => ?_⟩
  obtain ⟨ne, still⟩ := Table.get?_erase_some left
  refine ⟨still, ?_⟩
  dsimp only
  exact Table.get?_erase_of_ne _ ne

theorem Orderly.dropValue (orderly : p.Orderly holders) (value : String) :
    Orderly (holders.erase value) { p with values := p.values.erase value } := by
  refine ⟨orderly.uniform, fun {key} free => ?_⟩
  dsimp only
  rw [Table.get?_erase] at free ⊢
  split at free
  · exact if_pos ‹_›
  · rw [if_neg ‹_›]
    exact orderly.held free

theorem Mirrors.dropValue (h : Mirrors holders ρ name p q) (orderly : p.Orderly holders)
    {value : String} (own : holders.get? value = some name) :
    Echoed name holders (holders.erase value) ρ p q (p.stepOn engine (.dropValue value))
      (q.stepOn engine (.dropValue value)) := by
  obtain ⟨v, w, hv, hw, -⟩ := h.values own
  refine ⟨?_, ρ, ⟨h.heap, h.registered, h.files, ?_, fun {key} left => ?_⟩,
    Nat.add_comm _ _, .dropValue _ holders ρ p value, orderly.dropValue value⟩
  · change StepReport.mk (.flag (p.values.get? value).isSome) [] =
      ⟨.flag (q.values.get? value).isSome, []⟩
    rw [hv, hw]
    rfl
  · exact optionRel_imp h.machine fun resident => ⟨resident.vm, resident.core, resident.record⟩
  · obtain ⟨ne, still⟩ := Table.get?_erase_some left
    change ∃ v w, Table.get? (p.values.erase value) key = some v ∧
      Table.get? (q.values.erase value) key = some w ∧ v.Alike ρ w
    rw [Table.get?_erase_of_ne _ ne, Table.get?_erase_of_ne _ ne]
    exact h.values still

/-! ### Errands -/

theorem Mirrors.lookup (h : Mirrors holders ρ name p q) (orderly : p.Orderly holders)
    (resident : p.Resident q ρ (vm, record) (vm', record')) (variableName keep : String) :
    Echoed name holders ((Step.on name (.lookup variableName keep)).held holders
        (p.runErrand engine name vm record (.lookup variableName keep)).1.result) ρ p q
      (p.runErrand engine name vm record (.lookup variableName keep))
      (q.runErrand engine name vm' record' (.lookup variableName keep)) := by
  have laws := (p.neighbours q ρ orderly).attended
  obtain ⟨σ, a, b, log, p', q', hx, hy, results, moved⟩ :=
    h.work orderly resident (Client.lookup_sim laws variableName)
  rw [runErrand_lookup, runErrand_lookup, hx, hy]
  cases results with
  | error message => exact ⟨rfl, σ, moved⟩
  | ok found =>
    cases found with
    | none => exact ⟨rfl, σ, moved⟩
    | some hvw => exact ⟨rfl, σ, moved.hold keep hvw⟩

theorem Mirrors.runErrand (h : Mirrors holders ρ name p q) (orderly : p.Orderly holders)
    (resident : p.Resident q ρ (vm, record) (vm', record')) {errand : Errand}
    (own : (Step.on name errand).machine? holders = some name)
    (apart : (Step.on name errand).keepsApart holders = true)
    (uniform : (Step.on name errand).Uniform)
    (accepted : (Step.on name errand).refused
      (p.runErrand engine name vm record errand).1.result = false) :
    Echoed name holders ((Step.on name errand).held holders
        (p.runErrand engine name vm record errand).1.result) ρ p q
      (p.runErrand engine name vm record errand) (q.runErrand engine name vm' record' errand) := by
  cases errand with
  | setModulesDir path =>
    exact ⟨rfl, ρ, h.setRecord orderly (f := fun r => { r with modulesDir := some path })
      fun known => ⟨known.methods, known.classes, rfl, known.pending, known.broken⟩⟩
  | breakWriter channel =>
    exact ⟨rfl, ρ, h.setRecord orderly (f := fun r => { r with broken := channel :: r.broken })
      fun known => ⟨known.methods, known.classes, known.modulesDir, known.pending,
        congrArg (channel :: ·) known.broken⟩⟩
  | register member r =>
    unfold Program.runErrand at accepted ⊢
    dsimp only at accepted ⊢
    cases registered : p.registerMethod name member r with
    | error f =>
      rw [registered] at accepted
      cases accepted
    | ok p' =>
      obtain ⟨q', registered', moved⟩ := h.registerMethod orderly uniform registered
      rw [registered']
      exact ⟨rfl, ρ, moved⟩
  | registerClass className maker =>
    unfold Program.runErrand at accepted ⊢
    dsimp only at accepted ⊢
    cases registered : p.registerClass name className maker with
    | error f =>
      rw [registered] at accepted
      cases accepted
    | ok p' =>
      obtain ⟨q', registered', moved⟩ := h.registerClass orderly registered
      rw [registered']
      exact ⟨rfl, ρ, moved⟩
  | registerMany stem count =>
    unfold Program.runErrand at accepted ⊢
    dsimp only at accepted ⊢
    cases registered : p.registerMany name stem (List.range count) with
    | mk failure p' =>
      cases failure with
      | some failure =>
        rw [registered] at accepted
        cases accepted
      | none =>
        obtain ⟨q', registered', moved⟩ := h.registerMany orderly registered
        rw [registered']
        exact ⟨rfl, ρ, moved⟩
  | interpret source => exact h.runSource orderly resident source
  | interpretBytes bytes => exact h.runRead orderly resident _
  | interpretFile path =>
    have read := h.runRead orderly resident (p.files.readText path)
    unfold Program.runErrand
    dsimp only
    rw [← h.files]
    exact read
  | lookup variableName keep => exact h.lookup orderly resident variableName keep
  | call value signature params =>
    obtain ⟨other, held, -⟩ := Option.map_eq_some_iff.mp own
    change (holders.get? value).all (· == name) = true at apart
    rw [held] at apart
    obtain rfl := eq_of_beq apart
    exact h.call orderly resident held signature params

/-! ### Steps -/

/-- A step on a machine comes to the same among others and alone. -/
theorem Mirrors.stepOn (h : Mirrors holders ρ name p q) (orderly : p.Orderly holders) {s : Step}
    (own : s.machine? holders = some name) (apart : s.keepsApart holders = true)
    (uniform : s.Uniform)
    (accepted : s.refused (p.stepOn engine s).1.result = false) :
    Echoed name holders (s.held holders (p.stepOn engine s).1.result) ρ p q (p.stepOn engine s)
      (q.stepOn engine s) := by
  cases s with
  | machine other modules =>
    cases own
    exact ⟨rfl, h.addMachine orderly _⟩
  | dropMachine other =>
    cases own
    exact h.dropMachine orderly
  | dropValue value => exact h.dropValue orderly own
  | on other errand =>
    obtain rfl : other = name := by
      cases errand with
      | call value signature params =>
        obtain ⟨-, -, same⟩ := Option.map_eq_some_iff.mp own
        exact same
      | _ => exact Option.some.inj own
    unfold Program.stepOn at accepted ⊢
    dsimp only at accepted ⊢
    obtain ⟨hp, hq⟩ | ⟨x, y, hp, hq, resident⟩ := optionRel_cases h.machine
    · rw [hp, hq]
      refine ⟨rfl, ρ, ?_⟩
      cases errand <;> exact h.stays orderly
    · rw [hp] at accepted
      rw [hp, hq]
      exact h.runErrand orderly resident own apart uniform accepted
  | registered | kept | dropKept | dropped | unknown => cases own

end Program
end ScriptHost
