import ScriptHost.Proofs.Binding.History

/-! The registration table of a session. It holds what was registered, in the order in which it was
registered, whatever machines it was registered for and whatever ran in between; a registration
either takes the next entry point or changes nothing. -/

namespace ScriptHost

/-- What a machine asks the table for: a method or a foreign class under a name. -/
inductive Registration where
  | method (member : String) (r : Routine)
  | foreignClass (className : String) (maker : Maker)

namespace Registration

def entry : Registration → Entry
  | method _ r => .routine r
  | foreignClass _ maker => .maker maker

def errand : Registration → Errand
  | method member r => .register member r
  | foreignClass className maker => .registerClass className maker

/-- The names of a machine with one more, or with a new meaning for one it had. -/
def enter (f : HostFunction) (record : VmRecord) : Registration → VmRecord
  | method member _ => { record with methods := record.methods.set member f }
  | foreignClass className maker =>
    { record with classes := record.classes.set className ⟨some f, true, some maker.type⟩ }

end Registration

namespace History

/-- The entries that a step registered. -/
def stepEntries : Step → StepResult → List Entry
  | .on _ (.register _ r), .done => [.routine r]
  | .on _ (.registerClass _ maker), .done => [.maker maker]
  | .on _ (.registerMany _ count), .done =>
    (List.range count).map fun i => .routine (Program.numbered i)
  | .on _ (.registerMany _ _), .failedAt i _ =>
    (List.range i).map fun i => .routine (Program.numbered i)
  | _, _ => []

/-- The entries of all registrations that succeeded, the first one first. -/
def entries : History → List Entry
  | [] => []
  | (s, r) :: before => entries before ++ stepEntries s r

end History

/-! ### One registration -/

namespace Program

variable {p q : Program} {name : String}

/-- A registration that finds room: the next entry point leads to it, and one name of one machine
leads to that entry point. -/
def entered (p : Program) (name : String) (reg : Registration) : Program :=
  { p with
    registry := ⟨p.registry.entries ++ [reg.entry]⟩
    machines := p.machines.update name fun (vm, record) =>
      (vm, reg.enter (.entry p.registry.registered) record) }

theorem register_room (room : p.registry.registered < Registry.capacity) (reg : Registration) :
    p.register name reg.entry (fun f record => reg.enter f record) = .ok (p.entered name reg) := by
  unfold register Registry.register
  rw [if_pos room]
  rfl

theorem register_full (full : ¬p.registry.registered < Registry.capacity) (e : Entry)
    (enter : HostFunction → VmRecord → VmRecord) :
    p.register name e enter = .error (.capacity Registry.capacity) := by
  unfold register Registry.register
  rw [if_neg full]
  rfl

theorem registerMethod_eq (p : Program) (name member : String) (r : Routine) :
    p.registerMethod name member r = p.register name (Registration.method member r).entry
      (fun f record => (Registration.method member r).enter f record) := rfl

/-- A registration as a step: what it is for and which machine asks make no difference. -/
theorem runErrand_registration (engine : Engine Surroundings) (p : Program) (name : String)
    (vm : Vm) (record : VmRecord) (reg : Registration) :
    p.runErrand engine name vm record reg.errand =
      p.registering (p.register name reg.entry fun f record => reg.enter f record) := by
  cases reg <;> rfl

theorem registration_room {engine : Engine Surroundings} {vm : Vm} {record : VmRecord}
    (room : p.registry.registered < Registry.capacity) (reg : Registration) :
    p.runErrand engine name vm record reg.errand = (⟨.done, []⟩, p.entered name reg) := by
  rw [runErrand_registration, register_room room]
  rfl

theorem registration_full {engine : Engine Surroundings} {vm : Vm} {record : VmRecord}
    (full : ¬p.registry.registered < Registry.capacity) (reg : Registration) :
    p.runErrand engine name vm record reg.errand =
      (⟨.fault (.capacity Registry.capacity), []⟩, p) := by
  rw [runErrand_registration, register_full full]
  rfl

/-! ### One step -/

/-- The table after some of the entries asked for found room. -/
structure Took (p q : Program) (taken : List Entry) : Prop where
  entries : q.registry.entries = p.registry.entries ++ taken
  bounded : p.registry.registered ≤ Registry.capacity → q.registry.registered ≤ Registry.capacity

theorem Took.none (same : q.registry = p.registry) : p.Took q [] where
  entries := by rw [same, List.append_nil]
  bounded h := by rwa [same]

theorem Took.trans {r : Program} {first second : List Entry} (h : p.Took q first)
    (h' : q.Took r second) : p.Took r (first ++ second) where
  entries := by rw [h'.entries, h.entries, List.append_assoc]
  bounded room := h'.bounded (h.bounded room)

theorem took_entered (room : p.registry.registered < Registry.capacity) (reg : Registration) :
    p.Took (p.entered name reg) [reg.entry] where
  entries := rfl
  bounded _ := by
    change (p.registry.entries ++ [reg.entry]).length ≤ _
    rw [List.length_append]
    exact room

/-- A registration as a step. -/
theorem took_registration (engine : Engine Surroundings) (p : Program) (name : String) (vm : Vm)
    (record : VmRecord) (reg : Registration) :
    p.Took (p.runErrand engine name vm record reg.errand).2
      (History.stepEntries (.on name reg.errand)
        (p.runErrand engine name vm record reg.errand).1.result) := by
  by_cases room : p.registry.registered < Registry.capacity
  · rw [registration_room room]
    cases reg <;> exact took_entered room _
  · rw [registration_full room]
    cases reg <;> exact .none rfl

/-- Many methods registered one after the other: those before the first that finds no room. -/
theorem took_registerMany {stem : String} {indices : List Nat}
    {failure : Option (Nat × BoundaryFault)}
    (registered : p.registerMany name stem indices = (failure, q)) :
    ∃ done, (match failure with
        | none => indices = done
        | some (i, _) => ∃ rest, indices = done ++ i :: rest) ∧
      p.Took q (done.map fun i => .routine (numbered i)) := by
  induction indices generalizing p with
  | nil =>
    cases registered
    exact ⟨[], rfl, .none rfl⟩
  | cons i rest ih =>
    unfold registerMany at registered
    rw [registerMethod_eq] at registered
    by_cases room : p.registry.registered < Registry.capacity
    · rw [register_room room] at registered
      obtain ⟨done, ends, took⟩ := ih registered
      refine ⟨i :: done, ?_, (took_entered room _).trans took⟩
      cases failure with
      | none => exact congrArg (i :: ·) ends
      | some failed =>
        obtain ⟨later, same⟩ := ends
        exact ⟨later, congrArg (i :: ·) same⟩
    -- The first that finds no room ends it; those after it are not tried.
    · rw [register_full room] at registered
      cases registered
      exact ⟨[], ⟨rest, rfl⟩, .none rfl⟩

theorem took_many (engine : Engine Surroundings) (p : Program) (name : String) (vm : Vm)
    (record : VmRecord) (stem : String) (count : Nat) :
    p.Took (p.runErrand engine name vm record (.registerMany stem count)).2
      (History.stepEntries (.on name (.registerMany stem count))
        (p.runErrand engine name vm record (.registerMany stem count)).1.result) := by
  unfold runErrand
  dsimp only
  cases registered : p.registerMany name stem (List.range count) with
  | mk failure q =>
    obtain ⟨done, ends, took⟩ := took_registerMany registered
    cases failure with
    | none =>
      subst ends
      exact took
    | some failed =>
      obtain ⟨rest, same⟩ := ends
      rw [prefix_range same] at took
      exact took

/-- Work on a machine leaves the table alone. -/
theorem registry_work {α : Type} (p : Program) (name : String) (vm : Vm) (record : VmRecord)
    (act : Client α) : (p.work name vm record act).2.registry = p.registry := by
  rw [work_ended]
  rcases act (p.started vm record) with _ | ⟨_ | _, _⟩ <;> rfl

theorem registry_runRead (engine : Engine Surroundings) (p : Program) (name : String) (vm : Vm)
    (record : VmRecord) (read : Except FileFault String) :
    (p.runRead engine name vm record read).2.registry = p.registry := by
  cases read with
  | ok source => exact registry_work p name vm record _
  | error f => rfl

theorem registry_lookup (engine : Engine Surroundings) (p : Program) (name : String) (vm : Vm)
    (record : VmRecord) (variableName keep : String) :
    (p.runErrand engine name vm record (.lookup variableName keep)).2.registry = p.registry := by
  rw [runErrand_lookup, ← registry_work p name vm record (Client.lookup variableName)]
  rcases p.work name vm record (Client.lookup variableName) with ⟨⟨_ | _ | _, _⟩, _⟩ <;> rfl

theorem registry_call (engine : Engine Surroundings) (p : Program) (name : String) (vm : Vm)
    (record : VmRecord) (value signature : String) (params : List HostValue) :
    (p.runErrand engine name vm record (.call value signature params)).2.registry =
      p.registry := by
  unfold runErrand
  dsimp only
  cases p.values.get? value with
  | none => rfl
  | some v => exact registry_work p name vm record _

theorem took_runErrand (engine : Engine Surroundings) (p : Program) (name : String) (vm : Vm)
    (record : VmRecord) (errand : Errand) :
    p.Took (p.runErrand engine name vm record errand).2
      (History.stepEntries (.on name errand)
        (p.runErrand engine name vm record errand).1.result) := by
  cases errand with
  | setModulesDir | breakWriter => exact .none rfl
  | register member r => exact took_registration engine p name vm record (.method member r)
  | registerClass className maker =>
    exact took_registration engine p name vm record (.foreignClass className maker)
  | registerMany stem count => exact took_many engine p name vm record stem count
  | interpret source => exact .none (registry_work p name vm record _)
  | interpretBytes bytes => exact .none (registry_runRead engine p name vm record _)
  | interpretFile path => exact .none (registry_runRead engine p name vm record _)
  | lookup variableName keep => exact .none (registry_lookup engine p name vm record _ _)
  | call value signature params => exact .none (registry_call engine p name vm record _ _ _)

theorem took_stepOn (engine : Engine Surroundings) (p : Program) (s : Step) :
    p.Took (p.stepOn engine s).2 (History.stepEntries s (p.stepOn engine s).1.result) := by
  cases s with
  | on name errand =>
    unfold Program.stepOn
    dsimp only
    cases p.machines.get? name with
    | none => cases errand <;> exact .none rfl
    | some there => exact took_runErrand engine p name there.1 there.2 errand
  | machine | dropMachine | dropValue | registered | kept | dropKept | dropped | unknown =>
    exact .none rfl

/-! ### Sessions -/

/-- The table of a session is what its history registered, and never more than there is room for. -/
theorem took_after (files : Files) (ss : List Step) :
    (start files).Took (after files ss) (history files ss).entries := by
  induction ss using List.reverseRecOn with
  | nil => exact .none rfl
  | append_singleton ss s ih =>
    rw [history_append, after_append]
    exact ih.trans (took_stepOn engine (after files ss) s)

theorem entries_after (files : Files) (ss : List Step) :
    (after files ss).registry.entries = (history files ss).entries :=
  (took_after files ss).entries

theorem registered_after (files : Files) (ss : List Step) :
    (after files ss).registry.registered = (history files ss).entries.length :=
  congrArg List.length (entries_after files ss)

theorem entries_append (files : Files) (ss ts : List Step) :
    (history files ss).entries <+: (history files (ss ++ ts)).entries := by
  induction ts using List.reverseRecOn with
  | nil => simp
  | append_singleton ts t ih =>
    rw [← List.append_assoc, history_append]
    exact ih.trans (List.prefix_append _ _)

/-- An entry point runs what was registered for it, in any machine and at any later time. -/
theorem host_run_entry {files : Files} {ss : List Step} {k : Nat} {e : Entry}
    (taken : (history files ss).entries[k]? = some e) (ts : List Step)
    {m : Machine Surroundings} (registry : m.host.registry = (after files (ss ++ ts)).registry)
    (engine : Engine Surroundings) :
    Surroundings.host.run (.entry k) engine m = .ok () (Surroundings.runEntry e m) := by
  obtain ⟨inside, -⟩ := List.getElem?_eq_some_iff.mp taken
  have later : m.host.registry.find? k = some e := by
    obtain ⟨more, same⟩ := entries_append files ss ts
    unfold Registry.find?
    rw [registry, entries_after, ← same, List.getElem?_append_left inside, taken]
  rw [Surroundings.host_run, Surroundings.runs_entry later]

/-- In every session, over any number of machines: the table holds the entries of the registrations
that succeeded, in order, and counts them; it never holds more than 128, and keeps what it holds.
The entry point of each runs exactly what was registered, in every machine and from then on. Another
registration takes the next entry point as long as there is one, and changes one name of one machine
besides; once all are taken, and only then, it fails and changes nothing. -/
theorem entry_points_in_order (files : Files) (ss : List Step) :
    let p := after files ss
    let taken := (history files ss).entries
    p.registry.entries = taken ∧ taken.length ≤ 128 ∧
    p.step .registered = (⟨.count taken.length, []⟩, p) ∧
    (∀ ts, taken <+: (history files (ss ++ ts)).entries) ∧
    (∀ k e, taken[k]? = some e → ∀ ts (m : Machine Surroundings),
      m.host.registry = (after files (ss ++ ts)).registry → ∀ engine,
      Surroundings.host.run (.entry k) engine m = .ok () (Surroundings.runEntry e m)) ∧
    ∀ name vm record, p.machines.get? name = some (vm, record) → ∀ reg : Registration,
      (taken.length < 128 → p.step (.on name reg.errand) =
        (⟨.done, []⟩, { p with
          registry := ⟨taken ++ [reg.entry]⟩
          machines := p.machines.update name fun (vm, record) =>
            (vm, reg.enter (.entry taken.length) record) })) ∧
      (p.step (.on name reg.errand) = (⟨.fault (.capacity 128), []⟩, p) ↔
        taken.length = 128) := by
  intro p taken
  have entries : p.registry.entries = taken := entries_after files ss
  have registered : p.registry.registered = taken.length := registered_after files ss
  have bounded : taken.length ≤ 128 := by
    rw [← registered]
    exact (took_after files ss).bounded (Nat.zero_le _)
  have errand {name vm record} (found : p.machines.get? name = some (vm, record))
      (reg : Registration) : p.step (.on name reg.errand) =
        p.runErrand engine name vm record reg.errand := by
    unfold step stepOn
    dsimp only
    rw [found]
  refine ⟨entries, bounded, ?_, entries_append files ss, fun k e found ts m registry engine =>
    host_run_entry found ts registry engine, fun name vm record found reg => ?_⟩
  · rw [← registered]
    rfl
  · have room (below : taken.length < 128) : p.step (.on name reg.errand) =
        (⟨.done, []⟩, p.entered name reg) := by
      rw [errand found, registration_room (registered ▸ below)]
    refine ⟨fun below => ?_, fun refused => ?_, fun full => ?_⟩
    · rw [room below, entered, entries, registered]
    · refine Nat.le_antisymm bounded (Nat.le_of_not_lt fun below => ?_)
      rw [room below] at refused
      cases congrArg (fun step => step.1.result) refused
    · rw [errand found, registration_full]
      · rfl
      · rw [registered, full]
        exact Nat.lt_irrefl _

/-- The last of 129 registrations finds all entry points taken. -/
example :
    let many : List Step := [.machine "vm" false, .on "vm" (.registerMany "static Many.m" 128)]
    (after noFiles many).registry.registered = 128 ∧
    ((after noFiles many).step (.on "vm" (.register "static Many.m0()" (numbered 1)))).1.fault? =
      some (.capacity 128) := by decide +kernel

end Program
end ScriptHost
