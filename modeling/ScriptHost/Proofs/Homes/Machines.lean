import Mathlib.Data.List.Induction
import ScriptHost.Proofs.Homes.Sessions

/-! The machines of a session. Each has core classes of its own, for as long as it is there, and so
machines are told apart; every note that was ever made is of the machine that the step was about,
and names the module that its class has. -/

namespace ScriptHost

theorem Client.lookup_gentle (name : String) : Live.Gentle (Client.lookup name) := by
  unfold Client.lookup
  refine .bind (.modify fun _ => ⟨rfl, rfl, rfl⟩) fun _ m => .get_bind ?_
  unfold Vm.readVariable?
  cases m.vm.binding? entryModule name with
  | none => exact .refl m
  | some v => exact ⟨rfl, rfl, rfl⟩

/-- Without its diary, the machine that a run ended with is that of the plain run. -/
theorem Diaried.machine_forget {H α : Type}
    (r : EStateM.Result Halt (Machine (Diaried H)) α) :
    Live.machine (forget r) = plain (Live.machine r) := by
  cases r <;> rfl

theorem Job.run_core {α : Type} {talk : Talk Surroundings α} (gentle : talk.Gentle)
    (m : Machine Surroundings) :
    (Live.machine (talk.run Program.engine m)).vm.core = m.vm.core := by
  obtain ⟨same, core, -⟩ := Diaried.talk_noted
    (fun f => (Surroundings.talk_gentle f).mild) gentle.mild programDepth m
  rw [Surroundings.talk_host] at same
  change _ = talk.run Program.engine m at same
  rw [← same, Diaried.machine_forget]
  exact core

namespace Program

theorem ended_snd {α : Type} (p : Program) (name : String)
    (r : EStateM.Result Halt (Machine Surroundings) α) :
    (p.ended name r).2 = p.leave name (Live.machine r) := by
  obtain _ | ⟨_ | _, _⟩ := r <;> rfl

variable {p q r : Program} {name : String} {vm : Vm} {record : VmRecord}

/-! ### Core classes -/

/-- Every machine was there before, with the same core classes. -/
def Continues (p q : Program) : Prop :=
  ∀ name vm record, q.machines.get? name = some (vm, record) →
    ∃ vm' record', p.machines.get? name = some (vm', record') ∧ vm'.core = vm.core

namespace Continues

theorem of_eq (same : q.machines = p.machines) : p.Continues q := by
  intro name vm record found
  rw [same] at found
  exact ⟨vm, record, found, rfl⟩

theorem trans (first : p.Continues q) (second : q.Continues r) : p.Continues r := by
  intro name vm record found
  obtain ⟨vm', record', found', core'⟩ := second name vm record found
  obtain ⟨vm'', record'', found'', core''⟩ := first name vm' record' found'
  exact ⟨vm'', record'', found'', core''.trans core'⟩

theorem update {name : String} {f : VmRecord → VmRecord}
    (same : q.machines = p.machines.update name fun (vm, record) => (vm, f record)) :
    p.Continues q := by
  intro other vm record found
  rw [same, Table.get?_update] at found
  split at found
  · obtain ⟨there, before, same⟩ := Option.map_eq_some_iff.mp found
    cases same
    exact ⟨there.1, there.2, before, rfl⟩
  · exact ⟨vm, record, found, rfl⟩

theorem setRecord (p : Program) (name : String) (f : VmRecord → VmRecord) :
    p.Continues (p.setRecord name f) := update rfl

theorem leave (found : p.machines.get? name = some (vm, record)) {m : Machine Surroundings}
    (core : m.vm.core = vm.core) : p.Continues (p.leave name m) := by
  intro other vm' record' there
  unfold Program.leave at there
  rw [Table.get?_set] at there
  split at there
  case isTrue same =>
    cases there
    exact ⟨vm, record, same ▸ found, core.symm⟩
  case isFalse => exact ⟨vm', record', there, rfl⟩

theorem work {α : Type} {act : Client α} (found : p.machines.get? name = some (vm, record))
    (core : (Live.machine (act (p.started vm record))).vm.core = vm.core) :
    p.Continues (p.work name vm record act).2 := by
  rw [work_ended, ended_snd]
  exact leave found core

theorem register {e : Entry} {enter : HostFunction → VmRecord → VmRecord}
    (registered : p.register name e enter = .ok q) : p.Continues q := by
  unfold Program.register at registered
  cases entered : p.registry.register e with
  | error f =>
    rw [entered] at registered
    cases registered
  | ok result =>
    rw [entered] at registered
    cases registered
    exact update rfl

theorem registering {x : Except BoundaryFault Program} (ok : ∀ q, x = .ok q → p.Continues q) :
    p.Continues (p.registering x).2 := by
  cases x with
  | ok q => exact ok q rfl
  | error f => exact of_eq rfl

theorem registerMany (p : Program) (name stem : String) (indices : List Nat) :
    p.Continues (p.registerMany name stem indices).2 := by
  induction indices generalizing p with
  | nil => exact of_eq rfl
  | cons i rest ih =>
    unfold Program.registerMany
    cases registered : p.registerMethod name (stem ++ i.repr ++ "()") (numbered i) with
    | error f => exact of_eq rfl
    | ok q => exact (register registered).trans (ih q)

theorem talk {α : Type} {act : Client α} {talk : Talk Surroundings α} (gentle : talk.Gentle)
    (same : talk.run engine = act) (found : p.machines.get? name = some (vm, record)) :
    p.Continues (p.work name vm record act).2 :=
  work found (same ▸ Job.run_core gentle _)

theorem runSource (found : p.machines.get? name = some (vm, record)) (source : String) :
    p.Continues (p.runSource engine name vm record source).2 :=
  talk (Client.interpretTalk_gentle source) (Client.interpretTalk_run engine source) found

theorem runRead (found : p.machines.get? name = some (vm, record))
    (read : Except FileFault String) :
    p.Continues (p.runRead engine name vm record read).2 := by
  cases read with
  | ok source => exact runSource found source
  | error f => exact of_eq rfl

theorem runErrand (found : p.machines.get? name = some (vm, record)) (errand : Errand) :
    p.Continues (p.runErrand engine name vm record errand).2 := by
  cases errand with
  | setModulesDir path => exact setRecord p name fun r => { r with modulesDir := some path }
  | breakWriter channel => exact setRecord p name fun r => { r with broken := channel :: r.broken }
  | register member r => exact registering fun q registered => register registered
  | registerClass className maker => exact registering fun q registered => register registered
  | registerMany stem count =>
    have many := registerMany p name stem (List.range count)
    unfold Program.runErrand
    revert many
    dsimp only
    generalize p.registerMany name stem (List.range count) = result
    obtain ⟨_ | ⟨i, f⟩, q⟩ := result <;> exact id
  | interpret source => exact runSource found source
  | interpretBytes bytes => exact runRead found _
  | interpretFile path => exact runRead found _
  | lookup variableName keep =>
    have worked := work found (Client.lookup_gentle variableName (p.started vm record)).core
    rw [runErrand_lookup]
    revert worked
    generalize p.work name vm record (Client.lookup variableName) = result
    obtain ⟨⟨_ | _ | _, _⟩, _⟩ := result <;> exact id
  | call value signature params =>
    unfold Program.runErrand
    dsimp only
    cases p.values.get? value with
    | none => exact of_eq rfl
    | some v =>
      exact talk (Client.callTalk_gentle v signature params)
        (Client.callTalk_run engine v signature params) found

/-- A machine keeps its core classes over every step but the one that makes it anew. -/
theorem step (p : Program) {s : Step} (other : ∀ name modules, s ≠ .machine name modules) :
    p.Continues (p.step s).2 := by
  unfold Program.step Program.stepOn
  cases s with
  | machine name modules => exact absurd rfl (other name modules)
  | on name errand =>
    dsimp only
    cases found : p.machines.get? name with
    | none => exact of_eq rfl
    | some there => exact runErrand found errand
  | dropMachine name =>
    intro other vm record found
    exact ⟨vm, record, (Table.get?_erase_some found).2, rfl⟩
  | dropValue | registered | kept | dropKept | dropped | unknown => exact of_eq rfl

end Continues

/-! ### Notes -/

/-- A step leaves behind what its job leaves. -/
theorem step_left {s : Step} {j : Job} (job : p.job? s = some j) :
    (p.step s).2 =
      p.leave j.name (Diaried.plain (Live.machine (j.noted (p.started j.vm j.record)))) := by
  have same := step_job p s
  rw [job] at same
  obtain ⟨-, -, gentle, same⟩ := same
  rw [same, ← Diaried.machine_forget, (Job.noted_told gentle _).1]
  change (p.work j.name j.vm j.record _).2 = _
  rw [work_ended, ended_snd]

/-- What a step notes is about its machine, and true. -/
theorem step_notes {s : Step} {note : Note} (noted : note ∈ (p.stepNoted s).2) :
    ∃ name errand vm record, s = .on name errand ∧ p.machines.get? name = some (vm, record) ∧
      note.home.core = vm.core ∧
      (p.step s).2.heap.InModule note.classId note.home.moduleName := by
  unfold stepNoted at noted
  have same := step_job p s
  cases job : p.job? s with
  | none =>
    rw [job] at noted
    cases noted
  | some j =>
    rw [job] at noted same
    obtain ⟨⟨errand, about⟩, found, gentle, -⟩ := same
    obtain ⟨-, -, notes⟩ := Job.noted_told gentle (p.started j.vm j.record)
    obtain ⟨core, there⟩ := notes note noted
    refine ⟨j.name, errand, j.vm, j.record, about, found, core, ?_⟩
    rw [step_left job]
    exact there

/-- Machines told apart, and notes that are true. -/
structure Told (p : Program) (notes : List Note) : Prop where
  machines : ∀ name vm record, p.machines.get? name = some (vm, record) →
    (p.heap.class? vm.core).isSome
  apart : ∀ name vm record name' vm' record', p.machines.get? name = some (vm, record) →
    p.machines.get? name' = some (vm', record') → vm.core = vm'.core → name = name'
  cores : ∀ note ∈ notes, (p.heap.class? note.home.core).isSome
  named : ∀ note ∈ notes, p.heap.InModule note.classId note.home.moduleName

/-- The core classes of a new machine are new. -/
theorem class?_fresh (p : Program) :
    p.heap.class? p.heap.classes.size = none ∧
      (p.heap.addCore.2.class? p.heap.classes.size).isSome := by
  refine ⟨Array.getElem?_eq_none (Nat.le_refl _), ?_⟩
  exact Option.isSome_of_eq_some (Heap.class?_addCore_coreClass p.heap .bool)

/-- The machines after one was made: the new one, and those that were there. -/
theorem machine_cases {other : String} {modules : Bool}
    (found : (p.step (.machine name modules)).2.machines.get? other = some (vm, record)) :
    (other = name ∧ vm.core = p.heap.classes.size) ∨
      p.machines.get? other = some (vm, record) := by
  change (p.machines.set name _).get? other = _ at found
  rw [Table.get?_set] at found
  split at found
  case isTrue same =>
    cases found
    exact .inl ⟨same, rfl⟩
  case isFalse => exact .inr found

namespace Told

variable {notes : List Note} {s : Step}

theorem core_ne_fresh (told : p.Told notes) (found : p.machines.get? name = some (vm, record)) :
    vm.core ≠ p.heap.classes.size := by
  intro same
  have before := told.machines name vm record found
  rw [same, (class?_fresh p).1] at before
  cases before

/-- Cores that were there are there. -/
theorem isSome_kept (kept : p.heap.KeptIn q.heap) {core : ClassId}
    (there : (p.heap.class? core).isSome) : (q.heap.class? core).isSome := by
  obtain ⟨c, found⟩ := Option.isSome_iff_exists.mp there
  exact Option.isSome_of_eq_some (kept.classes found)

/-- New notes are true, and old ones stay true. -/
theorem notes_step (told : p.Told notes) (kept : p.heap.KeptIn (p.step s).2.heap) {note : Note}
    (listed : note ∈ (p.stepNoted s).2 ++ notes) :
    ((p.step s).2.heap.class? note.home.core).isSome ∧
      (p.step s).2.heap.InModule note.classId note.home.moduleName := by
  obtain new | old := List.mem_append.mp listed
  · obtain ⟨name, -, vm, record, -, found, core, there⟩ := step_notes new
    rw [core]
    exact ⟨isSome_kept kept (told.machines name vm record found), there⟩
  · exact ⟨isSome_kept kept (told.cores note old),
      (told.named note old).keep fun _ _ => kept.classes⟩

theorem step (told : p.Told notes) (kept : p.heap.KeptIn (p.step s).2.heap) :
    (p.step s).2.Told ((p.stepNoted s).2 ++ notes) := by
  refine ⟨fun name vm record found => ?_, fun a vm record b vm' record' ha hb same => ?_,
    fun _ listed => (told.notes_step kept listed).1,
    fun _ listed => (told.notes_step kept listed).2⟩
  · by_cases made : ∃ name modules, s = .machine name modules
    · obtain ⟨name, modules, rfl⟩ := made
      obtain ⟨-, core⟩ | before := machine_cases found
      · rw [core]
        exact (class?_fresh p).2
      · exact isSome_kept kept (told.machines _ vm record before)
    · obtain ⟨vm', record', before, core⟩ :=
        Continues.step p (fun name modules same => made ⟨name, modules, same⟩) name vm record found
      rw [← core]
      exact isSome_kept kept (told.machines name vm' record' before)
  · by_cases made : ∃ name modules, s = .machine name modules
    · obtain ⟨name, modules, rfl⟩ := made
      obtain ⟨rfl, core⟩ | before := machine_cases ha <;>
        obtain ⟨rfl, core'⟩ | before' := machine_cases hb
      · rfl
      · exact absurd (same.symm.trans core) (told.core_ne_fresh before')
      · exact absurd (same.trans core') (told.core_ne_fresh before)
      · exact told.apart a vm record b vm' record' before before' same
    · have continues := Continues.step p fun name modules same => made ⟨name, modules, same⟩
      obtain ⟨vmA, recordA, beforeA, coreA⟩ := continues a vm record ha
      obtain ⟨vmB, recordB, beforeB, coreB⟩ := continues b vm' record' hb
      exact told.apart a vmA recordA b vmB recordB beforeA beforeB
        (coreA.trans (same.trans coreB.symm))

end Told

theorem told_start (files : Files) : (start files).Told [] where
  machines _ _ _ found := by cases found
  apart _ _ _ _ _ _ found := by cases found
  cores _ listed := by cases listed
  named _ listed := by cases listed

theorem after_snoc (files : Files) (ss : List Step) (s : Step) :
    after files (ss ++ [s]) = ((after files ss).step s).2 := after_append files ss [s]

theorem told_after (files : Files) (ss : List Step) :
    (after files ss).Told (diary files ss) := by
  induction ss using List.reverseRecOn with
  | nil => exact told_start files
  | append_singleton ss s ih =>
    have kept := (leadsTo_after files ss [s]).heap
    rw [after_snoc] at kept ⊢
    rw [diary_append]
    exact ih.step kept

end Program
end ScriptHost
