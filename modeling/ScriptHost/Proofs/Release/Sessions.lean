import ScriptHost.Proofs.Binding.Moment
import ScriptHost.Proofs.Release.Lost

/-! Objects that a program has lost. What is there no more is lost at the end of a step: no machine,
no held value and no object that is there leads to it. No later step finds a way back, so that what
has gone stays gone, with the payload that it had. -/

namespace ScriptHost

open Heap (Object)

variable {L : Lost}

/-- Only routines are registered that lay hands on nothing but their arguments. -/
def Step.Confined : Step → Prop
  | .on _ (.register _ r) => r.Confined
  | _ => True

theorem Registry.Confined.register {r s : Registry} {e : Entry} {point : Nat}
    (confined : r.Confined) (own : ∀ routine, e = .routine routine → routine.Confined)
    (h : r.register e = .ok (point, s)) : s.Confined := by
  intro place routine found
  obtain ⟨place, before⟩ | new := find_of_register h found
  · exact confined place routine before
  · exact own routine new.symm

theorem Table.Alike.erase {α β : Type} {R : α → β → Prop} {t : Table α} {u : Table β}
    (h : Table.Alike R t u) (name : String) : Table.Alike R (t.erase name) (u.erase name) := by
  refine List.rel_filter (fun x y hxy => ?_) h
  dsimp only
  rw [hxy.1]

/-- New core classes change nothing about the objects that come and go. -/
theorem Heap.Spares.addCore {h : Heap} (spares : h.Spares L) : h.addCore.2.Spares L := by
  refine ⟨⟨spares.grown.lists, ⟨?_, .inl, fun _ free => absurd rfl (free _)⟩,
    spares.grown.instances, spares.grown.foreigns⟩, spares.kept.trans (keptIn_addCore h),
    spares.lists, spares.instances⟩
  change _ ≤ (h.classes ++ CoreClass.all.map CoreClass.object).toList.length
  rw [Array.toList_appendList, List.length_append]
  exact Nat.le_add_right_of_le spares.grown.classes.size

theorem Program.mem_machineRoots {vm : Vm} {v : Value} : v ∈ machineRoots vm ↔
    (∃ bound ∈ vm.modules, ∃ entry ∈ bound.2, entry.2 = v) ∨ v ∈ vm.slots := by
  simp only [machineRoots, Table.values, List.mem_append, List.mem_flatMap, List.mem_map,
    exists_exists_and_eq_and]

namespace Program

variable {p q : Program} {name : String} {vm : Vm} {record : VmRecord}

/-- A program without a way to objects that were lost at some time. -/
structure Spares (p : Program) (L : Lost) : Prop where
  heap : p.heap.Spares L
  machines : Table.Alike (fun x y => x.1.Alike L.others y.1) p.machines p.machines
  values : Bindings.Alike L.others p.values p.values
  kept : ∀ {id}, p.kept = some id → ¬L.object (.foreign id)
  confined : p.registry.Confined

/-! ### Work on one machine -/

theorem Spares.machine (spares : p.Spares L) (found : p.machines.get? name = some (vm, record)) :
    vm.Alike L.others vm := by
  have alike := spares.machines.get? name
  rw [found] at alike
  cases alike with
  | some own => exact own

theorem Spares.work {α : Type} (spares : p.Spares L)
    (found : p.machines.get? name = some (vm, record)) {R : Results α α} {x : Client α}
    (run : LiveSim L.simulation L.others R x x) :
    (p.work name vm record x).2.Spares L ∧
      ∀ a, (p.work name vm record x).1.result = .ok a → R L.others a a := by
  have left {m : Machine Surroundings} (holds : L.Holds m) : (p.leave name m).Spares L :=
    ⟨holds.heap, spares.machines.set name holds.vm, spares.values, holds.kept, spares.confined⟩
  have ended := run (p.started vm record) (p.started vm record)
    ⟨rfl, rfl, spares.heap, spares.machine found, spares.kept, spares.confined⟩
  rw [work_ended]
  revert ended
  generalize x (p.started vm record) = r
  rintro (⟨_, ⟨⟨rfl, -, holds⟩, hab⟩⟩ | @⟨_, halt, _, _, _, ⟨rfl, -, holds⟩⟩ | never)
  · refine ⟨left holds, fun a same => ?_⟩
    cases same
    exact hab
  · cases halt <;> exact ⟨left holds, nofun⟩
  · cases never

theorem Spares.runSource (spares : p.Spares L)
    (found : p.machines.get? name = some (vm, record)) (source : String) :
    (p.runSource engine name vm record source).2.Spares L := by
  have laws := L.attended
  have covers : L.simulation.Covers entryModule source := fun _ _ _ _ => trivial
  exact (spares.work found
    (Client.interpret_sim laws (engine_alike laws.toNesting programDepth) covers)).1

theorem Spares.runRead (spares : p.Spares L)
    (found : p.machines.get? name = some (vm, record)) (read : Except FileFault String) :
    (p.runRead engine name vm record read).2.Spares L := by
  cases read with
  | ok source => exact spares.runSource found source
  | error f => exact spares

theorem Spares.lookup (spares : p.Spares L)
    (found : p.machines.get? name = some (vm, record)) (variableName keep : String) :
    (p.runErrand engine name vm record (.lookup variableName keep)).2.Spares L := by
  obtain ⟨worked, given⟩ := spares.work found (Client.lookup_sim L.attended variableName)
  rw [runErrand_lookup]
  revert worked given
  generalize p.work name vm record (Client.lookup variableName) = w
  obtain ⟨⟨_ | _ | v, log⟩, p'⟩ := w
  · exact fun worked _ => worked
  · exact fun worked _ => worked
  · intro worked given
    have own : v.Alike L.others v := Option.rel_some_some.mp (given _ rfl)
    exact ⟨worked.heap, worked.machines, worked.values.set keep own, worked.kept, worked.confined⟩

theorem Spares.call (spares : p.Spares L)
    (found : p.machines.get? name = some (vm, record)) (value signature : String)
    (params : List HostValue) :
    (p.runErrand engine name vm record (.call value signature params)).2.Spares L := by
  have held := Table.Alike.get? spares.values value
  unfold Program.runErrand
  dsimp only
  cases there : p.values.get? value with
  | none => exact spares
  | some v =>
    rw [there] at held
    have own : v.Alike L.others v := Option.rel_some_some.mp held
    have laws := L.attended
    exact (spares.work found (Client.call_sim laws (engine_alike laws.toNesting programDepth) own
      signature params)).1

/-! ### Steps -/

theorem Spares.setRecord (spares : p.Spares L) (name : String) (f : VmRecord → VmRecord) :
    (p.setRecord name f).Spares L :=
  ⟨spares.heap, spares.machines.update name fun _ _ alike => alike, spares.values, spares.kept,
    spares.confined⟩

theorem Spares.register (spares : p.Spares L) {e : Entry}
    (own : ∀ routine, e = .routine routine → routine.Confined)
    {enter : HostFunction → VmRecord → VmRecord} (registered : p.register name e enter = .ok q) :
    q.Spares L := by
  unfold Program.register at registered
  cases entered : p.registry.register e with
  | error f =>
    rw [entered] at registered
    cases registered
  | ok result =>
    obtain ⟨point, registry⟩ := result
    rw [entered] at registered
    cases registered
    exact ⟨spares.heap, spares.machines.update name fun _ _ alike => alike, spares.values,
      spares.kept, spares.confined.register own entered⟩

theorem Spares.registering (spares : p.Spares L) {x : Except BoundaryFault Program}
    (registered : ∀ q, x = .ok q → q.Spares L) : (p.registering x).2.Spares L := by
  cases x with
  | ok q => exact registered q rfl
  | error f => exact spares

theorem Spares.registerMethod (spares : p.Spares L) {member : String} {r : Routine}
    (confined : r.Confined) (registered : p.registerMethod name member r = .ok q) : q.Spares L := by
  refine spares.register (fun routine same => ?_) registered
  cases same
  exact confined

theorem numbered_confined (i : Nat) : (numbered i).Confined := described_confined _ _ _

theorem Spares.registerMany (spares : p.Spares L) (name stem : String) (indices : List Nat) :
    (p.registerMany name stem indices).2.Spares L := by
  induction indices generalizing p with
  | nil => exact spares
  | cons i rest ih =>
    unfold Program.registerMany
    cases registered : p.registerMethod name (stem ++ i.repr ++ "()") (Program.numbered i) with
    | error f => exact spares
    | ok q => exact ih (spares.registerMethod (numbered_confined i) registered)

theorem Spares.runErrand (spares : p.Spares L)
    (found : p.machines.get? name = some (vm, record)) {errand : Errand}
    (confined : (Step.on name errand).Confined) :
    (p.runErrand engine name vm record errand).2.Spares L := by
  cases errand with
  | setModulesDir path => exact spares.setRecord name fun r => { r with modulesDir := some path }
  | breakWriter channel =>
    exact spares.setRecord name fun r => { r with broken := channel :: r.broken }
  | register member r =>
    exact spares.registering fun q registered => spares.registerMethod confined registered
  | registerClass className maker =>
    exact spares.registering fun q registered =>
      spares.register (fun _ same => by cases same) registered
  | registerMany stem count =>
    have many := spares.registerMany name stem (List.range count)
    unfold Program.runErrand
    revert many
    dsimp only
    generalize p.registerMany name stem (List.range count) = result
    obtain ⟨_ | ⟨i, f⟩, q⟩ := result <;> exact id
  | interpret source => exact spares.runSource found source
  | interpretBytes bytes => exact spares.runRead found _
  | interpretFile path => exact spares.runRead found _
  | lookup variableName keep => exact spares.lookup found variableName keep
  | call value signature params => exact spares.call found value signature params

/-- No step finds a way to what is lost. -/
theorem Spares.stepOn (spares : p.Spares L) {s : Step} (confined : s.Confined) :
    (p.stepOn engine s).2.Spares L := by
  cases s with
  | machine name modules =>
    have fresh : (Vm.fresh p.heap.addCore.1).Alike L.others (.fresh p.heap.addCore.1) :=
      ⟨fun _ => rfl, .nil, .nil, rfl, rfl, rfl⟩
    exact ⟨spares.heap.addCore, spares.machines.set name fresh, spares.values, spares.kept,
      spares.confined⟩
  | on name errand =>
    unfold Program.stepOn
    dsimp only
    cases found : p.machines.get? name with
    | none => exact spares
    | some there => exact spares.runErrand found confined
  | dropMachine name =>
    exact ⟨spares.heap, spares.machines.erase name, spares.values, spares.kept, spares.confined⟩
  | dropValue value =>
    exact ⟨spares.heap, spares.machines, Table.Alike.erase spares.values value, spares.kept,
      spares.confined⟩
  | dropKept => exact ⟨spares.heap, spares.machines, spares.values, nofun, spares.confined⟩
  | registered | kept | dropped | unknown => exact spares

theorem Spares.stepsOn (spares : p.Spares L) {ss : List Step} (confined : ∀ s ∈ ss, s.Confined) :
    (p.stepsOn engine ss).2.Spares L := by
  induction ss generalizing p with
  | nil => exact spares
  | cons s rest ih =>
    rw [stepsOn_cons]
    exact ih (spares.stepOn (confined s List.mem_cons_self))
      fun t ht => confined t (List.mem_cons_of_mem s ht)

/-! ### Roots -/

theorem mem_roots {v : Value} : v ∈ p.roots ↔
    (∃ entry ∈ p.machines, v ∈ machineRoots entry.2.1) ∨ (∃ entry ∈ p.values, entry.2 = v) ∨
      ∃ id, p.kept = some id ∧ .foreign id = v := by
  simp only [roots, Table.values, List.mem_append, List.mem_flatMap, List.mem_map,
    exists_exists_and_eq_and, Option.mem_toList, Option.map_eq_some_iff, or_assoc]

/-- Nothing that a program holds on to leads to what is lost. -/
theorem Spares.root (spares : p.Spares L) {v : Value} (root : v ∈ p.roots) :
    v.Alike L.others v := by
  obtain ⟨entry, member, root⟩ | ⟨entry, member, rfl⟩ | ⟨id, kept, rfl⟩ := mem_roots.mp root
  · have vm := (List.forall₂_same.mp spares.machines entry member).2
    obtain ⟨bound, member, entry, inside, rfl⟩ | slot := mem_machineRoots.mp root
    · have bindings := (List.forall₂_same.mp vm.modules bound member).2
      exact (List.forall₂_same.mp bindings entry inside).2
    · exact List.forall₂_same.mp vm.slots v slot
  · exact (List.forall₂_same.mp spares.values entry member).2
  · exact .foreign ⟨rfl, spares.kept kept⟩

/-! ### Between steps -/

/-- An object that was made and is not there any more. -/
def Departed (p : Program) (x : Object) : Prop := p.heap.Made x ∧ x ∉ p.heap.present p.roots

def departed (p : Program) : Lost := ⟨p.Departed, p.heap, And.left⟩

/-- Lost objects refer to what they referred to when they were lost. -/
theorem Spares.contents_lost (spares : p.Spares L) {x : Object} (lost : L.object x) :
    p.heap.contents x = L.start.contents x := by
  have made := L.made lost
  cases x with
  | list id =>
    have same := spares.heap.grown.lists.spared made fun _ pair => pair.2 lost
    unfold Heap.contents Heap.list
    dsimp only
    rw [same]
  | «instance» id =>
    have same := spares.heap.grown.instances.spared made fun _ pair => pair.2 lost
    unfold Heap.contents Heap.instance?
    dsimp only
    rw [same]
  | foreign id => rfl

/-- What is not lost refers to nothing that is. -/
theorem Spares.contents_free (spares : p.Spares L) {x : Object} (free : ¬L.object x) {v : Value}
    (member : v ∈ p.heap.contents x) : v.Alike L.others v := by
  cases x with
  | list id => exact List.forall₂_same.mp (spares.heap.list free) v member
  | «instance» id =>
    change v ∈ (p.heap.instances[id]?.map (·.fields.values)).getD [] at member
    cases found : p.heap.instances[id]? with
    | none =>
      rw [found] at member
      cases member
    | some i =>
      rw [found] at member
      obtain ⟨entry, inside, rfl⟩ := List.mem_map.mp member
      exact (List.forall₂_same.mp (spares.heap.instances id i free found) entry inside).2
  | foreign id => cases member

/-- What was gone is gone later: only what was gone with it could hold on to it, and the roots would
have had to lead there all along. -/
theorem Spares.departed (spares : q.Spares p.departed) {x : Object} (gone : p.Departed x) :
    q.Departed x := by
  refine ⟨spares.heap.grown.made gone.1, fun stays => gone.2 ?_⟩
  refine Heap.present_greatest
    (P := fun y => y ∈ p.heap.present p.roots ∨ (p.Departed y ∧ y ∈ q.heap.present q.roots))
    ?_ ?_ (.inr ⟨gone, stays⟩)
  · rintro y (there | ⟨gone, -⟩)
    · exact Heap.present_made there
    · exact gone.1
  rintro y (there | ⟨gone, stays⟩)
  · exact (Heap.present_supported there).imp_right fun ⟨z, hz, holds⟩ => ⟨z, .inl hz, holds⟩
  obtain ⟨v, root, object⟩ | ⟨z, hz, v, member, object⟩ := Heap.present_supported stays
  · exact absurd gone (Value.alike_others.mp (spares.root root) y object)
  · by_cases lost : p.Departed z
    · rw [spares.contents_lost lost] at member
      exact .inr ⟨z, .inr ⟨lost, hz⟩, v, member, object⟩
    · exact absurd gone (Value.alike_others.mp (spares.contents_free lost member) y object)

theorem mem_gone {id : ForeignId} : id ∈ p.gone ↔ p.Departed (.foreign id) := Heap.mem_gone

/-- A payload is not touched once its object has gone. -/
theorem Spares.payload (spares : q.Spares p.departed) {id : ForeignId} (gone : id ∈ p.gone) :
    id ∈ q.gone ∧ q.heap.foreign? id = p.heap.foreign? id := by
  have lost := mem_gone.mp gone
  exact ⟨mem_gone.mpr (spares.departed lost),
    spares.heap.grown.foreigns.spared lost.1 fun _ pair => pair.2 lost⟩

end Program
end ScriptHost
