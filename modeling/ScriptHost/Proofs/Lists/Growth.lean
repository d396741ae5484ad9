import ScriptHost.Proofs.Chronicle
import ScriptHost.Proofs.Isolation.Machines
import ScriptHost.Proofs.Primitives.Grounded

/-! How heaps grow. Lists and classes stay where they are, the core classes of every machine among
them, and new ones come after them; what is added to lists is what the messages for it add. So the
past of a run, moment by moment, leads from the heap at its start to the heap at its end. -/

namespace ScriptHost

variable {H : Type}

/-! ### Heaps that grow -/

namespace Heap

variable {h h' h'' : Heap} {id : ListId}

/-- A heap with the lists and classes of another, each where it was and as it was, and maybe with
more. -/
structure GrowsTo (h h' : Heap) : Prop where
  lists : h.lists.toList <+: h'.lists.toList
  classes : h.classes.toList <+: h'.classes.toList

namespace GrowsTo

theorem of_eq (lists : h'.lists = h.lists) (classes : h'.classes = h.classes) : h.GrowsTo h' :=
  ⟨lists ▸ List.prefix_rfl, classes ▸ List.prefix_rfl⟩

theorem refl (h : Heap) : h.GrowsTo h := of_eq rfl rfl

theorem trans (first : h.GrowsTo h') (second : h'.GrowsTo h'') : h.GrowsTo h'' :=
  ⟨first.lists.trans second.lists, first.classes.trans second.classes⟩

theorem addList (h : Heap) (items : Array Value) : h.GrowsTo (h.addList items).2 where
  lists := Array.toList_push (x := items) ▸ List.prefix_append h.lists.toList _
  classes := List.prefix_rfl

theorem addClass (h : Heap) (c : ClassObject) : h.GrowsTo (h.addClass c).2 where
  lists := List.prefix_rfl
  classes := Array.toList_push (x := c) ▸ List.prefix_append h.classes.toList _

theorem addCore (h : Heap) : h.GrowsTo h.addCore.2 where
  lists := List.prefix_rfl
  classes := Array.toList_appendList ▸ List.prefix_append _ _

theorem list (grows : h.GrowsTo h') (there : id < h.lists.size) :
    id < h'.lists.size ∧ h'.list id = h.list id := by
  have longer : h.lists.size ≤ h'.lists.size := grows.lists.length_le
  refine ⟨there.trans_le longer, ?_⟩
  unfold Heap.list
  rw [← Array.getElem?_toList, ← Array.getElem?_toList]
  obtain ⟨more, same⟩ := grows.lists
  rw [← same, List.getElem?_append_left there]

theorem class? (grows : h.GrowsTo h') {id : ClassId} {c : ClassObject}
    (found : h.class? id = some c) : h'.class? id = some c := by
  unfold Heap.class? at found ⊢
  rw [← Array.getElem?_toList] at found ⊢
  obtain ⟨more, same⟩ := grows.classes
  rw [← same, List.getElem?_append_left (List.getElem?_eq_some_iff.mp found).1, found]

end GrowsTo

/-- A value added to a list. -/
theorem list_append (h : Heap) (there : id < h.lists.size) (other : ListId) (v : Value) :
    id < (h.append other v).lists.size ∧
      ((h.append other v).list id).toList =
        (h.list id).toList ++ if other = id then [v] else [] := by
  refine ⟨there.trans_eq Array.size_modify.symm, ?_⟩
  unfold append list
  rw [Array.getElem?_modify]
  split
  · exact Array.getElem?_eq_getElem there ▸ Array.toList_push
  · exact (List.append_nil _).symm

/-- The core classes of a machine are in a heap where that machine looks for them. -/
def HasCore (h : Heap) (core : ClassId) : Prop :=
  ∀ c, h.class? ((Vm.fresh core).coreClass c) = some c.object

theorem GrowsTo.hasCore {core : ClassId} (grows : h.GrowsTo h') (there : h.HasCore core) :
    h'.HasCore core :=
  fun c => grows.class? (there c)

end Heap

theorem Machine.hasCore_iff {m : Machine H} : m.HasCore ↔ m.heap.HasCore m.vm.core := by
  refine forall_congr' fun c => ?_
  rw [show (Vm.fresh m.vm.core).coreClass c = m.vm.coreClass c by cases c <;> rfl]

theorem Machine.fresh_hasCore (host : H) : (Machine.fresh host).HasCore := fun c =>
  Heap.empty.class?_addCore_coreClass c

/-! ### Adding -/

/-- What a message adds to a list. -/
def Action.addedTo? (id : ListId) : Action → Option Value
  | .send (.list other) signature (v :: _) =>
    if other = id ∧ signature = "add(_)" then some v else none
  | _ => none

/-- What is added to a list at some moments, the latest moment first. -/
def added (id : ListId) (past : List (Moment H)) : List Value :=
  past.reverse.filterMap (·.action.addedTo? id)

theorem added_append (id : ListId) (recent older : List (Moment H)) :
    added id (recent ++ older) = added id older ++ added id recent := by
  unfold added
  rw [List.reverse_append, List.filterMap_append]

/-- Every list of a heap is in another, with what it had and what was added to it. -/
def Heap.Appended (h : Heap) (past : List (Moment H)) (h' : Heap) : Prop :=
  ∀ id < h.lists.size,
    id < h'.lists.size ∧ (h'.list id).toList = (h.list id).toList ++ added id past

namespace Heap.Appended

variable {h h' h'' : Heap} {recent older past : List (Moment H)}

theorem trans (first : h.Appended older h') (second : h'.Appended recent h'') :
    h.Appended (recent ++ older) h'' := by
  intro id there
  obtain ⟨between, one⟩ := first id there
  obtain ⟨after, two⟩ := second id between
  rw [two, one, added_append, List.append_assoc]
  exact ⟨after, rfl⟩

theorem of_growsTo (grows : h.GrowsTo h') : h.Appended ([] : List (Moment H)) h' := by
  intro id there
  obtain ⟨after, same⟩ := grows.list there
  exact ⟨after, by rw [same]; exact (List.append_nil _).symm⟩

end Heap.Appended

/-- A plain value has the methods of its core class. -/
theorem Machine.HasCore.method?_core {m : Machine H} (core : m.HasCore) {v : Value}
    {c : CoreClass} (plain : v.core? = some c) (signature : String) :
    m.method? v signature = c.object.methods.get? signature := by
  have object : v.isClass = false := by cases v <;> first | rfl | cases plain
  rw [Machine.method?_object object, Machine.classOf_core plain, core c]
  rfl

/-- Of the methods of lists one adds. -/
theorem list_adds_iff (signature : String) :
    CoreClass.list.object.methods.get? signature = some (.primitive .append) ↔
      signature = "add(_)" := by
  refine ⟨fun found => ?_, fun same => same ▸ rfl⟩
  obtain ⟨p, same, entered⟩ := CoreClass.object_methods found
  cases same
  have alone : ∀ entry ∈ CoreClass.list.methods, entry.2 = .append → entry.1 = "add(_)" := by
    decide
  exact alone _ entered rfl

/-- What an action adds by itself is what its message adds. -/
theorem Machine.HasCore.adding?_eq_some {m : Machine H} (core : m.HasCore) {action : Action}
    {id : ListId} {v : Value} :
    m.adding? action = some (id, v) ↔ action.addedTo? id = some v := by
  have neither : (none : Option (ListId × Value)) = some (id, v) ↔ none = some v :=
    iff_of_false (Option.some_ne_none _).symm (Option.some_ne_none _).symm
  cases action with
  | send receiver signature args =>
    cases receiver with
    | list other =>
      cases args with
      | nil => exact neither
      | cons w rest =>
        unfold Machine.adding? Action.addedTo?
        dsimp only
        rw [core.method?_core rfl]
        by_cases same : signature = "add(_)"
        · rw [(list_adds_iff signature).mpr same]
          by_cases here : other = id <;> simp [here, same]
        · rw [if_neg fun both => same both.2]
          split
          · exact absurd ((list_adds_iff signature).mp ‹_›) same
          · exact neither
    | _ => exact neither
  | _ => exact neither

theorem added_singleton (id : ListId) (x : Moment H) :
    added id [x] = (x.action.addedTo? id).toList := by
  unfold added
  cases add : x.action.addedTo? id with
  | none => exact List.filterMap_cons_none add
  | some v => exact List.filterMap_cons_some add

/-- An action adds at most one value to one list. -/
theorem Moment.after_appended {x : Moment H} (core : x.machine.HasCore) :
    x.machine.heap.Appended [x] x.after := by
  intro id there
  rw [added_singleton]
  cases add : x.added? with
  | none =>
    have nothing : x.action.addedTo? id = none := by
      refine Option.eq_none_iff_forall_ne_some.mpr fun v same => ?_
      cases add.symm.trans (core.adding?_eq_some.mpr same)
    rw [after_eq add, nothing]
    exact ⟨there, (List.append_nil _).symm⟩
  | some adds =>
    obtain ⟨other, v⟩ := adds
    have once : x.action.addedTo? id = if other = id then some v else none := by
      split
      case isTrue same => exact core.adding?_eq_some.mp (same ▸ add)
      case isFalse apart =>
        refine Option.eq_none_iff_forall_ne_some.mpr fun w same => apart ?_
        cases add.symm.trans (core.adding?_eq_some.mpr same)
        rfl
    have after : x.after = x.machine.heap.append other v := by
      unfold Moment.after
      rw [add]
    obtain ⟨still, same⟩ := Heap.list_append x.machine.heap there other v
    rw [after, same, once]
    exact ⟨still, by split <;> rfl⟩

/-! ### Pasts -/

/-- A past that leads from one heap to another. Between its moments there is nothing but new lists
and classes. -/
inductive Heap.Leads (h : Heap) : List (Moment H) → Heap → Prop
  | blank {h' : Heap} : h.GrowsTo h' → h.Leads [] h'
  | later {x : Moment H} {past : List (Moment H)} {h' : Heap} : h.Leads past x.machine.heap →
    x.machine.HasCore → x.after.GrowsTo h' → h.Leads (x :: past) h'

namespace Heap.Leads

variable {h h' h'' : Heap} {recent older past : List (Moment H)} {x : Moment H}

theorem grow (leads : h.Leads past h') (grows : h'.GrowsTo h'') : h.Leads past h'' := by
  cases leads with
  | blank before => exact .blank (before.trans grows)
  | later before core after => exact .later before core (after.trans grows)

theorem trans (first : h.Leads older h') (second : h'.Leads recent h'') :
    h.Leads (recent ++ older) h'' := by
  induction second with
  | blank grows => exact first.grow grows
  | later _ core after ih => exact .later ih core after

theorem appended (leads : h.Leads past h') : h.Appended past h' := by
  induction leads with
  | blank grows => exact .of_growsTo grows
  | later _ core after ih =>
    exact ih.trans ((Moment.after_appended core).trans (.of_growsTo after))

theorem hasCore (leads : h.Leads past h') (among : x ∈ past) : x.machine.HasCore := by
  induction leads with
  | blank => cases among
  | later _ core _ ih =>
    cases among with
    | head => exact core
    | tail _ among => exact ih among

theorem hasCores (leads : h.Leads past h') {core : ClassId} (there : h.HasCore core) :
    h'.HasCore core := by
  induction leads with
  | blank grows => exact grows.hasCore there
  | @later x _ _ _ _ after ih =>
    refine after.hasCore fun c => ?_
    unfold Heap.class?
    rw [x.after_classes]
    exact ih c

/-- A moment of a past divides it. -/
theorem split (leads : h.Leads (recent ++ x :: older) h') :
    h.Leads older x.machine.heap ∧ x.machine.heap.Leads (recent ++ [x]) h' := by
  induction recent generalizing h' with
  | nil =>
    cases leads with
    | later before core after => exact ⟨before, .later (.blank (.refl _)) core after⟩
  | cons y recent ih =>
    cases leads with
    | later before core after =>
      obtain ⟨before, since⟩ := ih before
      exact ⟨before, .later since core after⟩

end Heap.Leads

/-! ### Programs -/

/-- The past leads from a heap that has the core classes of a machine to another. -/
def Annals.growth (H : Type) (core : ClassId) (start : Heap) : Annals H where
  core
  written _ := True
  fits _ := True
  holds h past := start.Leads past h ∧ h.HasCore core

theorem Annals.growth_lawful (H : Type) (core : ClassId) (start : Heap) :
    (Annals.growth H core start).Lawful where
  spared := fun ⟨leads, there⟩ lists classes =>
    have grows := Heap.GrowsTo.of_eq lists classes
    ⟨leads.grow grows, grows.hasCore there⟩
  note {x _} same := fun ⟨leads, there⟩ =>
    ⟨.later leads (Machine.hasCore_iff.mpr (same ▸ there)) (.refl _), fun c => by
      unfold Heap.class?
      rw [x.after_classes]
      exact there c⟩
  addList := fun ⟨leads, there⟩ items =>
    ⟨leads.grow (.addList _ items), (Heap.GrowsTo.addList _ items).hasCore there⟩
  addClass := fun ⟨leads, there⟩ c _ =>
    ⟨leads.grow (.addClass _ c), (Heap.GrowsTo.addClass _ c).hasCore there⟩
  blank _ _ _ _ := trivial
  enter _ _ _ _ := trivial
  covers _ _ _ := trivial
  bodies _ _ _ _ _ _ _ _ _ := trivial

open Chronicled (plain)

/-- What a dialogue leads to. -/
theorem leads_hold (c : Conduct) (depth : Nat) (d : Dialogue) {m : Machine Desk}
    (core : m.HasCore) :
    let told := Chronicled.hold c depth d m
    Chronicled.forget told = d.hold (Desk.serve (c.host.engine depth)) m ∧
      m.heap.Leads (Live.machine told).host.past (Live.machine told).heap ∧
      (Live.machine told).HasCore := by
  have there := Machine.hasCore_iff.mp core
  obtain ⟨same, kept, leads, still⟩ := (Annals.growth_lawful Desk m.vm.core m.heap).hold c depth d
    rfl ⟨.blank (.refl _), there⟩
  refine ⟨same, leads, Machine.hasCore_iff.mpr ?_⟩
  rw [kept]
  exact still

/-- What happens in a step of a session, the latest moment first. -/
def Program.moments (p : Program) (s : Step) : List (ScriptHost.Moment Surroundings) :=
  ((p.job? s).map fun j => (Live.machine (Chronicled.work p j)).host.past).getD []

/-- What happens in the steps of a session, the latest moment first. -/
def Program.past (p : Program) : List Step → List (ScriptHost.Moment Surroundings)
  | [] => []
  | s :: rest => (p.step s).2.past rest ++ p.moments s

/-- Every machine has its core classes. -/
def Program.HasCores (p : Program) : Prop :=
  ∀ name vm record, p.machines.get? name = some (vm, record) → p.heap.HasCore vm.core

namespace Program

variable {p : Program}

/-- What a step with a job comes to, from its chronicle. -/
theorem leads_work (cores : p.HasCores) {s : Step} {j : Job} (job : p.job? s = some j) :
    let told := Chronicled.work p j
    (p.step s).2 = p.leave j.name (plain (Live.machine told)) ∧
      p.heap.Leads (Live.machine told).host.past (p.step s).2.heap := by
  have step := p.step_job s
  rw [job] at step
  obtain ⟨same, -, leads, -⟩ := (Annals.growth_lawful Surroundings j.vm.core p.heap).work job rfl
    ⟨.blank (.refl _), cores _ _ _ step.2.1⟩
  exact ⟨same, by rw [same]; exact leads⟩

theorem leads_step (cores : p.HasCores) (s : Step) :
    p.heap.Leads (p.moments s) (p.step s).2.heap := by
  unfold moments
  cases job : p.job? s with
  | some j => exact (leads_work cores job).2
  | none =>
    obtain rests | made := step_quiet job
    · exact .blank (.of_eq rests.lists rests.classes)
    · rw [made]
      exact .blank (.addCore _)

theorem HasCores.step (cores : p.HasCores) (s : Step) : (p.step s).2.HasCores := by
  intro name vm record found
  have kept {core : ClassId} (there : p.heap.HasCore core) : (p.step s).2.heap.HasCore core :=
    (leads_step cores s).hasCores there
  by_cases made : ∃ name modules, s = .machine name modules
  · obtain ⟨_, _, rfl⟩ := made
    obtain ⟨-, fresh⟩ | before := machine_cases found
    · rw [fresh]
      exact fun c => p.heap.class?_addCore_coreClass c
    · exact kept (cores _ _ _ before)
  · obtain ⟨vm', record', before, core⟩ :=
      Continues.step p (fun name modules same => made ⟨name, modules, same⟩) name vm record found
    rw [← core]
    exact kept (cores _ _ _ before)

theorem leads_steps (cores : p.HasCores) (ss : List Step) :
    p.heap.Leads (p.past ss) (p.steps ss).2.heap ∧ (p.steps ss).2.HasCores := by
  induction ss generalizing p with
  | nil => exact ⟨.blank (.refl _), cores⟩
  | cons s rest ih =>
    obtain ⟨leads, still⟩ := ih (cores.step s)
    exact ⟨(leads_step cores s).trans leads, still⟩

theorem hasCores_after (files : Files) (ss : List Step) : (after files ss).HasCores :=
  (leads_steps (fun _ _ _ found => by cases found) ss).2

end Program

end ScriptHost
