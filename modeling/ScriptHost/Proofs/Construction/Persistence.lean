import ScriptHost.Proofs.Binding.Sound
import ScriptHost.Proofs.Construction.Lasting
import ScriptHost.Proofs.Release.Reach

/-! Objects persist. Nothing that scripts and host functions do takes an object out of the heap, or
gives it another class; so the class of an object is the one that it was made of, and an object made
anew is none of those that were there before. -/

namespace ScriptHost

namespace Heap

/-- A heap and what became of it: classes are as they were, lists are there, and each instance and
each foreign object has the class that it had. -/
structure Persists (h h' : Heap) : Prop extends h.KeptIn h' where
  lists : h.lists.size ≤ h'.lists.size
  instances : ∀ {id i}, h.instance? id = some i →
    ∃ i', h'.instance? id = some i' ∧ i'.classId = i.classId

variable {h h' h'' : Heap}

namespace Persists

@[refl]
theorem refl (h : Heap) : h.Persists h := ⟨.refl h, Nat.le_refl _, fun found => ⟨_, found, rfl⟩⟩

theorem trans (first : h.Persists h') (second : h'.Persists h'') : h.Persists h'' where
  toKeptIn := first.toKeptIn.trans second.toKeptIn
  lists := Nat.le_trans first.lists second.lists
  instances found := by
    obtain ⟨i', found', same⟩ := first.instances found
    obtain ⟨i'', found'', same'⟩ := second.instances found'
    exact ⟨i'', found'', same'.trans same⟩

/-- A change that no instance has a part in. -/
theorem of_kept (kept : h.KeptIn h') (lists : h.lists.size ≤ h'.lists.size)
    (same : h'.instances = h.instances) : h.Persists h' where
  toKeptIn := kept
  lists := lists
  instances {id i} found := by
    unfold instance?
    rw [same]
    exact ⟨i, found, rfl⟩

/-- An object that was there is there. -/
theorem made (persists : h.Persists h') {x : Object} (there : h.Made x) : h'.Made x := by
  cases x with
  | list id => exact Nat.lt_of_lt_of_le there persists.lists
  | «instance» id =>
    obtain ⟨_, found, -⟩ := persists.instances (Array.getElem?_eq_getElem there)
    exact (Array.getElem?_eq_some_iff.mp found).1
  | foreign id =>
    obtain ⟨_, found, -⟩ := persists.objects (Array.getElem?_eq_getElem there)
    exact foreign?_lt found

end Persists

theorem instance?_lt {id : InstanceId} {i : Instance} (found : h.instance? id = some i) :
    id < h.instances.size := (Array.getElem?_eq_some_iff.mp found).1

theorem instance?_addInstance (h : Heap) (classId : ClassId) (id : InstanceId) :
    (h.addInstance classId).2.instance? id =
      if id = h.instances.size then some ⟨classId, []⟩ else h.instance? id := by
  unfold instance? addInstance
  rw [Array.getElem?_push]

theorem instance?_setField (h : Heap) (target : InstanceId) (name : String) (v : Value)
    (id : InstanceId) : (h.setField target name v).instance? id = (h.instance? id).map fun i =>
      if id = target then { i with fields := i.fields.set name v } else i := by
  unfold instance? setField
  rw [Array.getElem?_modify]
  by_cases same : target = id
  · rw [if_pos same, same]
    simp
  · rw [if_neg same]
    cases h.instances[id]? with
    | none => rfl
    | some i => simp [Ne.symm same]

theorem persists_addInstance (h : Heap) (classId : ClassId) :
    h.Persists (h.addInstance classId).2 where
  toKeptIn := .of_eq rfl rfl
  lists := Nat.le_refl _
  instances {id i} found := by
    refine ⟨i, ?_, rfl⟩
    rw [instance?_addInstance, if_neg (Nat.ne_of_lt (instance?_lt found))]
    exact found

theorem persists_setField (h : Heap) (target : InstanceId) (name : String) (v : Value) :
    h.Persists (h.setField target name v) where
  toKeptIn := .of_eq rfl rfl
  lists := Nat.le_refl _
  instances {id i} found := by
    rw [instance?_setField, found]
    refine ⟨_, rfl, ?_⟩
    dsimp only
    split <;> rfl

/-- To persist outlasts every change. -/
theorem lasting_persists (start : Heap) : Lasting start.Persists where
  append there := fun _ _ => there.trans (.of_kept (.of_eq rfl rfl) Array.size_modify.ge rfl)
  setField there := fun id name v => there.trans (persists_setField _ id name v)
  addList there := fun items =>
    there.trans (.of_kept (.of_eq rfl rfl) ((Array.size_push items).symm ▸ Nat.le_succ _) rfl)
  addClass there := fun c => there.trans (.of_kept (keptIn_addClass _ c) (Nat.le_refl _) rfl)
  addInstance there := fun classId => there.trans (persists_addInstance _ classId)
  addForeign there := fun classId payload =>
    there.trans (.of_kept (keptIn_addForeign _ classId payload) (Nat.le_refl _) rfl)

end Heap

/-! ### The class of an object -/

namespace Machine

variable {H : Type} {m n : Machine H}

theorem classOf_object {id : InstanceId} {i : Instance} (found : m.heap.instance? id = some i) :
    m.classOf (.object id) = i.classId := by
  unfold classOf Vm.classOf
  dsimp only
  rw [found]
  rfl

theorem classOf_foreign {id : ForeignId} {o : ForeignObject}
    (found : m.heap.foreign? id = some o) : m.classOf (.foreign id) = o.classId := by
  unfold classOf Vm.classOf
  dsimp only
  rw [found]
  rfl

/-- An object keeps its class. -/
theorem classOf_persists (persists : m.heap.Persists n.heap) {id : ForeignId}
    (there : m.heap.Made (.foreign id)) : n.classOf (.foreign id) = m.classOf (.foreign id) := by
  have found : m.heap.foreign? id = some m.heap.foreigns[id] := Array.getElem?_eq_getElem there
  obtain ⟨o', found', same, -⟩ := persists.objects found
  rw [classOf_foreign found, classOf_foreign found', same]

end Machine

/-! ### Objects in the course of a host function -/

/-- Each request of a host function that came to an end was answered, and what was there before it
was there after it, and at the end. -/
theorem Dialogue.course_persists (c : Conduct) (depth : Nat) (d : Dialogue) {m m' : Machine Desk}
    (held : d.hold (Desk.serve (c.host.engine depth)) m = .ok () m') :
    ∀ step ∈ d.course (Desk.serve (c.host.engine depth)) m, m.heap.Persists step.2.heap ∧
      ∃ reply n, Desk.serve (c.host.engine depth) step.1 step.2 = .ok reply n ∧
        n.heap.Persists m'.heap := by
  induction d generalizing m with
  | done => exact fun _ member => absurd member List.not_mem_nil
  | ask r next ih =>
    obtain ⟨reply, n, served, later⟩ := Live.bind_inv held
    have here : m.heap.Persists n.heap :=
      (Heap.lasting_persists m.heap).serve c depth (.refl m.heap) served
    rw [course_ask next served]
    intro step member
    obtain rfl | member := List.mem_cons.mp member
    · exact ⟨.refl m.heap, reply, n, served,
        (Heap.lasting_persists n.heap).hold c depth _ (.refl n.heap) later⟩
    · obtain ⟨before, rest⟩ := ih reply later step member
      exact ⟨here.trans before, rest⟩
  | note change next ih => exact ih (change m.host) held

/-- An object that a host function makes. -/
theorem Desk.serve_newForeign {engine : Engine Desk} {m m' : Machine Desk} {slot classSlot : Nat}
    {payload : Option Nat} {reply : Reply} {classId : ClassId}
    (found : m.slotForeignClass? classSlot = some classId)
    (served : serve engine (.newForeign slot classSlot payload) m = .ok reply m') :
    m'.heap = (m.heap.addForeign classId (.u64 (payload.getD 0))).2 := by
  unfold serve at served
  obtain ⟨n, _, looked, served⟩ := Live.bind_inv served
  cases looked
  unfold Machine.newForeign? at served
  rw [found] at served
  cases served
  rfl

end ScriptHost
