import ScriptHost.Proofs.Primitives.Home
import ScriptHost.Proofs.Release.Lost

/-! Grounded machines. All that a grounded machine has in its hands was made: no variable, slot,
field, list or handle refers to an object that is not there. Its core classes are as they were, no
other class has primitives, constructors are static everywhere, and no object is of a core class. So
a primitive that is found is at home. -/

namespace ScriptHost

variable {ρ σ : Renaming} {h h' : Heap} {v w : Value} {vs : List Value}

/-! ### What was made -/

/-- Each object that was made stands for itself. -/
def Heap.own (h : Heap) : Renaming where
  lists a b := a = b ∧ a < h.lists.size
  classes a b := a = b ∧ a < h.classes.size
  instances a b := a = b ∧ a < h.instances.size
  foreigns a b := a = b ∧ a < h.foreigns.size

theorem Heap.own_le_id (h : Heap) : h.own ≤ .id := ⟨And.left, And.left, And.left, And.left⟩

theorem Heap.own_mono (lists : h.lists.size ≤ h'.lists.size)
    (classes : h.classes.size ≤ h'.classes.size)
    (instances : h.instances.size ≤ h'.instances.size)
    (foreigns : h.foreigns.size ≤ h'.foreigns.size) : h.own ≤ h'.own :=
  ⟨And.imp_right (Nat.lt_of_lt_of_le · lists), And.imp_right (Nat.lt_of_lt_of_le · classes),
    And.imp_right (Nat.lt_of_lt_of_le · instances), And.imp_right (Nat.lt_of_lt_of_le · foreigns)⟩

theorem Heap.own_append (h : Heap) (id : ListId) (v : Value) : (h.append id v).own = h.own := by
  unfold Heap.own Heap.append
  dsimp only
  rw [Array.size_modify]

theorem Heap.own_setField (h : Heap) (id : InstanceId) (name : String) (v : Value) :
    (h.setField id name v).own = h.own := by
  unfold Heap.own Heap.setField
  dsimp only
  rw [Array.size_modify]

theorem Renaming.oneToOne_of_le (le : ρ ≤ .id) : ρ.OneToOne where
  lists ab cd := Renaming.oneToOne_id.lists (le.lists ab) (le.lists cd)
  classes ab cd := Renaming.oneToOne_id.classes (le.classes ab) (le.classes cd)
  instances ab cd := Renaming.oneToOne_id.instances (le.instances ab) (le.instances cd)
  foreigns ab cd := Renaming.oneToOne_id.foreigns (le.foreigns ab) (le.foreigns cd)

theorem Value.Alike.eq_of_own (hv : v.Alike h.own w) : v = w :=
  Value.alike_id.mp (hv.mono h.own_le_id)

theorem Value.AllAlike.eq_of_own {ws : List Value} (hvs : Value.AllAlike h.own vs ws) : vs = ws :=
  Value.allAlike_id.mp (Value.AllAlike.mono hvs h.own_le_id)

/-! ### Core classes -/

theorem CoreClass.object_methods {core : CoreClass} {signature : String} {x : Method}
    (found : core.object.methods.get? signature = some x) :
    ∃ p, x = .primitive p ∧ (signature, p) ∈ core.methods := by
  obtain ⟨⟨_, p⟩, entered, same⟩ := List.mem_map.mp (Table.mem_of_get? found)
  cases same
  exact ⟨p, rfl, entered⟩

theorem CoreClass.object_statics {core : CoreClass} {signature : String} {x : Method}
    (found : core.object.statics.get? signature = some x) :
    ∃ p, x = .primitive p ∧ (signature, p) ∈ core.statics := by
  obtain ⟨⟨_, p⟩, entered, same⟩ := List.mem_map.mp (Table.mem_of_get? found)
  cases same
  exact ⟨p, rfl, entered⟩

/-! ### Heaps -/

/-- A class that is a core class of a machine. -/
def Vm.IsCore (vm : Vm) (id : ClassId) : Prop := ∃ c, id = vm.coreClass c

/-- A heap in which objects hold what `ρ` pairs alone, and are of no core class. -/
structure Heap.Within (core : ClassId → Prop) (ρ : Renaming) (h : Heap) : Prop where
  declared : ∀ {id c}, h.class? id = some c → ¬core id → c.Declared
  lists : ∀ xs ∈ h.lists, Value.AllAlike ρ xs.toList xs.toList
  instances : ∀ i ∈ h.instances, i.Alike ρ i ∧ ¬core i.classId
  foreigns : ∀ o ∈ h.foreigns, o.Alike ρ o ∧ ¬core o.classId

theorem Store.size_lt_push {α : Type} (xs : Array α) (x : α) : xs.size < (xs.push x).size :=
  (Array.size_push x).symm ▸ Nat.lt_succ_self xs.size

theorem Store.forall_mem_modify {α : Type} {Q : α → Prop} {xs : Array α} (all : ∀ x ∈ xs, Q x)
    (i : Nat) {f : α → α} (hf : ∀ {x}, Q x → Q (f x)) : ∀ x ∈ xs.modify i f, Q x := by
  intro x changed
  obtain ⟨j, found⟩ := Array.mem_iff_getElem?.mp changed
  rw [Array.getElem?_modify] at found
  split at found
  · obtain ⟨y, there, rfl⟩ := Option.map_eq_some_iff.mp found
    exact hf (all y (Array.mem_of_getElem? there))
  · exact all x (Array.mem_of_getElem? found)

namespace Heap.Within

variable {core : ClassId → Prop}

theorem mono (within : h.Within core ρ) (le : ρ ≤ σ) : h.Within core σ where
  declared := within.declared
  lists xs there := Value.AllAlike.mono (within.lists xs there) le
  instances i there := (within.instances i there).imp_left (·.mono le)
  foreigns o there := (within.foreigns o there).imp_left (·.mono le)

theorem list (within : h.Within core ρ) (id : ListId) :
    Value.AllAlike ρ (h.list id).toList (h.list id).toList := by
  unfold Heap.list
  cases found : h.lists[id]? with
  | none => exact .nil
  | some xs => exact within.lists xs (Array.mem_of_getElem? found)

theorem field (within : h.Within core ρ) (id : InstanceId) (name : String) :
    (h.field id name).Alike ρ (h.field id name) := by
  unfold Heap.field Heap.instance?
  cases found : h.instances[id]? with
  | none => exact .null
  | some i =>
    exact optionRel_getD ((within.instances i (Array.mem_of_getElem? found)).1.fields.get? name)
      .null

theorem append (within : h.Within core ρ) (id : ListId) (hv : v.Alike ρ v) :
    (h.append id v).Within core ρ where
  declared := within.declared
  lists := Store.forall_mem_modify within.lists id (f := (·.push v)) fun {xs} hxs => by
    rw [Array.toList_push]
    exact List.rel_append hxs (.cons hv .nil)
  instances := within.instances
  foreigns := within.foreigns

theorem setField (within : h.Within core ρ) (id : InstanceId) (name : String)
    (hv : v.Alike ρ v) : (h.setField id name v).Within core ρ where
  declared := within.declared
  lists := within.lists
  instances := Store.forall_mem_modify within.instances id
    (f := fun i => { i with fields := i.fields.set name v })
    fun hi => ⟨⟨hi.1.classId, hi.1.fields.set name hv⟩, hi.2⟩
  foreigns := within.foreigns

theorem addList (within : h.Within core ρ) (hvs : Value.AllAlike ρ vs vs) :
    (h.addList vs.toArray).2.Within core ρ where
  declared := within.declared
  lists := Array.forall_mem_push.mpr ⟨hvs, within.lists⟩
  instances := within.instances
  foreigns := within.foreigns

theorem addInstance (within : h.Within core ρ) {classId : ClassId}
    (there : ρ.classes classId classId) (other : ¬core classId) :
    (h.addInstance classId).2.Within core ρ where
  declared := within.declared
  lists := within.lists
  instances := Array.forall_mem_push.mpr ⟨⟨⟨there, .nil⟩, other⟩, within.instances⟩
  foreigns := within.foreigns

theorem addForeign (within : h.Within core ρ) {classId : ClassId} (payload : Payload)
    (there : ρ.classes classId classId) (other : ¬core classId) :
    (h.addForeign classId payload).2.Within core ρ where
  declared := within.declared
  lists := within.lists
  instances := within.instances
  foreigns := Array.forall_mem_push.mpr ⟨⟨⟨there, rfl⟩, other⟩, within.foreigns⟩

theorem addClass (within : h.Within core ρ) {c : ClassObject} (declared : c.Declared) :
    (h.addClass c).2.Within core ρ where
  declared {id d} found other := by
    have found : (h.classes.push c)[id]? = some d := found
    rw [Array.getElem?_push] at found
    split at found
    · cases found
      exact declared
    · exact within.declared found other
  lists := within.lists
  instances := within.instances
  foreigns := within.foreigns

end Heap.Within

/-! ### Machines -/

section

variable {H : Type} {m : Machine H} {signature : String}

theorem Value.of_isClass (kind : v.isClass = true) : ∃ id, v = .classObject id := by
  cases v with
  | classObject id => exact ⟨id, rfl⟩
  | _ => cases kind

theorem Machine.method?_object (other : v.isClass = false) :
    m.method? v signature =
      (m.heap.class? (m.classOf v)).bind (·.methods.get? signature) := by
  cases v with
  | classObject _ => cases other
  | _ => rfl

theorem Machine.classOf_core {c : CoreClass} (core : v.core? = some c) :
    m.classOf v = m.vm.coreClass c := by
  cases v <;> cases core <;> rfl

end

/-- The value of a handle. -/
def Desk.Offers (d : Desk) (v : Value) : Prop := ∃ handle, d.handles.get? handle = some v

structure Machine.Grounded (m : Machine Desk) : Prop where
  core : m.HasCore
  orderly : m.heap.Orderly
  heap : m.heap.Within m.vm.IsCore m.heap.own
  vm : m.vm.Alike m.heap.own m.vm
  handles : ∀ v, m.host.Offers v → v.Alike m.heap.own v

namespace Machine.Grounded

variable {m : Machine Desk} {signature : String} {args : List Value} {decl : MethodDecl}

/-! ### What is found in a grounded machine -/

/-- Objects are of a class that was made, and that is none of the core classes. -/
theorem object_class (grounded : m.Grounded) (hv : v.Alike m.heap.own v) (core : v.core? = none)
    (other : v.isClass = false) :
    m.heap.own.classes (m.classOf v) (m.classOf v) ∧ ¬m.vm.IsCore (m.classOf v) := by
  cases hv with
  | @object id _ there =>
    have found : m.heap.instance? id = _ := Array.getElem?_eq_getElem there.2
    have same : m.classOf (.object id) = _ :=
      congrArg (fun i => (i.map Instance.classId).getD 0) found
    obtain ⟨alike, declared⟩ := grounded.heap.instances _ (Array.mem_of_getElem? found)
    rw [same]
    exact ⟨alike.classId, declared⟩
  | @foreign id _ there =>
    have found : m.heap.foreign? id = _ := Array.getElem?_eq_getElem there.2
    have same : m.classOf (.foreign id) = _ :=
      congrArg (fun o => (o.map ForeignObject.classId).getD 0) found
    obtain ⟨alike, declared⟩ := grounded.heap.foreigns _ (Array.mem_of_getElem? found)
    rw [same]
    exact ⟨alike.classId, declared⟩
  | classObject _ => cases other
  | _ => cases core

/-- The class of a value was made. -/
theorem classOf (grounded : m.Grounded) (hv : v.Alike m.heap.own v) :
    m.heap.own.classes (m.classOf v) (m.classOf v) := by
  have object := grounded.object_class hv
  cases hv with
  | null => exact grounded.vm.core .null
  | bool b => exact grounded.vm.core .bool
  | number x => exact grounded.vm.core .num
  | string s => exact grounded.vm.core .string
  | list _ => exact grounded.vm.core .list
  | classObject there => exact there
  | object _ => exact (object rfl rfl).1
  | foreign _ => exact (object rfl rfl).1

/-- A method that was found is one of a core class, or of a declared class. -/
theorem method_cases (grounded : m.Grounded) (hv : v.Alike m.heap.own v) {x : Method}
    (found : m.method? v signature = some x) :
    (∃ c p, x = .primitive p ∧ (v.core? = some c ∧ (signature, p) ∈ c.methods ∨
      v = .classObject (m.vm.coreClass c) ∧ (signature, p) ∈ c.statics)) ∨
    x.isPrimitive = false ∧
      (x.isConstructor = true → ∃ id, v = .classObject id ∧ ¬m.vm.IsCore id) := by
  cases kind : v.isClass with
  | true =>
    obtain ⟨id, rfl⟩ := Value.of_isClass kind
    obtain ⟨c, there, found⟩ := Option.bind_eq_some_iff.mp found
    by_cases core : m.vm.IsCore id
    · obtain ⟨core, rfl⟩ := core
      cases (grounded.core core).symm.trans there
      obtain ⟨p, rfl, entered⟩ := CoreClass.object_statics found
      exact .inl ⟨core, p, rfl, .inr ⟨rfl, entered⟩⟩
    · exact .inr ⟨(grounded.heap.declared there core).statics found, fun _ => ⟨id, rfl, core⟩⟩
  | false =>
    rw [Machine.method?_object kind] at found
    obtain ⟨c, there, found⟩ := Option.bind_eq_some_iff.mp found
    cases core : v.core? with
    | some k =>
      rw [Machine.classOf_core core] at there
      cases (grounded.core k).symm.trans there
      obtain ⟨p, rfl, entered⟩ := CoreClass.object_methods found
      exact .inl ⟨k, p, rfl, .inl ⟨rfl, entered⟩⟩
    | none =>
      have declared := (grounded.heap.declared there (grounded.object_class hv core kind).2).methods
        found
      refine .inr ⟨declared.1, fun constructor => ?_⟩
      rw [declared.2] at constructor
      cases constructor

/-- A primitive that is found is at home, with as many arguments as its signature asks for. -/
theorem atHome (grounded : m.Grounded) (hv : v.Alike m.heap.own v) {p : Primitive}
    (found : m.method? v signature = some (.primitive p))
    (fits : args.length = signatureArity signature) : p.AtHome m.vm v signature args := by
  obtain ⟨c, p', same, entered⟩ | ⟨other, -⟩ := grounded.method_cases hv found
  · cases same
    refine ⟨fits, c, c.mem_all, entered.imp_right ?_⟩
    rintro ⟨rfl, there⟩
    exact ⟨beq_self_eq_true _, there⟩
  · cases other

/-- A constructor that is found is one of the receiver, which is a declared class. -/
theorem constructs (grounded : m.Grounded) (hv : v.Alike m.heap.own v)
    (found : m.method? v signature = some (.constructor decl)) :
    ∃ id, v = .classObject id ∧ ¬m.vm.IsCore id := by
  obtain ⟨c, p, same, -⟩ | ⟨-, receiver⟩ := grounded.method_cases hv found
  · cases same
  · exact receiver rfl

/-! ### What keeps a machine grounded -/

theorem onVm (grounded : m.Grounded) {f : Vm → Vm} (core : (f m.vm).core = m.vm.core)
    (vm : (f m.vm).Alike m.heap.own (f m.vm)) : (m.onVm f).Grounded := by
  have same : (f m.vm).coreClass = m.vm.coreClass := by
    funext c
    unfold Vm.coreClass
    rw [core]
  have cores : (f m.vm).IsCore = m.vm.IsCore := by
    funext id
    unfold Vm.IsCore
    rw [same]
  refine ⟨fun c => ?_, grounded.orderly, ?_, vm, grounded.handles⟩
  · exact (congrArg m.heap.class? (congrFun same c)).trans (grounded.core c)
  · change m.heap.Within (f m.vm).IsCore m.heap.own
    rw [cores]
    exact grounded.heap

theorem setSlot (grounded : m.Grounded) (slot : Nat) (hv : v.Alike m.heap.own v) :
    (m.onVm (·.setSlot slot v)).Grounded :=
  grounded.onVm rfl (grounded.vm.setSlot slot hv)

theorem openModule (grounded : m.Grounded) (name : String) :
    (m.onVm (·.openModule name)).Grounded := by
  refine grounded.onVm ?_ (grounded.vm.openModule name)
  unfold Vm.openModule
  split <;> rfl

/-- A heap that has grown, in which nothing refers to what is not there. -/
theorem withHeap (grounded : m.Grounded) (le : m.heap.own ≤ h.own) (kept : m.heap.KeptIn h)
    (orderly : h.Orderly) (within : h.Within m.vm.IsCore h.own) :
    Machine.Grounded { m with heap := h } where
  core c := kept.classes (grounded.core c)
  orderly := orderly
  heap := within
  vm := grounded.vm.mono le
  handles v offered := (grounded.handles v offered).mono le

theorem withHost (grounded : m.Grounded) {d : Desk}
    (handles : ∀ v, d.Offers v → v.Alike m.heap.own v) : Machine.Grounded { m with host := d } :=
  ⟨grounded.core, grounded.orderly, grounded.heap, grounded.vm, handles⟩

theorem append (grounded : m.Grounded) (id : ListId) (hv : v.Alike m.heap.own v) :
    (m.mapHeap (·.append id v)).Grounded := by
  have same := m.heap.own_append id v
  refine grounded.withHeap same.ge (.of_eq rfl rfl) (grounded.orderly.of_eq rfl) ?_
  rw [same]
  exact grounded.heap.append id hv

theorem setField (grounded : m.Grounded) (id : InstanceId) (name : String)
    (hv : v.Alike m.heap.own v) : (m.mapHeap (·.setField id name v)).Grounded := by
  have same := m.heap.own_setField id name v
  refine grounded.withHeap same.ge (.of_eq rfl rfl) (grounded.orderly.of_eq rfl) ?_
  rw [same]
  exact grounded.heap.setField id name hv

theorem addList (grounded : m.Grounded) (hvs : Value.AllAlike m.heap.own vs vs) :
    m.heap.own ≤ (m.heap.addList vs.toArray).2.own ∧
      (m.onHeap (·.addList vs.toArray)).2.Grounded := by
  have le : m.heap.own ≤ (m.heap.addList vs.toArray).2.own :=
    Heap.own_mono (Store.size_lt_push _ _).le le_rfl le_rfl le_rfl
  exact ⟨le, grounded.withHeap le (.of_eq rfl rfl) (grounded.orderly.of_eq rfl)
    ((grounded.heap.mono le).addList (Value.AllAlike.mono hvs le))⟩

theorem addInstance (grounded : m.Grounded) {classId : ClassId}
    (there : m.heap.own.classes classId classId) (other : ¬m.vm.IsCore classId) :
    m.heap.own ≤ (m.heap.addInstance classId).2.own ∧
      (m.onHeap (·.addInstance classId)).2.Grounded := by
  have le : m.heap.own ≤ (m.heap.addInstance classId).2.own :=
    Heap.own_mono le_rfl le_rfl (Store.size_lt_push _ _).le le_rfl
  exact ⟨le, grounded.withHeap le (.of_eq rfl rfl) (grounded.orderly.of_eq rfl)
    ((grounded.heap.mono le).addInstance (le.classes there) other)⟩

theorem addForeign (grounded : m.Grounded) {classId : ClassId} (payload : Payload)
    (there : m.heap.own.classes classId classId) (other : ¬m.vm.IsCore classId) :
    m.heap.own ≤ (m.heap.addForeign classId payload).2.own ∧
      Machine.Grounded { m with heap := (m.heap.addForeign classId payload).2 } := by
  have le : m.heap.own ≤ (m.heap.addForeign classId payload).2.own :=
    Heap.own_mono le_rfl le_rfl le_rfl (Store.size_lt_push _ _).le
  exact ⟨le, grounded.withHeap le (Heap.keptIn_addForeign _ _ _) (grounded.orderly.of_eq rfl)
    ((grounded.heap.mono le).addForeign payload (le.classes there) other)⟩

theorem addClass (grounded : m.Grounded) {c : ClassObject} (orderly : c.Orderly)
    (declared : c.Declared) :
    m.heap.own ≤ (m.heap.addClass c).2.own ∧ (m.onHeap (·.addClass c)).2.Grounded := by
  have le : m.heap.own ≤ (m.heap.addClass c).2.own :=
    Heap.own_mono le_rfl (Store.size_lt_push _ _).le le_rfl le_rfl
  exact ⟨le, grounded.withHeap le (Heap.keptIn_addClass _ _) (grounded.orderly.addClass orderly)
    ((grounded.heap.mono le).addClass declared)⟩

/-- A machine that nothing has run on, for a host with empty hands. -/
theorem fresh {desk : Desk} (empty : ∀ v, ¬desk.Offers v) : (Machine.fresh desk).Grounded where
  core c := Heap.empty.class?_addCore_coreClass c
  orderly := Machine.fresh_orderly desk
  heap :=
    { declared := by
        -- The heap has the core classes, and no others.
        have all : ∀ id < 6, ∃ c ∈ CoreClass.all, id = (Vm.fresh 0).coreClass c := by decide
        intro id c found other
        obtain ⟨core, -, same⟩ := all id (Heap.class?_lt found)
        exact absurd ⟨core, same⟩ other
      lists := nofun
      instances := nofun
      foreigns := nofun }
  vm :=
    { core := fun c => ⟨rfl, Heap.class?_lt (Heap.empty.class?_addCore_coreClass c)⟩
      modules := .nil
      slots := .nil
      returnWritten := rfl
      abort := rfl
      depth := rfl }
  handles v offered := absurd offered (empty v)

end Machine.Grounded
end ScriptHost
