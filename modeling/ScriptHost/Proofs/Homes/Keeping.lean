import ScriptHost.Proofs.Homes.Diary
import ScriptHost.Proofs.Binding.Dispatch
import ScriptHost.Proofs.Simulation.Shadow

/-! The diary is true. As long as a run goes on, and when a fault or a halt ends it, every note is
of the machine that runs, and names the module that its class has in the heap; without its diary,
the run is the plain one. Both are shown in one simulation, which also knows of some classes what
modules they have, for classes are never taken away or changed. -/

namespace ScriptHost

variable {H α β : Type}

/-- A class is there, and its module has the name. -/
def Heap.InModule (h : Heap) (classId : ClassId) (moduleName : String) : Prop :=
  ∃ c, h.class? classId = some c ∧ c.moduleName = moduleName

/-- The classes of one heap are those of the other, which may have more. -/
def Heap.KeepsClasses (h h' : Heap) : Prop := ∀ id c, h.class? id = some c → h'.class? id = some c

namespace Heap

variable {h h' : Heap} {classId : ClassId} {moduleName : String}

theorem KeepsClasses.refl (h : Heap) : h.KeepsClasses h := fun _ _ => id

theorem KeepsClasses.addClass (h : Heap) (c : ClassObject) : h.KeepsClasses (h.addClass c).2 := by
  intro id d found
  unfold class? Heap.addClass at *
  rw [Array.getElem?_push, if_neg (Nat.ne_of_lt (Array.getElem?_eq_some_iff.mp found).1)]
  exact found

theorem InModule.keep (there : h.InModule classId moduleName) (keeps : h.KeepsClasses h') :
    h'.InModule classId moduleName := by
  obtain ⟨c, found, named⟩ := there
  exact ⟨c, keeps classId c found, named⟩

theorem InModule.unique {other : String} (there : h.InModule classId moduleName)
    (also : h.InModule classId other) : moduleName = other := by
  obtain ⟨c, found, rfl⟩ := there
  obtain ⟨d, found', rfl⟩ := also
  rw [Option.some.inj (found.symm.trans found')]

end Heap

namespace Diaried

/-- What a run on a machine with a diary keeps to: the core of the machine, what is known of some
classes, and that each note is of this machine and names the module of its class. -/
structure Keeping (core : ClassId) (known : ClassId → String → Prop) (m : Machine (Diaried H)) :
    Prop where
  running : m.vm.core = core
  classes : ∀ classId moduleName, known classId moduleName → m.heap.InModule classId moduleName
  notes : ∀ note ∈ m.host.diary,
    note.home.core = core ∧ m.heap.InModule note.classId note.home.moduleName

section Keeping

variable {core : ClassId} {known known' : ClassId → String → Prop} {m n : Machine (Diaried H)}

/-- Nothing counts but the core, the classes and the diary. -/
theorem Keeping.of (h : Keeping core known m) (sameCore : n.vm.core = m.vm.core)
    (keeps : m.heap.KeepsClasses n.heap) (diary : n.host.diary = m.host.diary) :
    Keeping core known n where
  running := sameCore.trans h.running
  classes classId moduleName fact := (h.classes classId moduleName fact).keep keeps
  notes note listed := by
    rw [diary] at listed
    exact ⟨(h.notes note listed).1, (h.notes note listed).2.keep keeps⟩

theorem Keeping.onVm (h : Keeping core known m) {f : Vm → Vm} (same : (f m.vm).core = m.vm.core) :
    Keeping core known (m.onVm f) := h.of same (.refl _) rfl

theorem Keeping.onHost (h : Keeping core known m) (act : StateM H α) :
    Keeping core known (m.onHost (callback act)).2 := h.of rfl (.refl _) rfl

/-- A true note. -/
theorem Keeping.noted (h : Keeping core known m) {note : Note} (here : note.home.core = core)
    (there : m.heap.InModule note.classId note.home.moduleName) :
    Keeping core known (Diaried.noted note m) where
  running := h.running
  classes := h.classes
  notes other listed := by
    obtain rfl | listed := List.mem_cons.mp listed
    · exact ⟨here, there⟩
    · exact h.notes other listed

theorem Keeping.fewer (h : Keeping core known m)
    (le : ∀ classId moduleName, known' classId moduleName → known classId moduleName) :
    Keeping core known' m :=
  ⟨h.running, fun classId moduleName fact => h.classes _ _ (le classId moduleName fact), h.notes⟩

end Keeping

end Diaried

theorem Vm.openModule_core (vm : Vm) (name : String) : (vm.openModule name).core = vm.core := by
  unfold Vm.openModule
  split <;> rfl

namespace Diaried

/-- The plain run is a shadow of the run with a diary. -/
def shadow (H : Type) (core : ClassId) (known : ClassId → String → Prop) :
    Shadow (Diaried H) H where
  written _ _ := True
  image := Diaried.side
  going := Keeping core known
  fault _ := Keeping core known
  halt := Keeping core known

/-- The two runs on machines that differ by the diary alone. -/
abbrev erasure (H : Type) (core : ClassId) (known : ClassId → String → Prop) :
    Simulation (Diaried H) H := (shadow H core known).simulation

section Laws

variable {c : Callbacks H} {host₁ : Host (Diaried H)} {host₂ : Host H} {core : ClassId}
  {known : ClassId → String → Prop}

theorem follows {m : Machine (Diaried H)} (h : Keeping core known m) (act : StateM H α) :
    (shadow H core known).Follows m (callback act) act := ⟨rfl, h.onHost act⟩

theorem declaring (callbacks₁ : host₁.callbacks = callbacks c) (callbacks₂ : host₂.callbacks = c) :
    (shadow H core known).Declaring host₁ host₂ where
  asked _ := fun _ => by rw [callbacks₁, callbacks₂]; rfl
  known h := fun _ _ _ => by rw [callbacks₁]; exact h.onHost _
  unknown h := fun _ _ => by rw [callbacks₁]; exact h.onHost _
  classes h := fun _ _ => by rw [callbacks₁, callbacks₂]; exact follows h _
  unknownClass h := fun _ _ => h
  halt h := h
  addClass h := fun c => h.of rfl (.addClass _ c) rfl

/-- The laws that a run with a diary keeps to, as soon as host functions keep to them. -/
theorem nesting (callbacks₁ : host₁.callbacks = callbacks c) (callbacks₂ : host₂.callbacks = c)
    (served : ∀ {e₁ e₂}, Engine.Alike (erasure H core known) host₁ host₂ e₁ e₂ →
      ∀ f, LiveSim (erasure H core known) .id .same (host₁.run f e₁) (host₂.run f e₂)) :
    (shadow H core known).Nesting host₁ host₂ where
  bodies _ := fun _ _ _ _ => trivial
  define h := fun _ _ _ => h.onVm rfl
  openModule h := fun name => h.onVm (Vm.openModule_core _ name)
  append _ := fun h _ _ => h.of rfl (.refl _) rfl
  setField h := fun _ _ _ => h.of rfl (.refl _) rfl
  addList h := fun _ => h.of rfl (.refl _) rfl
  addInstance h := fun _ => h.of rfl (.refl _) rfl
  write h := fun _ => by rw [callbacks₁, callbacks₂]; exact follows h _
  report h := fun _ => by rw [callbacks₁, callbacks₂]; exact follows h _
  load h := fun _ => by
    rw [callbacks₁, callbacks₂]
    exact ⟨follows h _, fun _ _ _ _ _ _ => trivial⟩
  defineClass callbacks₁' callbacks₂' := fun h moduleName decl _ =>
    (declaring callbacks₁ callbacks₂).defineClass_sim callbacks₁' callbacks₂' moduleName decl _ _
      ⟨rfl, rfl, h⟩
  callForeign engines := fun h v vs _ f _ => called engines h f v vs
  allocate engines := fun h a _ vs f _ _ => called engines h f (.classObject a) vs
  allocated := .inl fun _ _ _ _ => trivial
  raise h := fun _ => h
  exhaust h := h
  deeper h := h.onVm rfl
  shallower h := h.onVm rfl
  fault_shallower h := h.onVm rfl
  miscount := .inl id
where
  called {e₁ e₂} (engines : Engine.Alike (erasure H core known) host₁ host₂ e₁ e₂)
      {m : Machine (Diaried H)} (h : Keeping core known m) (f : HostFunction) (v : Value)
      (vs : List Value) :
      (erasure H core known).Ended .id ((erasure H core known).Settled .alike)
        ((callForeign host₁ e₁ f v vs).run m) ((callForeign host₂ e₂ f v vs).run (plain m)) := by
    rw [callForeign_bind, callForeign_bind]
    have window : Keeping core known (m.windowed v vs) := h.of rfl (.refl _) rfl
    refine (served engines f (m.windowed v vs) _ ⟨rfl, rfl, window⟩).bind ?_
    rintro σ _ m' _ _ - ⟨⟨rfl, rfl, h'⟩, -⟩
    have closed : Keeping core known (m'.closed m.vm) := h'.of rfl (.refl _) rfl
    refine .ok le_rfl ?_
    change (erasure H core known).Settled _ _ m'.vm.verdict _ m'.vm.verdict _
    cases m'.vm.verdict with
    | error e => exact .fault ⟨rfl, rfl, closed⟩
    | ok v => exact .ok ⟨rfl, rfl, closed⟩ (Value.alike_refl v)

end Laws

end Diaried
end ScriptHost
