import ScriptHost.Proofs.Binding.Declaration
import ScriptHost.Proofs.Isolation.Machines
import ScriptHost.Proofs.Release.Confined
import ScriptHost.Proofs.Release.Reach
import ScriptHost.Proofs.Simulation.Facade

/-! Objects that are lost for a machine: neither its variables nor its window lead to them, nor does
any object that is not lost. A run finds no way back to them and leaves them as they are. It is told
as a run beside itself, in which every object but the lost ones stands for itself. -/

namespace ScriptHost

open Heap (Object)

/-- Objects that were lost at some time, with the heap at that time. -/
structure Lost where
  object : Object → Prop
  start : Heap
  made : ∀ {x}, object x → start.Made x

/-- Every object that is not lost stands for itself. -/
def Lost.others (L : Lost) : Renaming where
  lists a b := a = b ∧ ¬L.object (.list a)
  classes := Eq
  instances a b := a = b ∧ ¬L.object (.instance a)
  foreigns a b := a = b ∧ ¬L.object (.foreign a)

variable {L : Lost} {h start : Heap} {v w : Value} {vs ws : List Value}

namespace Value

theorem Alike.eq (hv : v.Alike L.others w) : v = w := by
  cases hv with
  | list h => rw [h.1]
  | classObject h => rw [h]
  | object h => rw [h.1]
  | foreign h => rw [h.1]
  | _ => rfl

theorem AllAlike.eq (hvs : AllAlike L.others vs ws) : vs = ws := by
  induction hvs with
  | nil => rfl
  | cons hv _ ih => rw [hv.eq, ih]

/-- A value refers to no lost object just if it stands for itself. -/
theorem alike_others :
    v.Alike L.others v ↔ ∀ x, Heap.object? v = some x → ¬L.object x := by
  constructor
  · intro hv x object
    cases hv with
    | list h => cases object; exact h.2
    | object h => cases object; exact h.2
    | foreign h => cases object; exact h.2
    | _ => cases object
  · intro free
    cases v with
    | null => exact .null
    | bool b => exact .bool b
    | number x => exact .number x
    | string s => exact .string s
    | list id => exact .list ⟨rfl, free _ rfl⟩
    | classObject id => exact .classObject rfl
    | object id => exact .object ⟨rfl, free _ rfl⟩
    | foreign id => exact .foreign ⟨rfl, free _ rfl⟩

end Value

theorem Lost.oneToOne (L : Lost) : L.others.OneToOne where
  lists := by
    rintro a b c d ⟨rfl, -⟩ ⟨rfl, -⟩
    rfl
  classes := by
    rintro a b c d rfl rfl
    rfl
  instances := by
    rintro a b c d ⟨rfl, -⟩ ⟨rfl, -⟩
    rfl
  foreigns := by
    rintro a b c d ⟨rfl, -⟩ ⟨rfl, -⟩
    rfl

/-! ### Heaps -/

/-- What stands at some places has a property. -/
def Store.Each {α : Type} (P : Nat → Prop) (Q : α → Prop) (xs : Array α) : Prop :=
  ∀ a x, P a → xs[a]? = some x → Q x

theorem Store.Each.push {α : Type} {P : Nat → Prop} {Q : α → Prop} {xs : Array α} {x : α}
    (each : Store.Each P Q xs) (new : Q x) : Store.Each P Q (xs.push x) := by
  intro a y place found
  rw [Array.getElem?_push] at found
  split at found
  · cases found
    exact new
  · exact each a y place found

theorem Store.Each.modify {α : Type} {P : Nat → Prop} {Q : α → Prop} {xs : Array α}
    (each : Store.Each P Q xs) (b : Nat) {f : α → α} (hf : ∀ {x}, Q x → Q (f x)) :
    Store.Each P Q (xs.modify b f) := by
  intro a y place found
  rw [Array.getElem?_modify] at found
  split at found
  · obtain ⟨x, there, rfl⟩ := Option.map_eq_some_iff.mp found
    exact hf (each a x place there)
  · exact each a y place found

namespace Heap

/-- A heap grown from one in which some objects were lost: they are as they were, and no other
object refers to them. -/
structure Spares (h : Heap) (L : Lost) : Prop where
  grown : Heap.Grown L.others L.start L.others h
  kept : L.start.KeptIn h
  lists : Store.Each (fun id => ¬L.object (.list id))
    (fun xs => Value.AllAlike L.others xs.toList xs.toList) h.lists
  instances : Store.Each (fun id => ¬L.object (.instance id))
    (fun i => Bindings.Alike L.others i.fields i.fields) h.instances

/-- New pairs are not needed: an object made later stands for itself from the start. -/
theorem Grown.within {ρ₀ ρ σ : Renaming} (grown : Heap.Grown ρ₀ start ρ h) (le : σ ≤ ρ) :
    Heap.Grown ρ₀ start σ h :=
  ⟨⟨grown.lists.size, fun ab => grown.lists.fresh (le.lists ab), grown.lists.spared⟩,
    ⟨grown.classes.size, fun ab => grown.classes.fresh (le.classes ab), grown.classes.spared⟩,
    ⟨grown.instances.size, fun ab => grown.instances.fresh (le.instances ab),
      grown.instances.spared⟩,
    ⟨grown.foreigns.size, fun ab => grown.foreigns.fresh (le.foreigns ab),
      grown.foreigns.spared⟩⟩

/-- What was made once is there for good. -/
theorem Grown.made {ρ₀ ρ : Renaming} (grown : Heap.Grown ρ₀ start ρ h) {x : Object}
    (made : start.Made x) : h.Made x := by
  cases x with
  | list id => exact Nat.lt_of_lt_of_le made grown.lists.size
  | «instance» id => exact Nat.lt_of_lt_of_le made grown.instances.size
  | foreign id => exact Nat.lt_of_lt_of_le made grown.foreigns.size

namespace Spares

theorem list (spares : h.Spares L) {id : ListId} (free : ¬L.object (.list id)) :
    Value.AllAlike L.others (h.list id).toList (h.list id).toList := by
  unfold Heap.list
  cases found : h.lists[id]? with
  | none => exact .nil
  | some xs => exact spares.lists id xs free found

theorem field (spares : h.Spares L) {id : InstanceId} (free : ¬L.object (.instance id))
    (name : String) : (h.field id name).Alike L.others (h.field id name) := by
  unfold Heap.field Heap.instance?
  cases found : h.instances[id]? with
  | none => exact .null
  | some i => exact optionRel_getD ((spares.instances id i free found).get? name) .null

theorem addList (spares : h.Spares L)
    (hvs : Value.AllAlike L.others vs vs) :
    (h.addList vs.toArray).2.Spares L :=
  ⟨(spares.grown.addList h.lists.size vs.toArray).within (Renaming.le_addList _ _ _),
    spares.kept.trans (.of_eq rfl rfl), spares.lists.push hvs, spares.instances⟩

theorem addInstance (spares : h.Spares L) (classId : ClassId) :
    (h.addInstance classId).2.Spares L :=
  ⟨(spares.grown.addInstance h.instances.size classId).within (Renaming.le_addInstance _ _ _),
    spares.kept.trans (.of_eq rfl rfl), spares.lists, spares.instances.push .nil⟩

theorem addForeign (spares : h.Spares L) (classId : ClassId) (payload : Payload) :
    (h.addForeign classId payload).2.Spares L :=
  ⟨(spares.grown.addForeign h.foreigns.size classId payload).within (Renaming.le_addForeign _ _ _),
    spares.kept.trans (keptIn_addForeign h classId payload), spares.lists, spares.instances⟩

theorem addClass (spares : h.Spares L) (c : ClassObject) :
    (h.addClass c).2.Spares L :=
  ⟨(spares.grown.addClass h.classes.size c).within (Renaming.le_addClass _ _ _),
    spares.kept.trans (keptIn_addClass h c), spares.lists, spares.instances⟩

theorem append (spares : h.Spares L) {id : ListId} (free : ¬L.object (.list id))
    (hv : v.Alike L.others v) : (h.append id v).Spares L := by
  refine ⟨spares.grown.append ⟨rfl, free⟩ v, spares.kept.trans (.of_eq rfl rfl),
    spares.lists.modify id fun {xs} hxs => ?_, spares.instances⟩
  rw [Array.toList_push]
  exact List.rel_append hxs (.cons hv .nil)

theorem setField (spares : h.Spares L) {id : InstanceId} (free : ¬L.object (.instance id))
    (name : String) (hv : v.Alike L.others v) :
    (h.setField id name v).Spares L :=
  ⟨spares.grown.setField ⟨rfl, free⟩ name v, spares.kept.trans (.of_eq rfl rfl), spares.lists,
    spares.instances.modify id fun hi => hi.set name hv⟩

theorem setPayloads (spares : h.Spares L) {writes : List (ForeignId × Payload)}
    (free : ∀ w ∈ writes, ¬L.object (.foreign w.1)) : (h.setPayloads writes).Spares L := by
  induction writes generalizing h with
  | nil => exact spares
  | cons w rest ih =>
    have first : (h.setPayload w.1 w.2).Spares L :=
      ⟨spares.grown.setPayload ⟨rfl, free w List.mem_cons_self⟩ w.2,
        spares.kept.trans (keptIn_setPayload h w.1 w.2), spares.lists, spares.instances⟩
    exact ih first fun w hw => free w (List.mem_cons_of_mem _ hw)

end Spares
end Heap

/-! ### Machines -/

/-- The machine when a run is over, whatever the run came to. -/
def Machine.after {H α : Type} (m : Machine H) (run : Live H α) : Machine H :=
  match run m with
  | .ok _ n => n
  | .error _ n => n

namespace Lost

variable {ρ : Renaming} {m : Machine Surroundings}

/-- A machine that has no way to the lost objects. -/
structure Holds (L : Lost) (m : Machine Surroundings) : Prop where
  heap : m.heap.Spares L
  vm : m.vm.Alike L.others m.vm
  kept : ∀ {id}, m.host.kept = some id → ¬L.object (.foreign id)
  confined : m.host.registry.Confined

def simulation (L : Lost) : Simulation Surroundings Surroundings where
  written _ _ := True
  going ρ m n := ρ = L.others ∧ n = m ∧ L.Holds m
  fault _ ρ m n := ρ = L.others ∧ n = m ∧ L.Holds m
  halt _ ρ m n := ρ = L.others ∧ n = m ∧ L.Holds m

theorem Holds.onVm (holds : L.Holds m) {f : Vm → Vm}
    (vm : (f m.vm).Alike L.others (f m.vm)) : L.Holds (m.onVm f) :=
  ⟨holds.heap, vm, holds.kept, holds.confined⟩

theorem Holds.withHeap (holds : L.Holds m) {h : Heap} (heap : h.Spares L) :
    L.Holds { m with heap := h } :=
  ⟨heap, holds.vm, holds.kept, holds.confined⟩

theorem Holds.onHost (holds : L.Holds m) {s : Surroundings} (kept : s.kept = m.host.kept)
    (registry : s.registry = m.host.registry) : L.Holds { m with host := s } :=
  ⟨holds.heap, holds.vm, fun same => holds.kept (kept ▸ same), registry ▸ holds.confined⟩

/-- What is made is not lost. -/
theorem Holds.fresh (holds : L.Holds m) {x : Object} (new : ¬m.heap.Made x) : ¬L.object x :=
  fun lost => new (holds.heap.grown.made (L.made lost))

theorem Holds.write (holds : L.Holds m) (channel : Channel) (text : String) :
    L.Holds { m with host := m.host.write channel text } := by
  refine holds.onHost ?_ (m.host.write_names channel text).1
  unfold Surroundings.write
  split <;> rfl

theorem Holds.stop (holds : L.Holds m) (f : BoundaryFault) :
    L.Holds (Surroundings.stop m f) := by
  have vm := holds.vm
  have stopped := holds.onVm (f := fun vm => { vm with abort := some f.message })
    ⟨vm.core, vm.modules, vm.slots, vm.returnWritten, rfl, vm.depth⟩
  exact stopped.onHost rfl rfl

theorem Holds.setSlot (holds : L.Holds m) (slot : Nat) (hv : v.Alike L.others v) :
    L.Holds (m.onVm (·.setSlot slot v)) :=
  holds.onVm (holds.vm.setSlot slot hv)

/-- An object in the window is not lost. -/
theorem Holds.seen (holds : L.Holds m) {id : ForeignId} (there : .foreign id ∈ m.vm.slots) :
    ¬L.object (.foreign id) := by
  have alike := List.forall₂_same.mp holds.vm.slots _ there
  exact Value.alike_others.mp alike _ rfl

theorem Holds.mark (holds : L.Holds m) {effect : Effect} {ids : List ForeignId}
    (within : effect.Within ids) (free : ∀ id ∈ ids, ¬L.object (.foreign id)) :
    L.Holds (effect.mark Surroundings.keep m) := by
  have written := holds.withHeap
    (holds.heap.setPayloads fun w hw => free w.1 (within.writes w hw))
  unfold Effect.mark
  cases keeps : effect.keeps with
  | none => exact written
  | some id =>
    refine ⟨written.heap, written.vm, fun {other} same => ?_, written.confined⟩
    obtain rfl : id = other := Option.some.inj same
    exact free id (within.keeps id keeps)

theorem Holds.land (holds : L.Holds m) (returns : Option Kind) (outcome : Outcome) :
    L.Holds (outcome.land returns m).2 := by
  unfold Outcome.land
  cases outcome with
  | fault f => exact holds
  | panic message => exact holds
  | value v =>
    cases v with
    | none => exact holds
    | some x =>
      dsimp only
      cases encoded : m.encodeResult returns x with
      | error f => exact holds
      | ok m' =>
        unfold Machine.encodeResult at encoded
        cases returns with
        | none => cases encoded
        | some kind =>
          dsimp only at encoded
          split at encoded
          · unfold Machine.encode at encoded
            cases put : x.toValue 0 with
            | error f =>
              rw [put] at encoded
              cases encoded
            | ok v =>
              rw [put] at encoded
              cases encoded
              exact holds.setSlot 0 (Client.toValue_alike put)
          · cases encoded

theorem Holds.runRoutine (holds : L.Holds m) {r : Routine} (confined : r.Confined) :
    L.Holds (Surroundings.runEntry (.routine r) m) := by
  rw [Surroundings.runEntry_routine]
  cases read : m.decodeArguments r.params with
  | error f => exact holds.stop f
  | ok xs =>
    have marked := holds.mark (confined xs m.heap)
      fun id among => holds.seen (Machine.decodeArguments_objects read among)
    have landed := marked.land r.returns (r.call xs m.heap).outcome
    revert landed
    dsimp only
    generalize (r.call xs m.heap).outcome.land r.returns _ = result
    obtain ⟨_ | _, m'⟩ := result
    · exact fun landed => landed.stop _
    · exact id

theorem Holds.runMaker (holds : L.Holds m) (maker : Maker) :
    L.Holds (Surroundings.runEntry (.maker maker) m) := by
  unfold Surroundings.runEntry Surroundings.allocate Machine.newForeign?
  dsimp only
  cases maker.make with
  | error message => exact holds.stop _
  | ok payload =>
    cases m.slotForeignClass? 0 with
    | none => exact holds.stop _
    | some classId =>
      have new : ¬L.object (.foreign m.heap.foreigns.size) := holds.fresh (Nat.lt_irrefl _)
      exact (holds.withHeap (holds.heap.addForeign classId payload)).setSlot 0 (.foreign ⟨rfl, new⟩)

theorem Holds.runs (holds : L.Holds m) (f : HostFunction) : L.Holds (Surroundings.runs f m) := by
  cases f with
  | method key => exact holds
  | allocator className => exact holds
  | entry point =>
    unfold Surroundings.runs
    dsimp only
    cases found : m.host.registry.find? point with
    | none =>
      have vm := holds.vm
      exact holds.onVm ⟨vm.core, vm.modules, vm.slots, vm.returnWritten, rfl, vm.depth⟩
    | some e =>
      cases e with
      | routine r => exact holds.runRoutine (holds.confined point r found)
      | maker maker => exact holds.runMaker maker

/-! ### Calls from a script -/

theorem Holds.windowed (holds : L.Holds m) (hv : v.Alike L.others v)
    (hvs : Value.AllAlike L.others vs vs) : L.Holds (m.windowed v vs) := by
  have vm := holds.vm
  exact holds.onVm ⟨vm.core, vm.modules, .cons hv hvs, rfl, rfl, vm.depth⟩

theorem Holds.closed (holds : L.Holds m) {outer : Vm}
    (alike : outer.Alike L.others outer) : L.Holds (m.closed outer) := by
  have vm := holds.vm
  exact holds.onVm ⟨vm.core, vm.modules, alike.slots, rfl, rfl, vm.depth⟩

theorem Holds.verdict (holds : L.Holds m) {w : Value} (given : m.vm.verdict = .ok w) :
    w.Alike L.others w := by
  unfold Vm.verdict at given
  split at given
  · cases given
  · cases given
    split
    · have slots := holds.vm.slots
      cases window : m.vm.slots with
      | nil => exact .null
      | cons first rest =>
        rw [window] at slots
        exact (List.forall₂_cons.mp slots).1
    · exact .null

theorem Holds.called (holds : L.Holds m) (e₁ e₂ : Engine Surroundings) (f : HostFunction)
    (hv : v.Alike L.others v) (hvs : Value.AllAlike L.others vs vs) :
    L.simulation.Ended L.others (L.simulation.Settled .alike)
      ((callForeign Surroundings.host e₁ f v vs).run m)
      ((callForeign Surroundings.host e₂ f v vs).run m) := by
  have ran := (holds.windowed hv hvs).runs f
  rw [callForeign_run, callForeign_run]
  refine .ok le_rfl ?_
  have given {w : Value} := ran.verdict (w := w)
  have closed := ran.closed holds.vm
  revert given closed
  generalize (Surroundings.runs f (m.windowed v vs)).vm.verdict = verdict
  intro given closed
  cases verdict with
  | ok w => exact .ok ⟨rfl, rfl, closed⟩ (given rfl)
  | error e => exact .fault ⟨rfl, rfl, closed⟩

theorem defineClass_sim {e₁ e₂ : Engine Surroundings}
    (callbacks₁ : e₁.callbacks = Surroundings.callbacks)
    (callbacks₂ : e₂.callbacks = Surroundings.callbacks) (ρ : Renaming) (moduleName : String)
    (decl : ClassDecl) :
    RunSim L.simulation ρ (fun σ a b => σ.classes a b) (defineClass e₁ moduleName decl)
      (defineClass e₂ moduleName decl) := by
  rintro m n ⟨rfl, rfl, holds⟩
  rw [defineClass_run callbacks₁, defineClass_run callbacks₂]
  cases n.host.record.declared moduleName decl with
  | ok c => exact .ok le_rfl (.ok ⟨rfl, rfl, holds.withHeap (holds.heap.addClass c)⟩ rfl)
  | error refusal =>
    cases refusal with
    | panic message => exact .halt le_rfl ⟨rfl, rfl, holds⟩
    | noAllocator => exact .ok le_rfl (.fault ⟨rfl, rfl, holds⟩)
    | member d f => exact .ok le_rfl (.fault ⟨rfl, rfl, holds.onHost rfl rfl⟩)

/-! ### The laws -/

/-- A run keeps away from lost objects, whatever is asked of the machine. -/
theorem attended (L : Lost) : Attended L.simulation where
  oneToOne := by
    rintro ρ m n ⟨rfl, -⟩
    exact L.oneToOne
  binding? := by
    rintro ρ m n ⟨rfl, rfl, holds⟩
    exact holds.vm.binding?
  hasModule := by
    rintro ρ m n ⟨rfl, rfl, -⟩ name
    rfl
  depth := by
    rintro ρ m n ⟨rfl, rfl, -⟩
    rfl
  list := by
    rintro ρ m n ⟨rfl, rfl, holds⟩ a b ⟨rfl, free⟩
    exact holds.heap.list free
  field := by
    rintro ρ m n ⟨rfl, rfl, holds⟩ a b ⟨rfl, free⟩ name
    exact holds.heap.field free name
  class? := by
    rintro ρ m n ⟨rfl, rfl, -⟩ a b rfl
    exact optionRel_refl (fun _ => ⟨rfl, rfl, rfl, rfl⟩) _
  classOf := by
    rintro ρ m n ⟨rfl, rfl, -⟩ v w hv
    obtain rfl := hv.eq
    rfl
  method? := by
    rintro ρ m n ⟨rfl, rfl, -⟩ v w hv signature
    obtain rfl := hv.eq
    exact optionRel_refl Method.alike_refl _
  bodies _ := fun _ _ _ _ => trivial
  describe := by
    rintro ρ m n ⟨rfl, rfl, -⟩ v w hv -
    obtain rfl := hv.eq
    rfl
  lists := by
    left
    rintro ρ m n ⟨rfl, rfl, -⟩ a b ⟨rfl, -⟩
    rfl
  define := by
    rintro ρ m n ⟨rfl, rfl, holds⟩ moduleName name v w hv
    obtain rfl := hv.eq
    exact ⟨rfl, rfl, holds.onVm (holds.vm.define moduleName name hv)⟩
  openModule := by
    rintro ρ m n ⟨rfl, rfl, holds⟩ name
    exact ⟨rfl, rfl, holds.onVm (holds.vm.openModule name)⟩
  append := by
    rintro - ρ m n ⟨rfl, rfl, holds⟩ a b v w ⟨rfl, free⟩ hv
    obtain rfl := hv.eq
    exact ⟨rfl, rfl, holds.withHeap (holds.heap.append free hv)⟩
  setField := by
    rintro ρ m n ⟨rfl, rfl, holds⟩ a b v w name ⟨rfl, free⟩ hv
    obtain rfl := hv.eq
    exact ⟨rfl, rfl, holds.withHeap (holds.heap.setField free name hv)⟩
  addList := by
    rintro ρ m n ⟨rfl, rfl, holds⟩ vs ws hvs
    obtain rfl := hvs.eq
    have new : ¬L.object (.list n.heap.lists.size) := holds.fresh (Nat.lt_irrefl _)
    exact ⟨_, le_rfl, ⟨rfl, rfl, holds.withHeap (holds.heap.addList hvs)⟩, rfl, new⟩
  addInstance := by
    rintro ρ m n ⟨rfl, rfl, holds⟩ a b rfl - - -
    have new : ¬L.object (.instance n.heap.instances.size) := holds.fresh (Nat.lt_irrefl _)
    exact ⟨_, le_rfl, ⟨rfl, rfl, holds.withHeap (holds.heap.addInstance a)⟩, rfl, new⟩
  deeper := by
    rintro ρ m n ⟨rfl, rfl, holds⟩
    exact ⟨rfl, rfl, holds.onVm (holds.vm.atDepth rfl)⟩
  shallower := by
    rintro ρ m n ⟨rfl, rfl, holds⟩
    exact ⟨rfl, rfl, holds.onVm (holds.vm.atDepth rfl)⟩
  fault_depth := by
    rintro f ρ m n ⟨rfl, rfl, -⟩
    rfl
  fault_shallower := by
    rintro f ρ m n ⟨rfl, rfl, holds⟩
    exact ⟨rfl, rfl, holds.onVm (holds.vm.atDepth rfl)⟩
  miscount := .inl ⟨id, id⟩
  write := by
    rintro ρ m n ⟨rfl, rfl, holds⟩ text
    exact ⟨rfl, rfl, holds.write .out text⟩
  report := by
    rintro ρ m n ⟨rfl, rfl, holds⟩ r
    exact ⟨rfl, rfl, holds.write .err r.text⟩
  load := by
    rintro ρ m n ⟨rfl, rfl, holds⟩ name
    exact ⟨rfl, ⟨rfl, rfl, holds⟩, fun _ _ _ _ _ _ => trivial⟩
  defineClass := fun callbacks₁ callbacks₂ ρ moduleName decl _ =>
    defineClass_sim callbacks₁ callbacks₂ ρ moduleName decl
  callForeign := by
    rintro e₁ e₂ - ρ m n ⟨rfl, rfl, holds⟩ v w vs ws signature f g hv hvs hf hg
    obtain rfl := hv.eq
    obtain rfl := hvs.eq
    cases hf.symm.trans hg
    exact holds.called e₁ e₂ f hv hvs
  allocate := by
    rintro e₁ e₂ - ρ m n ⟨rfl, rfl, holds⟩ a b c d vs ws f g rfl hvs hc hd hf hg
    obtain rfl := hvs.eq
    cases hc.symm.trans hd
    cases hf.symm.trans hg
    exact holds.called e₁ e₂ f (.classObject rfl) hvs
  allocated := .inl fun _ _ _ _ => trivial
  raise := fun holds _ _ => holds
  exhaust := fun holds => holds
  slots := by
    rintro ρ m n ⟨rfl, rfl, holds⟩
    exact holds.vm.slots
  ensureSlots := by
    rintro ρ m n ⟨rfl, rfl, holds⟩ count
    exact ⟨rfl, rfl, holds.onVm (holds.vm.ensureSlots count)⟩
  setSlot := by
    rintro ρ m n ⟨rfl, rfl, holds⟩ slot v w hv
    obtain rfl := hv.eq
    exact ⟨rfl, rfl, holds.setSlot slot hv⟩
  rewind := by
    rintro ρ m n ⟨rfl, rfl, holds⟩
    exact ⟨rfl, rfl, holds.onVm (holds.vm.atDepth rfl)⟩
  fault_report := by
    rintro f ρ m n ⟨rfl, rfl, holds⟩ r
    exact ⟨rfl, rfl, holds.write .err r.text⟩
  fault_pending := by
    rintro f ρ m n ⟨rfl, rfl, -⟩
    rfl
  settle := by
    rintro ρ m n ⟨rfl, rfl, holds⟩
    exact ⟨rfl, rfl, holds.onHost rfl rfl⟩
  fault_settle := by
    rintro f ρ m n ⟨rfl, rfl, holds⟩
    exact ⟨rfl, rfl, holds.onHost rfl rfl⟩

end Lost
end ScriptHost
