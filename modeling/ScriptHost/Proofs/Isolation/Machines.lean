import ScriptHost.Proofs.Isolation.Heaps
import ScriptHost.Proofs.Simulation.Laws

/-! Machines of two processes: their variables, windows and surroundings up to a renaming and to
entry points, with what each change of a machine keeps of it. -/

namespace ScriptHost

variable {r s : Registry} {ρ σ : Renaming}

theorem Method.Matches.alike {x y : Method} (h : x.Matches r s y) : x.Alike y := by
  cases h with
  | primitive p => exact .primitive p
  | foreign _ => exact .foreign _ _
  | script decl => exact .script decl
  | constructor decl => exact .constructor decl

theorem ClassObject.Matches.looksLike {c d : ClassObject} (h : c.Matches r s d) : c.LooksLike d :=
  ⟨h.name, h.moduleName, h.isForeign, h.binding.isSome⟩

/-! ### Virtual machines -/

/-- Virtual machines that differ by the places of objects alone. -/
structure Vm.Alike (ρ : Renaming) (x y : Vm) : Prop where
  core : ∀ c, ρ.classes (x.coreClass c) (y.coreClass c)
  modules : Table.Alike (Bindings.Alike ρ) x.modules y.modules
  slots : Value.AllAlike ρ x.slots y.slots
  returnWritten : x.returnWritten = y.returnWritten
  abort : x.abort = y.abort
  depth : x.depth = y.depth

namespace Vm

variable {x y : Vm} {v w : Value}

theorem Alike.mono (h : x.Alike ρ y) (le : ρ ≤ σ) : x.Alike σ y where
  core c := le.classes (h.core c)
  modules := h.modules.imp fun _ _ h => Bindings.Alike.mono h le
  slots := Value.AllAlike.mono h.slots le
  returnWritten := h.returnWritten
  abort := h.abort
  depth := h.depth

theorem Alike.binding? (h : x.Alike ρ y) (moduleName name : String) :
    Option.Rel (Value.Alike ρ) (x.binding? moduleName name) (y.binding? moduleName name) :=
  optionRel_bind (h.modules.get? moduleName) fun bound => Table.Alike.get? bound name

theorem Alike.define (h : x.Alike ρ y) (moduleName name : String) (hv : v.Alike ρ w) :
    (x.define moduleName name v).Alike ρ (y.define moduleName name w) :=
  ⟨h.core, h.modules.update moduleName fun _ _ bound => Table.Alike.set bound name hv,
    h.slots, h.returnWritten, h.abort, h.depth⟩

theorem Alike.coreBindings (h : x.Alike ρ y) :
    Bindings.Alike ρ x.coreBindings y.coreBindings := by
  unfold Vm.coreBindings
  rw [Bindings.Alike, Table.Alike, List.forall₂_map_left_iff, List.forall₂_map_right_iff,
    List.forall₂_same]
  exact fun c _ => ⟨rfl, .classObject (h.core c)⟩

theorem Alike.openModule (h : x.Alike ρ y) (name : String) :
    (x.openModule name).Alike ρ (y.openModule name) := by
  unfold Vm.openModule Vm.hasModule
  rw [h.modules.has name]
  split
  · exact h
  · exact ⟨h.core, h.modules.set name h.coreBindings, h.slots, h.returnWritten, h.abort, h.depth⟩

theorem Alike.ensureSlots (h : x.Alike ρ y) (count : Nat) :
    (x.ensureSlots count).Alike ρ (y.ensureSlots count) := by
  refine ⟨h.core, h.modules, ?_, h.returnWritten, h.abort, h.depth⟩
  unfold Vm.ensureSlots
  dsimp only
  rw [h.slots.length_eq]
  refine List.rel_append h.slots ?_
  generalize count - y.slots.length = missing
  induction missing with
  | zero => exact .nil
  | succ _ ih => exact .cons .null ih

theorem forall₂_set {α β : Type} {R : α → β → Prop} {as : List α} {bs : List β}
    (h : List.Forall₂ R as bs) (i : Nat) {a : α} {b : β} (hab : R a b) :
    List.Forall₂ R (as.set i a) (bs.set i b) := by
  induction h generalizing i with
  | nil => exact .nil
  | cons first rest ih =>
    cases i with
    | zero => exact .cons hab rest
    | succ i => exact .cons first (ih i)

theorem Alike.setSlot (h : x.Alike ρ y) (slot : Nat) (hv : v.Alike ρ w) :
    (x.setSlot slot v).Alike ρ (y.setSlot slot w) := by
  have wide := h.ensureSlots (slot + 1)
  refine ⟨h.core, h.modules, forall₂_set wide.slots slot hv, ?_, h.abort, h.depth⟩
  exact congrArg (· || slot == 0) h.returnWritten

theorem Alike.atDepth (h : x.Alike ρ y) {i j : Nat} (same : i = j) :
    Vm.Alike ρ { x with depth := i } { y with depth := j } :=
  ⟨h.core, h.modules, h.slots, h.returnWritten, h.abort, same⟩

theorem Alike.classOf (h : x.Alike ρ y) {heap heap' : Heap} (hk : heap.Alike r s ρ heap')
    (hv : v.Alike ρ w) : ρ.classes (x.classOf heap v) (y.classOf heap' w) := by
  cases hv with
  | null => exact h.core .null
  | bool _ => exact h.core .bool
  | number _ => exact h.core .num
  | string _ => exact h.core .string
  | list _ => exact h.core .list
  | classObject ab => exact ab
  | object ab =>
    obtain ⟨i, j, hi, hj, hij⟩ := hk.instances.there ab
    unfold Vm.classOf Heap.instance?
    dsimp only
    rw [hi, hj]
    exact hij.classId
  | foreign ab =>
    obtain ⟨o, p, ho, hp, hop⟩ := hk.foreigns.there ab
    unfold Vm.classOf Heap.foreign?
    dsimp only
    rw [ho, hp]
    exact hop.classId

end Vm

/-! ### Surroundings -/

/-- Surroundings with the tables `r` and `s` that differ by entry points alone. What a routine kept
is nobody's business but the embedding program's. -/
structure Surroundings.Alike (r s : Registry) (x y : Surroundings) : Prop where
  first : x.registry = r
  second : y.registry = s
  record : x.record.Matches r s y.record
  files : x.files = y.files
  log : x.log = y.log

namespace Surroundings

variable {x y : Surroundings}

theorem Alike.write (h : x.Alike r s y) (channel : Channel) (text : String) :
    (x.write channel text).Alike r s (y.write channel text) := by
  unfold Surroundings.write
  rw [h.record.broken]
  split
  · exact h
  · exact ⟨h.first, h.second, h.record, h.files, congrArg (⟨channel, text⟩ :: ·) h.log⟩

theorem Alike.setPending (h : x.Alike r s y) (f : Option BoundaryFault) :
    (x.setPending f).Alike r s (y.setPending f) :=
  ⟨h.first, h.second, ⟨h.record.methods, h.record.classes, h.record.modulesDir, rfl,
    h.record.broken⟩, h.files, h.log⟩

theorem Alike.load (h : x.Alike r s y) (name : String) : x.load name = y.load name := by
  unfold Surroundings.load
  rw [h.record.modulesDir, h.files]

theorem Alike.keep (h : x.Alike r s y) (a b : ForeignId) :
    (x.keep a).Alike r s (y.keep b) :=
  ⟨h.first, h.second, h.record, h.files, h.log⟩

end Surroundings

/-! ### Core classes -/

/-- The core classes of a machine are where it looks for them. -/
def Machine.HasCore {H : Type} (m : Machine H) : Prop :=
  ∀ c, m.heap.class? (m.vm.coreClass c) = some c.object

theorem Machine.HasCore.writesLists {H : Type} {m : Machine H} (core : m.HasCore) :
    m.WritesLists := by
  intro id
  unfold Machine.method?
  dsimp only
  rw [show m.classOf (.list id) = m.vm.coreClass .list from rfl, core .list]
  rfl

end ScriptHost
