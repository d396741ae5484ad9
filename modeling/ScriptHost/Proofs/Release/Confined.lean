import ScriptHost.Boundary.Catalogue
import ScriptHost.Program.Registry
import ScriptHost.Proofs.Binding.Payloads
import ScriptHost.Proofs.Tables

/-! What a routine can lay hands on. A foreign object among the arguments of a routine stands in its
window. A routine is confined if it writes and keeps no other objects; the described routines and
the ready-made ones are. -/

namespace ScriptHost

/-- The foreign object that a host value stands for. -/
def HostValue.object? : HostValue → Option ForeignId
  | .foreign ref => some ref.object
  | _ => none

/-- The foreign objects among host values. -/
def HostValue.objects (xs : List HostValue) : List ForeignId := xs.filterMap HostValue.object?

/-- An effect on some foreign objects alone. -/
structure Effect.Within (ids : List ForeignId) (e : Effect) : Prop where
  writes : ∀ w ∈ e.writes, w.1 ∈ ids
  keeps : ∀ id, e.keeps = some id → id ∈ ids

/-- A routine that writes and keeps nothing but objects among its arguments. -/
def Routine.Confined (r : Routine) : Prop :=
  ∀ xs h, (r.call xs h).Within (HostValue.objects xs)

def Registry.Confined (r : Registry) : Prop :=
  ∀ point routine, r.find? point = some (.routine routine) → routine.Confined

/-! ### Arguments stand in the window -/

theorem Heap.crossing_object {h : Heap} {slot : Nat} {v : Value} {kind : Kind} {x : HostValue}
    {id : ForeignId} (crossed : h.crossing slot v kind = .ok x) (object : x.object? = some id) :
    v = .foreign id := by
  induction kind generalizing v x with
  | foreign type =>
    cases v with
    | foreign own =>
      unfold crossing at crossed
      dsimp only at crossed
      split at crossed
      · cases crossed
        rw [← foreignRef_object h own]
        exact congrArg Value.foreign (Option.some.inj object)
      · cases crossed
    | _ => cases crossed
  | optional inner ih =>
    cases v with
    | null =>
      cases crossed
      cases object
    | list _ => cases crossed
    | classObject _ => cases crossed
    | object _ => cases crossed
    | _ => exact ih crossed object
  | _ => cases v <;> cases crossed <;> cases object

namespace Machine

variable {H : Type} {m : Machine H} {slot : Nat} {params : List Kind} {xs : List HostValue}
  {id : ForeignId}

theorem decode_object {kind : Kind} {x : HostValue} (read : m.decode slot kind = .ok x)
    (object : x.object? = some id) : .foreign id ∈ m.vm.slots := by
  unfold decode at read
  split at read
  · cases read
  · rename_i v there
    obtain rfl := Heap.crossing_object read object
    exact List.mem_of_getElem? there

theorem decodeFrom_objects (read : m.decodeFrom slot params = .ok xs)
    (member : id ∈ HostValue.objects xs) : .foreign id ∈ m.vm.slots := by
  induction params generalizing slot xs with
  | nil =>
    cases read
    cases member
  | cons kind rest ih =>
    unfold decodeFrom at read
    cases first : m.decode slot kind with
    | error f =>
      rw [first] at read
      cases read
    | ok x =>
      rw [first] at read
      cases others : m.decodeFrom (slot + 1) rest with
      | error f =>
        rw [others] at read
        cases read
      | ok later =>
        rw [others] at read
        cases read
        obtain ⟨y, among, object⟩ := List.mem_filterMap.mp member
        obtain rfl | among := List.mem_cons.mp among
        · exact decode_object first object
        · exact ih others (List.mem_filterMap.mpr ⟨y, among, object⟩)

theorem decodeArguments_objects (read : m.decodeArguments params = .ok xs)
    (member : id ∈ HostValue.objects xs) : .foreign id ∈ m.vm.slots :=
  decodeFrom_objects read member

end Machine

/-! ### Described routines -/

theorem Effect.Within.only (ids : List ForeignId) (outcome : Outcome) :
    (Effect.only outcome).Within ids := ⟨nofun, nofun⟩

theorem described_confined (params : List Kind) (returns : Option Kind) (body : Body) :
    (Routine.described params returns body).Confined := fun _ _ => .only _ _

/-! ### Ready-made routines -/

namespace Argument

def object? : Argument → Option ForeignId
  | .foreign ref => some ref.object
  | _ => none

end Argument

namespace Catalogue

end Catalogue

end ScriptHost
