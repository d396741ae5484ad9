import ScriptHost.Proofs.Binding.Dispatch
import ScriptHost.Proofs.Binding.Sound

/-! The payloads that routines get. The boundary judges a foreign object by the host type that its
class was bound with; on a sound heap that is the type of its payload. So a routine may check the
payloads of its arguments once more, and never finds anything amiss. -/

namespace ScriptHost

/-- Whether an argument that stands for a foreign object carries a payload of the type asked for. -/
def Kind.holds (h : Heap) : Kind → HostValue → Bool
  | .foreign type, .foreign ref => (h.foreign? ref.object).any fun o => o.payload.type = type
  | .optional _, .null => true
  | .optional inner, value => inner.holds h value
  | _, .foreign _ => false
  | _, _ => true

/-- Whether there is an argument for each parameter, with a payload of the right type. -/
def holdsAll (h : Heap) : List Kind → List HostValue → Bool
  | [], [] => true
  | kind :: kinds, value :: values => kind.holds h value && holdsAll h kinds values
  | _, _ => false

/-- A routine that gives up if the payload of an argument is not of the type of its parameter. -/
def Routine.guarded (r : Routine) : Routine where
  params := r.params
  returns := r.returns
  call args h :=
    if holdsAll h r.params args then r.call args h
    else .only (.panic "a payload of another type")

variable {reg : Registry} {h : Heap} {H : Type} {m : Machine H}

namespace Heap

theorem foreignRef_object (h : Heap) (id : ForeignId) : (h.foreignRef id).object = id := by
  unfold foreignRef
  split <;> rfl

/-- The host type that the boundary sees is the type of the payload. -/
theorem Sound.payload_type (sound : h.Sound reg) (typed : reg.Typed) {id : ForeignId}
    {type : HostType} (bound : (h.foreignRef id).hostType = some type) :
    ∃ o, h.foreign? id = some o ∧ o.payload.type = type := by
  unfold foreignRef foreignClass? at bound
  cases ho : h.foreign? id with
  | none =>
    rw [ho] at bound
    cases bound
  | some o =>
    obtain ⟨c, maker, hc, foreign, ⟨f, binding, leads⟩, made⟩ := sound.objects ho
    rw [ho, Option.bind_some, hc] at bound
    dsimp only at bound
    rw [binding] at bound
    cases bound
    exact ⟨o, rfl, made typed⟩

theorem Sound.hostType_eq (sound : h.Sound reg) (typed : reg.Typed) {id : ForeignId}
    {o : ForeignObject} (ho : h.foreign? id = some o) :
    (h.foreignRef id).hostType = some o.payload.type := by
  obtain ⟨c, maker, hc, foreign, ⟨f, binding, leads⟩, made⟩ := sound.objects ho
  unfold foreignRef foreignClass?
  rw [ho, Option.bind_some, hc]
  dsimp only
  rw [binding, made typed]

theorem Sound.crossing_holds (sound : h.Sound reg) (typed : reg.Typed) {slot : Nat} {v : Value}
    {kind : Kind} {value : HostValue} (crossed : h.crossing slot v kind = .ok value) :
    kind.holds h value := by
  induction kind generalizing v value with
  | bool =>
    cases v <;> cases crossed
    rfl
  | number type =>
    cases v <;> cases crossed
    rfl
  | string =>
    cases v <;> cases crossed
    rfl
  | any => cases v <;> cases crossed <;> rfl
  | foreign type =>
    cases v with
    | foreign id =>
      unfold crossing at crossed
      dsimp only at crossed
      split at crossed
      · rename_i bound
        cases crossed
        obtain ⟨o, ho, type⟩ := sound.payload_type typed bound
        unfold Kind.holds
        rw [foreignRef_object, ho]
        simpa using type
      · cases crossed
    | _ => cases crossed
  | optional inner ih =>
    have inside {value : HostValue} (holds : inner.holds h value) :
        (Kind.optional inner).holds h value := by
      cases value <;> first | rfl | exact holds
    cases v with
    | null =>
      cases crossed
      rfl
    | list id => cases crossed
    | classObject id => cases crossed
    | object id => cases crossed
    | bool b => exact inside (ih crossed)
    | number x => exact inside (ih crossed)
    | string s => exact inside (ih crossed)
    | foreign id => exact inside (ih crossed)

end Heap

namespace Machine

theorem decodeFrom_holds (sound : m.heap.Sound reg) (typed : reg.Typed) {slot : Nat}
    {params : List Kind} {args : List HostValue} (read : m.decodeFrom slot params = .ok args) :
    holdsAll m.heap params args := by
  induction params generalizing slot args with
  | nil =>
    cases read
    rfl
  | cons kind rest ih =>
    unfold decodeFrom at read
    cases first : m.decode slot kind with
    | error f =>
      rw [first] at read
      cases read
    | ok value =>
      rw [first] at read
      cases others : m.decodeFrom (slot + 1) rest with
      | error f =>
        rw [others] at read
        cases read
      | ok values =>
        rw [others] at read
        cases read
        have crossed : kind.holds m.heap value := by
          unfold decode at first
          split at first
          · cases first
          · exact sound.crossing_holds typed first
        unfold holdsAll
        rw [crossed, ih others]
        rfl

theorem decodeArguments_holds (sound : m.heap.Sound reg) (typed : reg.Typed)
    {params : List Kind} {args : List HostValue} (read : m.decodeArguments params = .ok args) :
    holdsAll m.heap params args := decodeFrom_holds sound typed read

end Machine

/-- On a sound heap the check of the payloads never fails. -/
theorem Routine.guarded_call (sound : m.heap.Sound reg) (typed : reg.Typed) (r : Routine)
    {args : List HostValue} (read : m.decodeArguments r.params = .ok args) :
    r.guarded.call args m.heap = r.call args m.heap :=
  if_pos (m.decodeArguments_holds sound typed read)

end ScriptHost
