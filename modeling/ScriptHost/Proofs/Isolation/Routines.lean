import ScriptHost.Proofs.Isolation.Machines

/-! Host functions of two processes. A routine is uniform if it has no state of its own: what it
does depends on its arguments and on what the objects among them carry, whatever places they have.
Run on alike windows a uniform routine does alike things, and so does the maker of a class. -/

namespace ScriptHost

variable {R : ForeignId → ForeignId → Prop} {r s : Registry} {ρ σ ρ₀ : Renaming}
  {h k start : Heap} {v w : Value}

/-! ### Values of the host -/

/-- Host values that differ by the places of objects alone. -/
inductive HostValue.Alike (R : ForeignId → ForeignId → Prop) : HostValue → HostValue → Prop
  | null : Alike R .null .null
  | bool (b : Bool) : Alike R (.bool b) (.bool b)
  | number (x : Float) : Alike R (.number x) (.number x)
  | text (s : String) : Alike R (.text s) (.text s)
  | foreign {a b : ForeignId} (className : String) (hostType : Option HostType) : R a b →
    Alike R (.foreign ⟨a, className, hostType⟩) (.foreign ⟨b, className, hostType⟩)

namespace HostValue

variable {x y : HostValue}

theorem Alike.typeName (h : x.Alike R y) : x.typeName = y.typeName := by
  cases h <;> rfl

theorem Alike.accepts (h : x.Alike R y) (kind : Kind) : kind.accepts x = kind.accepts y := by
  induction kind with
  | optional inner ih =>
    cases h with
    | null => rfl
    | _ => exact ih
  | _ => cases h <;> rfl

/-- What goes back to a script is no object, so that both processes put the same into a slot. -/
theorem Alike.toValue (h : x.Alike R y) (slot : Nat) :
    ExceptRel (Value.Alike ρ) (x.toValue slot) (y.toValue slot) := by
  cases h with
  | null => exact .ok .null
  | bool b => exact .ok (.bool b)
  | number x => exact .ok (.number x)
  | text s => exact .ok (.string s)
  | foreign _ _ _ => exact .error _

end HostValue

/-! ### Arguments -/

theorem Heap.Alike.crossing (hk : h.Alike r s ρ k) (slot : Nat) (hv : v.Alike ρ w) (kind : Kind) :
    ExceptRel (HostValue.Alike ρ.foreigns) (h.crossing slot v kind) (k.crossing slot w kind) := by
  induction kind with
  | optional inner ih =>
    cases hv with
    | null => exact .ok .null
    | list _ => exact .error _
    | classObject _ => exact .error _
    | object _ => exact .error _
    | _ => exact ih
  | foreign type =>
    cases hv with
    | @foreign a b ab =>
      obtain ⟨className, hostType, left, right⟩ := hk.foreignRef ab
      unfold Heap.crossing
      dsimp only
      rw [left, right]
      dsimp only
      split
      · exact .ok (.foreign className hostType ab)
      · exact .error _
    | _ => exact .error _
  | bool =>
    cases hv with
    | bool b => exact .ok (.bool b)
    | _ => exact .error _
  | number type =>
    cases hv with
    | number x => exact .ok (.number x)
    | _ => exact .error _
  | string =>
    cases hv with
    | string t => exact .ok (.text t)
    | _ => exact .error _
  | any =>
    cases hv with
    | null => exact .ok .null
    | bool b => exact .ok (.bool b)
    | number x => exact .ok (.number x)
    | string t => exact .ok (.text t)
    | _ => exact .error _

namespace Machine

variable {H H' : Type} {m : Machine H} {n : Machine H'}

theorem decode_alike (hk : m.heap.Alike r s ρ n.heap)
    (slots : Value.AllAlike ρ m.vm.slots n.vm.slots)
    (slot : Nat) (kind : Kind) :
    ExceptRel (HostValue.Alike ρ.foreigns) (m.decode slot kind) (n.decode slot kind) := by
  unfold decode Vm.slot?
  obtain ⟨hm, hn⟩ | ⟨v, w, hm, hn, hvw⟩ := optionRel_cases (forall₂_getElem? slots slot)
  · rw [hm, hn]
    exact .error _
  · rw [hm, hn]
    exact hk.crossing slot hvw kind

theorem decodeFrom_alike (hk : m.heap.Alike r s ρ n.heap)
    (slots : Value.AllAlike ρ m.vm.slots n.vm.slots) (slot : Nat) (params : List Kind) :
    ExceptRel (List.Forall₂ (HostValue.Alike ρ.foreigns)) (m.decodeFrom slot params)
      (n.decodeFrom slot params) := by
  induction params generalizing slot with
  | nil => exact .ok .nil
  | cons kind rest ih =>
    have first := decode_alike hk slots slot kind
    have later := ih (slot + 1)
    unfold decodeFrom
    revert first later
    generalize m.decode slot kind = a, n.decode slot kind = b,
      m.decodeFrom (slot + 1) rest = as, n.decodeFrom (slot + 1) rest = bs
    rintro (hab | f) later
    · obtain hasbs | f := later
      · exact .ok (.cons hab hasbs)
      · exact .error f
    · exact .error f

/-- Only the sort of the receiver says where the arguments start. -/
theorem firstArgument_alike (slots : Value.AllAlike ρ m.vm.slots n.vm.slots) :
    m.firstArgument = n.firstArgument := by
  unfold firstArgument Vm.slotCount Vm.slotType Vm.slot?
  rw [slots.length_eq]
  obtain ⟨hm, hn⟩ | ⟨v, w, hm, hn, hvw⟩ := optionRel_cases (forall₂_getElem? slots 0)
  · rw [hm, hn]
  · rw [hm, hn]
    cases hvw <;> rfl

theorem decodeArguments_alike (hk : m.heap.Alike r s ρ n.heap)
    (slots : Value.AllAlike ρ m.vm.slots n.vm.slots) (params : List Kind) :
    ExceptRel (List.Forall₂ (HostValue.Alike ρ.foreigns)) (m.decodeArguments params)
      (n.decodeArguments params) := by
  unfold decodeArguments
  rw [firstArgument_alike slots]
  exact decodeFrom_alike hk slots _ params

end Machine

/-! ### Effects -/

inductive Outcome.Alike (R : ForeignId → ForeignId → Prop) : Outcome → Outcome → Prop
  | value {x y : Option HostValue} : Option.Rel (HostValue.Alike R) x y →
    Alike R (.value x) (.value y)
  | fault (f : BoundaryFault) : Alike R (.fault f) (.fault f)
  | panic (message : String) : Alike R (.panic message) (.panic message)

/-- Effects that differ by the places of objects alone. What a routine keeps past its call no script
can see. -/
structure Effect.Alike (R : ForeignId → ForeignId → Prop) (x y : Effect) : Prop where
  outcome : x.outcome.Alike R y.outcome
  writes : List.Forall₂ (fun a b => R a.1 b.1 ∧ a.2 = b.2) x.writes y.writes

/-- A routine without state of its own. -/
def Routine.Uniform (r : Routine) : Prop :=
  ∀ (R : ForeignId → ForeignId → Prop) (h k : Heap) (xs ys : List HostValue),
    (∀ {a b c d}, R a b → R c d → (a = c ↔ b = d)) →
    (∀ {a b}, R a b → (h.foreign? a).map (·.payload) = (k.foreign? b).map (·.payload)) →
    List.Forall₂ (HostValue.Alike R) xs ys → (r.call xs h).Alike R (r.call ys k)

/-- A routine described by what it does has no state of its own, unless it is to return an object.
-/
theorem described_uniform (params : List Kind) (returns : Option Kind) {body : Body}
    (plain : ∀ ref, body ≠ .constant (.foreign ref)) :
    (Routine.described params returns body).Uniform := by
  intro R h k xs ys one payloads hxy
  refine ⟨?_, .nil⟩
  cases body with
  | constant v =>
    refine .value (.some ?_)
    cases v with
    | null => exact .null
    | bool b => exact .bool b
    | number x => exact .number x
    | text s => exact .text s
    | foreign ref => exact absurd rfl (plain ref)
  | argument i => exact .value (forall₂_getElem? hxy i)
  | types =>
    have same : xs.map (·.typeName) = ys.map (·.typeName) := by
      induction hxy with
      | nil => rfl
      | cons first _ ih => rw [List.map_cons, List.map_cons, first.typeName, ih]
    change Outcome.Alike R (.value (some (.text (String.intercalate "," _)))) _
    rw [same]
    exact .value (.some (.text _))
  | nothing => exact .value .none
  | panic message => exact .panic message
  | fault f => exact .fault f

def Registry.Uniform (r : Registry) : Prop :=
  ∀ point routine, r.find? point = some (.routine routine) → routine.Uniform

theorem Heap.Alike.payload (hk : h.Alike r s ρ k) {a b : ForeignId} (ab : ρ.foreigns a b) :
    (h.foreign? a).map (·.payload) = (k.foreign? b).map (·.payload) := by
  obtain ⟨o, p, ho, hp, hop⟩ := hk.foreigns.there ab
  unfold Heap.foreign?
  rw [ho, hp]
  exact congrArg some hop.payload

theorem Heap.Alike.setPayloads (hk : h.Alike r s ρ k) (grown : Heap.Grown ρ₀ start ρ h)
    {xs ys : List (ForeignId × Payload)}
    (writes : List.Forall₂ (fun a b => ρ.foreigns a.1 b.1 ∧ a.2 = b.2) xs ys) :
    (h.setPayloads xs).Alike r s ρ (k.setPayloads ys) ∧
      Heap.Grown ρ₀ start ρ (h.setPayloads xs) := by
  induction writes generalizing h k with
  | nil => exact ⟨hk, grown⟩
  | @cons x y _ _ first _ ih =>
    obtain ⟨ab, payload⟩ := first
    have written := hk.setPayload ab x.2
    rw [show k.setPayload y.1 x.2 = k.setPayload y.1 y.2 by rw [payload]] at written
    exact ih written (grown.setPayload ab x.2)

end ScriptHost
