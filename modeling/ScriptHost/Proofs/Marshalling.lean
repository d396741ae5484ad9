import ScriptHost.Proofs.Attribution.Calls

/-! Values in slots. What a host value becomes in a slot is read back as itself by the kinds that
accept it, and is a mismatch for all others; what a slot is read as is accepted by the kind, and
put back it is what was there. The three definitions behind this, of what a kind accepts, of what
is read and of what is written, are compared by induction on the kind. -/

namespace ScriptHost

/-- The kind under all that also take null. -/
def Kind.inmost : Kind → Kind
  | .optional inner => inner.inmost
  | kind => kind

/-- A value that goes both ways: all but foreign objects. -/
def HostValue.isPlain : HostValue → Bool
  | foreign _ => false
  | _ => true

/-! ### Reading -/

namespace Heap

variable {h : Heap} {slot : Nat} {kind inner : Kind} {v : Value} {w : HostValue}

/-- A value as the host gets to see it under a kind. Null is taken by a kind that says so; lists,
classes and objects of a script never cross; a foreign object crosses only as its own host type. -/
inductive Crosses (h : Heap) : Value → Kind → HostValue → Prop
  | null (inner : Kind) : Crosses h .null (.optional inner) .null
  | anyNull : Crosses h .null .any .null
  | bool (b : Bool) : Crosses h (.bool b) .bool (.bool b)
  | anyBool (b : Bool) : Crosses h (.bool b) .any (.bool b)
  | number (x : Float) (type : NumberType) : Crosses h (.number x) (.number type) (.number x)
  | anyNumber (x : Float) : Crosses h (.number x) .any (.number x)
  | text (s : String) : Crosses h (.string s) .string (.text s)
  | anyText (s : String) : Crosses h (.string s) .any (.text s)
  | foreign {id : ForeignId} {type : HostType} : (h.foreignRef id).hostType = some type →
    Crosses h (.foreign id) (.foreign type) (.foreign (h.foreignRef id))
  | optional {v : Value} {inner : Kind} {w : HostValue} : v ≠ .null → Crosses h v inner w →
    Crosses h v (.optional inner) w

/-- What is there is read as the kind inside. -/
theorem crossing_optional (there : v ≠ .null) :
    h.crossing slot v (.optional inner) = h.crossing slot v inner := by
  cases v with
  | null => exact absurd rfl there
  | list _ | classObject _ | object _ => cases inner <;> rfl
  | _ => rfl

theorem crossing_crosses (crossed : h.crossing slot v kind = .ok w) : h.Crosses v kind w := by
  induction kind with
  | optional inner ih =>
    by_cases there : v = .null
    · subst there
      cases crossed
      exact .null inner
    · rw [crossing_optional there] at crossed
      exact .optional there (ih crossed)
  | foreign type =>
    cases v with
    | foreign id =>
      unfold crossing at crossed
      dsimp only at crossed
      split at crossed
      · cases crossed
        exact .foreign ‹_›
      · cases crossed
    | _ => cases crossed
  | bool => cases v <;> cases crossed; exact .bool _
  | number type => cases v <;> cases crossed; exact .number _ type
  | string => cases v <;> cases crossed; exact .text _
  | any =>
    cases v with
    | null => cases crossed; exact .anyNull
    | bool b => cases crossed; exact .anyBool b
    | number x => cases crossed; exact .anyNumber x
    | string s => cases crossed; exact .anyText s
    | _ => cases crossed

namespace Crosses

theorem crossing (crosses : h.Crosses v kind w) (slot : Nat) : h.crossing slot v kind = .ok w := by
  induction crosses with
  | foreign own => exact if_pos own
  | optional there _ ih => exact (crossing_optional there).trans ih
  | _ => rfl

theorem ne_null (crosses : h.Crosses v kind w) (there : v ≠ .null) : w ≠ .null := by
  induction crosses with
  | null => exact absurd rfl there
  | anyNull => exact absurd rfl there
  | optional _ _ ih => exact ih there
  | _ => exact nofun

theorem accepted (crosses : h.Crosses v kind w) : kind.accepts w := by
  induction crosses with
  | foreign own => exact beq_iff_eq.mpr own
  | @optional v inner w there inside ih =>
    have given : w ≠ .null := inside.ne_null there
    cases w with
    | null => exact absurd rfl given
    | _ => exact ih
  | _ => rfl

/-- A value that goes both ways was there as it is. -/
theorem toValue (crosses : h.Crosses v kind w) (plain : w.isPlain) (slot : Nat) :
    w.toValue slot = .ok v := by
  induction crosses with
  | foreign => cases plain
  | optional _ _ ih => exact ih plain
  | _ => rfl

/-- A foreign object is seen as itself, by a kind that asks for the host type of its class. -/
theorem foreign_inv {id : ForeignId} (crosses : h.Crosses (.foreign id) kind w) :
    ∃ type, kind.inmost = .foreign type ∧ (h.foreignRef id).hostType = some type ∧
      w = .foreign (h.foreignRef id) := by
  generalize object : Value.foreign id = v at crosses
  induction crosses with
  | @foreign _ type own =>
    cases object
    exact ⟨type, rfl, own, rfl⟩
  | optional _ _ ih => exact ih object
  | _ => cases object

/-- What a script has to itself never crosses. -/
theorem visible (crosses : h.Crosses v kind w) :
    (∀ id, v ≠ .list id) ∧ (∀ id, v ≠ .classObject id) ∧ ∀ id, v ≠ .object id := by
  induction crosses with
  | optional _ _ ih => exact ih
  | _ => exact ⟨nofun, nofun, nofun⟩

end Crosses

theorem crossing_ok_iff : h.crossing slot v kind = .ok w ↔ h.Crosses v kind w :=
  ⟨crossing_crosses, fun crosses => crosses.crossing slot⟩

/-- A value that goes both ways is read back where it is accepted, and is a mismatch elsewhere. -/
theorem crossing_toValue (plain : w.isPlain) (written : w.toValue slot = .ok v) (kind : Kind) :
    h.crossing slot v kind =
      if kind.accepts w then .ok w
      else .error (.typeMismatch slot kind.inmost.text w.typeName) := by
  induction kind with
  | optional inner ih =>
    cases w with
    | null => cases written; rfl
    | foreign _ => cases plain
    | bool _ | number _ | text _ => cases written; exact ih
  | foreign type =>
    cases w with
    | foreign _ => cases plain
    | _ => cases written; rfl
  | _ =>
    cases w with
    | foreign _ => cases plain
    | _ => cases written; rfl

end Heap

/-! ### Writing -/

namespace Machine

variable {H : Type} {m n : Machine H} {slot : Nat} {v : Value} {w : HostValue} {kind : Kind}

/-- The second machine is the first with a value in one slot. A window that is too short is widened
with nulls; slot 0 is marked as written; nothing else is touched. -/
structure SlotSet (m : Machine H) (slot : Nat) (v : Value) (n : Machine H) : Prop where
  heap : n.heap = m.heap
  host : n.host = m.host
  vm : n.vm = { m.vm with
    slots := n.vm.slots, returnWritten := m.vm.returnWritten || slot == 0 }
  here : n.vm.slot? slot = some v
  others : ∀ i < m.vm.slotCount, i ≠ slot → n.vm.slot? i = m.vm.slot? i
  nulls : ∀ i < slot, m.vm.slotCount ≤ i → n.vm.slot? i = some .null
  count : n.vm.slotCount = max m.vm.slotCount (slot + 1)

theorem slotSet (m : Machine H) (slot : Nat) (v : Value) :
    m.SlotSet slot v (m.onVm (·.setSlot slot v)) where
  heap := rfl
  host := rfl
  vm := rfl
  here := Client.slot?_setSlot m.vm slot v
  others i below ne := by
    change ((m.vm.slots ++ _).set slot v)[i]? = m.vm.slots[i]?
    rw [List.getElem?_set_ne (Ne.symm ne), List.getElem?_append_left below]
  nulls i below past := by
    change ((m.vm.slots ++ _).set slot v)[i]? = some .null
    unfold Vm.slotCount at past
    rw [List.getElem?_set_ne (by omega), List.getElem?_append_right past,
      List.getElem?_replicate_of_lt (by omega)]
  count := by
    change ((m.vm.slots ++ _).set slot v).length = max m.vm.slots.length (slot + 1)
    rw [List.length_set, List.length_append, List.length_replicate]
    omega

/-- A slot set to what it holds leaves the window as it is. -/
theorem SlotSet.same (there : m.vm.slot? slot = some v) (set : m.SlotSet slot v n) :
    n.vm.slots = m.vm.slots := by
  have below : slot < m.vm.slotCount := (List.getElem?_eq_some_iff.mp there).1
  refine List.ext_getElem? fun i => ?_
  by_cases inside : i < m.vm.slotCount
  · by_cases here : i = slot
    · subst here
      exact set.here.trans there.symm
    · exact set.others i inside here
  · have count := set.count
    unfold Vm.slotCount at count inside below
    rw [List.getElem?_eq_none (by omega), List.getElem?_eq_none (by omega)]

theorem encode_plain (m : Machine H) (slot : Nat) (plain : w.isPlain) :
    ∃ v, w.toValue slot = .ok v ∧ m.encode slot w = .ok (m.onVm (·.setSlot slot v)) := by
  cases w with
  | foreign _ => cases plain
  | _ => exact ⟨_, rfl, rfl⟩

theorem decode_ok_iff : m.decode slot kind = .ok w ↔
    ∃ v, m.vm.slot? slot = some v ∧ m.heap.Crosses v kind w := by
  unfold decode
  cases m.vm.slot? slot with
  | none => exact ⟨nofun, fun ⟨_, there, _⟩ => nomatch there⟩
  | some v =>
    refine Heap.crossing_ok_iff.trans ⟨fun crosses => ⟨v, rfl, crosses⟩, ?_⟩
    rintro ⟨_, ⟨⟩, crosses⟩
    exact crosses

end Machine

/-- For every machine, slot and kind: a host value that is no foreign object is put into the slot,
which changes that slot alone, and is read back if the kind accepts it and is a mismatch otherwise.
What a slot is read as is accepted by the kind, and leaves the window as it is when it is put back.
Lists, classes, objects of scripts and slots past the window are never read, and a foreign object
only by a kind that asks for the host type that its class was bound with. -/
theorem slots_round_trip {H : Type} (m : Machine H) (slot : Nat) :
    (∀ w : HostValue, w.isPlain → ∃ v n, w.toValue slot = .ok v ∧ m.encode slot w = .ok n ∧
      m.SlotSet slot v n ∧ ∀ kind, n.decode slot kind =
        if kind.accepts w then .ok w
        else .error (.typeMismatch slot kind.inmost.text w.typeName)) ∧
    (∀ kind w, m.decode slot kind = .ok w → kind.accepts w ∧
      (w.isPlain → ∃ n, m.encode slot w = .ok n ∧ n.vm.slots = m.vm.slots)) ∧
    (∀ kind w, m.decode slot kind = .ok w →
      slot < m.vm.slotCount ∧ (∀ id, m.vm.slot? slot ≠ some (.list id)) ∧
      (∀ id, m.vm.slot? slot ≠ some (.classObject id)) ∧
      (∀ id, m.vm.slot? slot ≠ some (.object id)) ∧
      ∀ id, m.vm.slot? slot = some (.foreign id) → ∃ type c, kind.inmost = .foreign type ∧
        m.heap.foreignClass? id = some c ∧ c.binding.hostType = some type ∧
        w = .foreign ⟨id, c.name, some type⟩) := by
  refine ⟨fun w plain => ?_, fun kind w read => ?_, fun kind w read => ?_⟩
  · obtain ⟨v, written, encoded⟩ := m.encode_plain slot plain
    refine ⟨v, _, written, encoded, m.slotSet slot v, fun kind => ?_⟩
    rw [Machine.decode_setSlot]
    exact Heap.crossing_toValue plain written kind
  · obtain ⟨v, there, crosses⟩ := Machine.decode_ok_iff.mp read
    refine ⟨crosses.accepted, fun plain => ?_⟩
    have written := crosses.toValue plain slot
    have encoded : m.encode slot w = .ok (m.onVm (·.setSlot slot v)) := by
      unfold Machine.encode
      rw [written]
      rfl
    exact ⟨_, encoded, (m.slotSet slot v).same there⟩
  · obtain ⟨v, there, crosses⟩ := Machine.decode_ok_iff.mp read
    obtain ⟨list, classObject, object⟩ := crosses.visible
    rw [there]
    refine ⟨(List.getElem?_eq_some_iff.mp there).1, fun id same => list id (Option.some.inj same),
      fun id same => classObject id (Option.some.inj same),
      fun id same => object id (Option.some.inj same), ?_⟩
    rintro id ⟨⟩
    obtain ⟨type, asked, own, rfl⟩ := crosses.foreign_inv
    unfold Heap.foreignRef at own ⊢
    cases bound : m.heap.foreignClass? id with
    | none =>
      rw [bound] at own
      cases own
    | some c =>
      rw [bound] at own
      exact ⟨type, c, asked, rfl, own, congrArg (HostValue.foreign ⟨id, c.name, ·⟩) own⟩

end ScriptHost
