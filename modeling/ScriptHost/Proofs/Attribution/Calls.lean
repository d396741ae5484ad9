import ScriptHost.Proofs.Simulation.Facade

/-! A method called on a value, as the embedding program asks for it. The value and the arguments
are put into the window, the method runs on what it finds there, and what it returns is read off
slot 0. -/

namespace ScriptHost

/-- A host value that can be put into any slot, as a value of scripts. -/
def HostValue.Puts (p : HostValue) (v : Value) : Prop := ∀ slot, p.toValue slot = .ok v

/-- A machine with some values in its first slots. -/
def Vm.holding (vm : Vm) (vs : List Value) : Vm :=
  { vm with slots := vs ++ vm.slots.drop vs.length, returnWritten := true }

/-- The answer to a call, from what can be read of its value. -/
def answerOf : Except BoundaryFault HostValue → Except BoundaryFault (Option HostValue)
  | .error f => .error f
  | .ok .null => .ok none
  | .ok value => .ok (some value)

/-- What the embedding program gets for the value of a call. -/
def Heap.answer (h : Heap) (v : Value) : Except BoundaryFault (Option HostValue) :=
  answerOf (h.crossing 0 v .any)

theorem Machine.decode_setSlot {H : Type} (m : Machine H) (slot : Nat) (v : Value) (kind : Kind) :
    (m.onVm (·.setSlot slot v)).decode slot kind = m.heap.crossing slot v kind := by
  unfold Machine.decode Machine.onVm
  dsimp only
  rw [Client.slot?_setSlot]

namespace Engine

variable {H : Type} {engine : Engine H} {m m' : Machine H}

/-- What a call comes to: its value is in slot 0, or its fault was reported. -/
theorem call_cases {signature : String} {r : Except InterpretError Unit}
    (ran : engine.call signature m = .ok r m') :
    (∃ v n, (engine.sent signature).run m = .ok (.ok v) n ∧ r = .ok () ∧
      m' = n.onVm (·.setSlot 0 v)) ∨
    ∃ e n, (engine.sent signature).run m = .ok (.error e) n ∧ r = .error (.runtime e) ∧
      m' = engine.reported n e.reports := by
  rw [call_run] at ran
  obtain ⟨e | v, n, sent, ran⟩ := Live.bind_inv ran
  · cases (reporting_run engine e.reports _ n).symm.trans ran
    exact .inr ⟨e, n, sent, rfl, rfl⟩
  · cases ran
    exact .inl ⟨v, n, sent, rfl, rfl⟩

/-- A call that came to something has its value in slot 0. -/
theorem call_ok {receiver : Value} {args : List Value} {signature : String}
    (slots : m.vm.slots = receiver :: args) (enough : signatureArity signature ≤ args.length)
    (ran : engine.call signature m = .ok (.ok ()) m') :
    ∃ v n, (engine.send receiver signature (args.take (signatureArity signature))).run m =
      .ok (.ok v) n ∧ m' = n.onVm (·.setSlot 0 v) := by
  obtain ⟨v, n, sent, -, left⟩ | ⟨_, _, -, same, -⟩ := call_cases ran
  · rw [sent_run, slots] at sent
    dsimp only at sent
    rw [if_pos enough] at sent
    exact ⟨v, n, sent, left⟩
  · cases same

/-- A call on what was put into the window: exactly what the signature asks for is taken. -/
theorem call_ok_holding {receiver : Value} {args : List Value} {signature : String}
    (enough : signatureArity signature ≤ args.length)
    (ran : engine.call signature (m.onVm (·.holding (receiver :: args))) = .ok (.ok ()) m') :
    ∃ v n, (engine.send receiver signature (args.take (signatureArity signature))).run
      (m.onVm (·.holding (receiver :: args))) = .ok (.ok v) n ∧ m' = n.onVm (·.setSlot 0 v) := by
  have further : signatureArity signature ≤
      (args ++ m.vm.slots.drop (args.length + 1)).length := by
    rw [List.length_append]
    omega
  obtain ⟨v, n, sent, left⟩ := call_ok rfl further ran
  rw [List.take_append_of_le_length enough] at sent
  exact ⟨v, n, sent, left⟩

/-- Nothing is compiled for a call. -/
theorem call_not_compile {signature : String} {r : Except InterpretError Unit}
    (ran : engine.call signature m = .ok r m') (errors : List SyntaxError) :
    r ≠ .error (.compile errors) := by
  rintro rfl
  obtain ⟨_, _, -, same, -⟩ | ⟨_, _, -, same, -⟩ := call_cases ran
  · cases same
  · cases same

end Engine

/-! ### The window of a call -/

theorem Vm.setSlot_first (vm : Vm) (v : Value) {w : Value} {back : List Value}
    (slots : vm.slots = w :: back) :
    vm.setSlot 0 v = { vm with slots := v :: back, returnWritten := true } := by
  unfold setSlot ensureSlots
  simp [slots]

/-- A slot written that is there, beyond the first. -/
theorem Vm.setSlot_there (vm : Vm) (v : Value) {front back : List Value} {w : Value}
    (slots : vm.slots = front ++ w :: back) (beyond : 0 < front.length) :
    vm.setSlot front.length v = { vm with slots := front ++ v :: back } := by
  unfold setSlot ensureSlots
  simp [slots, Nat.ne_of_gt beyond]

/-- The slots of a machine, at least so many, from some slot on: those that were there. -/
theorem Vm.ensureSlots_drop (vm : Vm) (count : Nat) :
    (vm.ensureSlots count).slots.drop count = vm.slots.drop count := by
  unfold ensureSlots
  rw [List.drop_append, List.drop_replicate]
  have none : count - vm.slots.length - (count - vm.slots.length) = 0 := Nat.sub_self _
  rw [none, List.replicate_zero, List.append_nil]

theorem Vm.ensureSlots_length (vm : Vm) (count : Nat) :
    count ≤ (vm.ensureSlots count).slots.length := by
  unfold ensureSlots
  rw [List.length_append, List.length_replicate]
  omega

namespace Client

variable {params : List HostValue} {args : List Value}

theorem encodeFrom_cons (slot : Nat) (value : HostValue) (rest : List HostValue)
    (m : Machine Surroundings) :
    encodeFrom slot (value :: rest) m =
      (match m.encode slot value with
      | .error f => return .error f
      | .ok m => do
        set m
        encodeFrom (slot + 1) rest : Client (Except BoundaryFault Unit)) m :=
  rfl

theorem encodeFrom_run (puts : List.Forall₂ HostValue.Puts params args)
    {m : Machine Surroundings} {front back : List Value} (slots : m.vm.slots = front ++ back)
    (beyond : 0 < front.length) (room : params.length ≤ back.length) :
    encodeFrom front.length params m = .ok (.ok ())
      (m.onVm fun vm => { vm with slots := front ++ (args ++ back.drop args.length) }) := by
  induction puts generalizing m front back with
  | nil =>
    rw [List.nil_append, List.length_nil, List.drop_zero, ← slots]
    rfl
  | @cons p v rest vs put _ ih =>
    cases back with
    | nil => cases room
    | cons w back =>
      rw [encodeFrom_cons]
      unfold Machine.encode
      rw [put]
      have entered : (m.vm.setSlot front.length v).slots = front ++ [v] ++ back := by
        rw [m.vm.setSlot_there v slots beyond, List.append_cons]
      have next := ih (m := m.onVm (·.setSlot front.length v)) entered (by simp)
        (Nat.le_of_succ_le_succ room)
      rw [List.length_append] at next
      refine Eq.trans next ?_
      unfold Machine.onVm
      dsimp only
      rw [m.vm.setSlot_there v slots beyond]
      simp

/-- A call that reaches the machine: its value and its arguments are in the window. -/
theorem call_run (engine : Engine Surroundings) (m : Machine Surroundings) (receiver : Value)
    {signature : String}
    (enough : signatureArity signature ≤ params.length)
    (puts : List.Forall₂ HostValue.Puts params args) :
    call engine receiver signature params m =
      match settled (engine.call signature) (m.onVm (·.holding (receiver :: args))) with
      | .ok (.error f) n => .ok (.error f) n
      | .ok (.ok ()) n => .ok (answerOf (n.decode 0 .any)) n
      | .error h n => .error h n := by
  rw [call_eq]
  rw [if_neg (Nat.not_lt.mpr enough)]
  have length := m.vm.ensureSlots_length (params.length + 1)
  cases slots : (m.vm.ensureSlots (params.length + 1)).slots with
  | nil =>
    rw [slots] at length
    cases length
  | cons w back =>
    have first := (m.vm.ensureSlots (params.length + 1)).setSlot_first receiver slots
    have room : params.length ≤ back.length := by
      rw [slots] at length
      exact Nat.le_of_succ_le_succ length
    have left : back.drop args.length = m.vm.slots.drop (args.length + 1) := by
      have rest := m.vm.ensureSlots_drop (params.length + 1)
      rw [slots, List.drop_succ_cons, puts.length_eq] at rest
      exact rest
    have window : (m.onVm fun vm => (vm.ensureSlots (params.length + 1)).setSlot 0 receiver).onVm
        (fun vm => { vm with slots := [receiver] ++ (args ++ back.drop args.length) }) =
        m.onVm (·.holding (receiver :: args)) := by
      unfold Machine.onVm
      dsimp only
      rw [first, left]
      rfl
    have entered : ((m.vm.ensureSlots (params.length + 1)).setSlot 0 receiver).slots =
        [receiver] ++ back := congrArg Vm.slots first
    have encoded := encodeFrom_run puts entered Nat.one_pos room
      (m := m.onVm fun vm => (vm.ensureSlots (params.length + 1)).setSlot 0 receiver)
    rw [window, List.length_singleton] at encoded
    change EStateM.bind (encodeFrom 1 params) _
      (m.onVm fun vm => (vm.ensureSlots (params.length + 1)).setSlot 0 receiver) = _
    rw [Live.bind_run encoded]
    change EStateM.bind (settled (engine.call signature)) _
      (m.onVm (·.holding (receiver :: args))) = _
    unfold EStateM.bind
    rcases settled (engine.call signature) (m.onVm (·.holding (receiver :: args))) with
      ⟨_ | _, n⟩ | ⟨h, n⟩ <;> rfl

end Client
end ScriptHost
