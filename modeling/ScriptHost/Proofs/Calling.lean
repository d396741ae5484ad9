import ScriptHost.Proofs.Marshalling
import ScriptHost.Proofs.Tables
import ScriptHost.Proofs.Window.Unseen

/-! Methods called on values that the embedding program holds. What a call comes to depends on the
value, the signature, the parameters and what scripts can see of the machine, and on nothing else:
neither on what earlier calls left in the window, nor on the methods that they prepared. -/

namespace ScriptHost

variable {H : Type}

/-! ### Prepared methods -/

namespace Held

/-- A value on which methods of some signatures were called before, one after the other. -/
def used (value : Value) (history : List String) : Held := history.foldl after (fresh value)

/-- Each method is prepared for the signature that it is kept under. -/
def Fits (h : Held) : Prop :=
  ∀ signature k, h.prepared.get? signature = some k → k = .ofSignature signature

theorem fits_fresh (value : Value) : (fresh value).Fits := fun _ _ found => nomatch found

theorem Fits.after {h : Held} (fits : h.Fits) (signature : String) : (h.after signature).Fits := by
  intro s k found
  unfold Held.after at found
  by_cases prepared : h.prepared.has signature = true
  · rw [if_pos prepared] at found
    exact fits s k found
  · rw [if_neg prepared] at found
    dsimp only at found
    rw [Table.get?_set] at found
    by_cases same : s = signature
    · rw [if_pos same] at found
      cases found
      exact congrArg CallHandle.ofSignature same.symm
    · rw [if_neg same] at found
      exact fits s k found

theorem value_after (h : Held) (signature : String) : (h.after signature).value = h.value := by
  unfold after
  by_cases prepared : h.prepared.has signature = true
  · rw [if_pos prepared]
  · rw [if_neg prepared]

theorem Fits.handle {h : Held} (fits : h.Fits) (signature : String) :
    h.handle signature = .ofSignature signature := by
  unfold Held.handle
  cases found : h.prepared.get? signature with
  | none => rfl
  | some k => exact fits signature k found

/-- Whatever was called before, a call is like the first one. -/
theorem call_used (engine : Engine Surroundings) (value : Value) (history : List String)
    (signature : String) (params : List HostValue) :
    (used value history).call engine signature params =
      Client.call engine value signature params := by
  have kept : (used value history).Fits ∧ (used value history).value = value := by
    unfold used
    suffices ∀ h : Held, h.Fits → (history.foldl after h).Fits ∧
        (history.foldl after h).value = h.value from this (fresh value) (fits_fresh value)
    induction history with
    | nil => exact fun h fits => ⟨fits, rfl⟩
    | cons s rest ih =>
      intro h fits
      obtain ⟨fits', same⟩ := ih (h.after s) (fits.after s)
      exact ⟨fits', same.trans (h.value_after s)⟩
  unfold call Client.call
  rw [kept.1.handle, kept.2]

end Held

/-! ### Parameters -/

/-- Parameters that all go into slots do so in any slots. -/
theorem HostValue.puts_of_plain {params : List HostValue} (plain : ∀ p ∈ params, p.isPlain) :
    ∃ args, List.Forall₂ HostValue.Puts params args := by
  induction params with
  | nil => exact ⟨[], .nil⟩
  | cons p rest ih =>
    obtain ⟨args, puts⟩ := ih fun q there => plain q (List.mem_cons_of_mem p there)
    have here := plain p List.mem_cons_self
    cases p with
    | foreign _ => cases here
    | _ => exact ⟨_ :: args, .cons (fun _ => rfl) puts⟩

/-- Parameters that do not all go into slots: the first foreign object among them is the fault. -/
theorem Client.encodeFrom_foreign {params : List HostValue} (foreign : ∃ p ∈ params, ¬p.isPlain)
    (slot : Nat) (m : Machine Surroundings) :
    ∃ n, m.SameBeyondWindow n ∧ encodeFrom slot params m =
      .ok (.error (.unsupported (slot + (params.takeWhile (·.isPlain)).length) "foreign")) n := by
  induction params generalizing slot m with
  | nil =>
    obtain ⟨p, there, -⟩ := foreign
    cases there
  | cons p rest ih =>
    rw [encodeFrom_cons]
    by_cases plain : p.isPlain = true
    · obtain ⟨v, -, encoded⟩ := m.encode_plain slot plain
      have later : ∃ p ∈ rest, ¬p.isPlain := by
        obtain ⟨q, there, unfit⟩ := foreign
        obtain rfl | there := List.mem_cons.mp there
        · exact absurd plain unfit
        · exact ⟨q, there, unfit⟩
      obtain ⟨n, same, failed⟩ := ih later (slot + 1) (m.onVm (·.setSlot slot v))
      rw [encoded, List.takeWhile_cons_of_pos plain, List.length_cons]
      refine ⟨n, ⟨same.heap, ⟨same.vm.core, same.vm.modules, same.vm.depth⟩, same.host⟩,
        Eq.trans failed ?_⟩
      rw [Nat.add_assoc, Nat.add_comm 1]
    · rw [List.takeWhile_cons_of_neg plain]
      cases p with
      | foreign ref => exact ⟨m, .refl m, rfl⟩
      | _ => exact absurd rfl plain

/-! ### The message of a call -/

/-- The machine that the message of a call is sent on: the value and the arguments are in the
window, and no fault is remembered. -/
def Machine.calling (m : Machine Surroundings) (receiver : Value) (args : List Value) :
    Machine Surroundings :=
  ⟨m.heap, m.vm.holding (receiver :: args), m.host.setPending none⟩

theorem Machine.SameBeyondWindow.calling {m n : Machine Surroundings} (same : m.SameBeyondWindow n)
    (receiver : Value) (args args' : List Value) :
    (m.calling receiver args).SameBeyondWindow (n.calling receiver args') :=
  ⟨same.heap, ⟨same.vm.core, same.vm.modules, same.vm.depth⟩,
    congrArg (Surroundings.setPending · none) same.host⟩

/-- A machine after a call: the fault that was remembered has been told. -/
def Machine.told (m : Machine Surroundings) : Machine Surroundings :=
  { m with host := m.host.setPending none }

namespace Client

/-- What the embedding program gets for a message: its value as far as the host can see it, or the
cause of its fault, which is reported. -/
def answered (engine : Engine Surroundings) :
    EStateM.Result Halt (Machine Surroundings) (Except RuntimeError Value) →
    EStateM.Result Halt (Machine Surroundings) (Except BoundaryFault (Option HostValue))
  | .ok (.ok v) n => .ok (n.heap.answer v) (n.onVm (·.setSlot 0 v)).told
  | .ok (.error e) n =>
    let n := engine.reported n e.reports
    .ok (.error (cause n.host.record.pending (.runtime e))) n.told
  | .error h n => .error h n

theorem settled_call (engine : Engine Surroundings) (m : Machine Surroundings) (receiver : Value)
    {args : List Value} {signature : String} (enough : signatureArity signature ≤ args.length) :
    settled (engine.call signature) (m.onVm (·.holding (receiver :: args))) =
      match (engine.send receiver signature (args.take (signatureArity signature))).run
        (m.calling receiver args) with
      | .ok (.ok v) n => .ok (.ok ()) (n.onVm (·.setSlot 0 v)).told
      | .ok (.error e) n => .ok (.error (cause (engine.reported n e.reports).host.record.pending
          (.runtime e))) (engine.reported n e.reports).told
      | .error h n => .error h n := by
  have sent : (engine.sent signature).run (m.calling receiver args) =
      (engine.send receiver signature (args.take (signatureArity signature))).run
        (m.calling receiver args) := by
    rw [Engine.sent_run]
    have slots : (m.calling receiver args).vm.slots =
        receiver :: (args ++ m.vm.slots.drop (args.length + 1)) := rfl
    have further : signatureArity signature ≤
        (args ++ m.vm.slots.drop (args.length + 1)).length := by
      rw [List.length_append]
      omega
    rw [slots]
    dsimp only
    rw [if_pos further, List.take_append_of_le_length enough]
  change EStateM.bind (engine.call signature) _ (m.calling receiver args) = _
  unfold EStateM.bind
  rw [Engine.call_run]
  unfold EStateM.bind
  rw [sent]
  rcases (engine.send receiver signature (args.take (signatureArity signature))).run
    (m.calling receiver args) with ⟨e | v, n⟩ | ⟨h, n⟩
  · dsimp only
    rw [Engine.reporting_run]
    rfl
  · rfl
  · rfl

/-- A call with parameters that all go into slots: one message is sent, on as many of them as the
signature asks for. -/
theorem call_answered (engine : Engine Surroundings) (m : Machine Surroundings) (receiver : Value)
    {signature : String} {params : List HostValue} {args : List Value}
    (enough : signatureArity signature ≤ params.length)
    (puts : List.Forall₂ HostValue.Puts params args) :
    call engine receiver signature params m =
      answered engine ((engine.send receiver signature
        (args.take (signatureArity signature))).run (m.calling receiver args)) := by
  rw [call_run engine m receiver enough puts,
    settled_call engine m receiver (puts.length_eq ▸ enough)]
  rcases (engine.send receiver signature (args.take (signatureArity signature))).run
    (m.calling receiver args) with ⟨e | v, n⟩ | ⟨h, n⟩
  · rfl
  · have read : (n.onVm (·.setSlot 0 v)).told.decode 0 .any = n.heap.crossing 0 v .any :=
      n.decode_setSlot 0 v .any
    unfold answered
    dsimp only
    rw [read]
    rfl
  · rfl

/-- A call with a foreign object among the parameters: nothing runs. -/
theorem call_foreign (engine : Engine Surroundings) (m : Machine Surroundings) (receiver : Value)
    {signature : String} {params : List HostValue}
    (enough : signatureArity signature ≤ params.length) (foreign : ∃ p ∈ params, ¬p.isPlain) :
    ∃ n, m.SameBeyondWindow n ∧ call engine receiver signature params m =
      .ok (.error (.unsupported (1 + (params.takeWhile (·.isPlain)).length) "foreign")) n := by
  obtain ⟨n, same, failed⟩ := encodeFrom_foreign foreign 1
    (m.onVm fun vm => (vm.ensureSlots (params.length + 1)).setSlot 0 receiver)
  refine ⟨n, ⟨same.heap, ⟨same.vm.core, same.vm.modules, same.vm.depth⟩, same.host⟩, ?_⟩
  rw [call_eq, if_neg (Nat.not_lt.mpr enough)]
  change EStateM.bind (encodeFrom 1 params) _
    (m.onVm fun vm => (vm.ensureSlots (params.length + 1)).setSlot 0 receiver) = _
  rw [Live.bind_run failed]
  rfl

theorem call_short (engine : Engine Surroundings) (m : Machine Surroundings) (receiver : Value)
    {signature : String} {params : List HostValue}
    (short : params.length < signatureArity signature) :
    call engine receiver signature params m =
      .ok (.error (.missingArgument (params.length + 1))) m := by
  rw [call_eq, if_pos short]
  rfl

end Client

/-! ### Two calls -/

/-- Reports do not look at the window. -/
theorem Engine.reported_same (engine : Engine H) {m n : Machine H} (same : m.SameBeyondWindow n)
    (rs : List Report) : (engine.reported m rs).SameBeyondWindow (engine.reported n rs) := by
  induction rs generalizing m n with
  | nil => exact same
  | cons r rest ih =>
    exact ih ⟨same.heap, same.vm,
      congrArg (fun host => ((engine.callbacks.report r).run host).2) same.host⟩

namespace Client

/-- Messages that came to the same are answered alike. -/
theorem answered_alike (engine : Engine Surroundings)
    {r s : EStateM.Result Halt (Machine Surroundings) (Except RuntimeError Value)}
    (alike : EndsAlike r s) : EndsAlike (answered engine r) (answered engine s) := by
  obtain @⟨e | v, m, n, same⟩ | same := alike
  · have told := engine.reported_same same e.reports
    unfold answered
    dsimp only
    rw [told.host]
    exact .ok ⟨told.heap, told.vm, congrArg (Surroundings.setPending · none) told.host⟩
  · unfold answered
    dsimp only
    rw [same.heap]
    exact .ok ⟨same.heap, ⟨same.vm.core, same.vm.modules, same.vm.depth⟩,
      congrArg (Surroundings.setPending · none) same.host⟩
  · exact .halt same

variable (depth : Nat) (value : Value) (signature : String) {m n : Machine Surroundings}

/-- Two calls whose messages take the same arguments. -/
theorem calls_alike {params params' : List HostValue} {args args' : List Value}
    (enough : signatureArity signature ≤ params.length)
    (enough' : signatureArity signature ≤ params'.length)
    (puts : List.Forall₂ HostValue.Puts params args)
    (puts' : List.Forall₂ HostValue.Puts params' args')
    (taken : args.take (signatureArity signature) = args'.take (signatureArity signature))
    (same : m.SameBeyondWindow n) :
    EndsAlike (call (Surroundings.host.engine depth) value signature params m)
      (call (Surroundings.host.engine depth) value signature params' n) := by
  rw [call_answered _ m value enough puts, call_answered _ n value enough' puts', taken]
  exact answered_alike _ (send_alike depth value signature _ (same.calling value args args'))

theorem call_alike (params : List HostValue) (same : m.SameBeyondWindow n) :
    EndsAlike (call (Surroundings.host.engine depth) value signature params m)
      (call (Surroundings.host.engine depth) value signature params n) := by
  by_cases short : params.length < signatureArity signature
  · rw [call_short _ m value short, call_short _ n value short]
    exact .ok same
  have enough := Nat.le_of_not_lt short
  by_cases plain : ∀ p ∈ params, p.isPlain
  · obtain ⟨args, puts⟩ := HostValue.puts_of_plain plain
    exact calls_alike depth value signature enough enough puts puts rfl same
  · have foreign : ∃ p ∈ params, ¬p.isPlain := by
      simpa only [not_forall, exists_prop] using plain
    obtain ⟨m', toM, ranM⟩ := call_foreign (Surroundings.host.engine depth) m value enough foreign
    obtain ⟨n', toN, ranN⟩ := call_foreign (Surroundings.host.engine depth) n value enough foreign
    rw [ranM, ranN]
    exact .ok (toM.symm.trans (same.trans toN))

end Client

/-- For every value that the embedding program holds, every signature and every parameters. The
result of a call, all that it writes, and what it makes of everything that scripts can see are the
same on two machines that differ in their windows alone, and whatever was called on the value
before. Too few parameters are a fault, and the machine is as it was. Parameters that are enough and
none of them foreign lead to one message to the value: of the signature, with as many of the
parameters as it asks for, in their order; all that comes of the call comes of that message, and it
is as if the other parameters had not been there. -/
theorem calls_depend_on_arguments (depth : Nat) (value : Value) (signature : String)
    (params : List HostValue) :
    let engine := Surroundings.host.engine depth
    let arity := signatureArity signature
    (∀ (history history' : List String) (m n : Machine Surroundings), m.SameBeyondWindow n →
      EndsAlike ((Held.used value history).call engine signature params m)
        ((Held.used value history').call engine signature params n)) ∧
    (params.length < arity → ∀ (history : List String) (m : Machine Surroundings),
      (Held.used value history).call engine signature params m =
        .ok (.error (.missingArgument (params.length + 1))) m) ∧
    (arity ≤ params.length → (∀ p ∈ params, p.isPlain) →
      ∃ args, List.Forall₂ HostValue.Puts params args ∧
        ∀ (history : List String) (m : Machine Surroundings),
          (Held.used value history).call engine signature params m =
            Client.answered engine
              ((engine.send value signature (args.take arity)).run (m.calling value args)) ∧
          EndsAlike ((Held.used value history).call engine signature params m)
            ((Held.used value history).call engine signature (params.take arity) m)) := by
  intro engine arity
  refine ⟨fun history history' m n same => ?_, fun short history m => ?_, fun enough plain => ?_⟩
  · rw [Held.call_used, Held.call_used]
    exact Client.call_alike depth value signature params same
  · rw [Held.call_used]
    exact Client.call_short engine m value short
  · obtain ⟨args, puts⟩ := HostValue.puts_of_plain plain
    refine ⟨args, puts, fun history m => ?_⟩
    rw [Held.call_used, Held.call_used]
    have fewer : arity ≤ (params.take arity).length := by
      rw [List.length_take]
      omega
    have taken : args.take arity = (args.take arity).take arity := by
      rw [List.take_take, Nat.min_self]
    exact ⟨Client.call_answered engine m value enough puts,
      Client.calls_alike depth value signature enough fewer puts (List.forall₂_take arity puts)
        taken (.refl m)⟩

end ScriptHost
