import ScriptHost.Proofs.Binding.Dispatch
import ScriptHost.Proofs.Marshalling

/-! What the dispatcher promises. A host function is called if each of its parameters can be read
from its slot, and then once, with what was read; else the first parameter that cannot be read is
the fault. The window changes only if there is a result that goes into slot 0. The dispatcher is
taken apart from what it calls, so that the calls can be counted. -/

namespace ScriptHost

variable {H : Type}

/-! ### The dispatcher and what it calls -/

/-- What a host function does: it is told its arguments, and works on the objects and on the host's
side. It has no hold on the window. -/
abbrev Work (H : Type) := List HostValue → Heap × H → Outcome × (Heap × H)

def Machine.withWorked (m : Machine H) (worked : Heap × H) : Machine H := ⟨worked.1, m.vm, worked.2⟩

/-- The dispatcher, whatever it calls. -/
def dispatchWork (params : List Kind) (returns : Option Kind) (work : Work H) (m : Machine H) :
    Except BoundaryFault Unit × Machine H :=
  match m.decodeArguments params with
  | .error f => (.error f, m)
  | .ok args =>
    (work args (m.heap, m.host)).1.land returns (m.withWorked (work args (m.heap, m.host)).2)

/-- The work of a routine. -/
def Routine.work (keep : ForeignId → H → H) (r : Routine) : Work H := fun args side =>
  let effect := r.call args side.1
  (effect.outcome, side.1.setPayloads effect.writes,
    match effect.keeps with
    | some id => keep id side.2
    | none => side.2)

theorem Routine.dispatch_work (keep : ForeignId → H → H) (r : Routine) (m : Machine H) :
    (r.dispatch keep).run m = dispatchWork r.params r.returns (r.work keep) m := by
  rw [Routine.dispatch_run]
  unfold dispatchWork
  cases m.decodeArguments r.params with
  | error f => rfl
  | ok args =>
    dsimp only [Routine.work, Effect.mark, Machine.withWorked]
    cases (r.call args m.heap).keeps <;> rfl

/-- Work that notes each call with its arguments, the latest first. -/
def Work.noting (work : Work H) : Work (H × List (List HostValue)) := fun args side =>
  ((work args (side.1, side.2.1)).1, (work args (side.1, side.2.1)).2.1,
    (work args (side.1, side.2.1)).2.2, args :: side.2.2)

/-- A machine with a note of the calls so far. -/
def Machine.noting (m : Machine H) (calls : List (List HostValue)) :
    Machine (H × List (List HostValue)) :=
  ⟨m.heap, m.vm, m.host, calls⟩

theorem Outcome.land_noting (returns : Option Kind) (m : Machine H) (calls : List (List HostValue))
    (outcome : Outcome) : outcome.land returns (m.noting calls) =
      ((outcome.land returns m).1, (outcome.land returns m).2.noting calls) := by
  cases outcome with
  | fault f => rfl
  | panic message => rfl
  | value v =>
    cases v with
    | none => rfl
    | some v =>
      unfold Outcome.land Machine.encodeResult
      cases returns with
      | none => rfl
      | some kind =>
        cases accepted : kind.accepts v with
        | false => simp only [accepted, Bool.false_eq_true, if_false]
        | true =>
          simp only [accepted, if_true]
          unfold Machine.encode
          cases v.toValue 0 <;> rfl

/-- Noting the calls changes nothing else. -/
theorem dispatchWork_noting (params : List Kind) (returns : Option Kind) (work : Work H)
    (m : Machine H) :
    dispatchWork params returns work.noting (m.noting []) =
      ((dispatchWork params returns work m).1, (dispatchWork params returns work m).2.noting
        (match m.decodeArguments params with
        | .error _ => []
        | .ok args => [args])) := by
  have same : (m.noting []).decodeArguments params = m.decodeArguments params :=
    Machine.decodeArguments_congr (m := m.noting []) (n := m) rfl rfl params
  unfold dispatchWork
  rw [same]
  cases m.decodeArguments params with
  | error f => rfl
  | ok args =>
    exact Outcome.land_noting returns (m.withWorked (work args (m.heap, m.host)).2) [args]
      (work args (m.heap, m.host)).1

/-- The calls that a dispatch makes. -/
def Routine.calls (keep : ForeignId → H → H) (r : Routine) (m : Machine H) :
    List (List HostValue) :=
  (dispatchWork r.params r.returns (r.work keep).noting (m.noting [])).2.host.2

/-! ### Arguments -/

/-- A value that the host cannot see: a class or an object of a script. -/
def Value.isHidden : Value → Bool
  | .classObject _ | .object _ => true
  | _ => false

namespace Machine

variable {m n : Machine H} {params : List Kind} {args : List HostValue}

/-- The slot of the first parameter, after a receiver that the host cannot see. -/
theorem firstArgument_eq (m : Machine H) :
    m.firstArgument = if (m.vm.slot? 0).any Value.isHidden then 1 else 0 := by
  unfold firstArgument Vm.slotCount Vm.slotType Vm.slot?
  cases m.vm.slots with
  | nil => rfl
  | cons v rest => cases v <;> rfl

/-- Each parameter can be read from its slot, as the argument in its place. -/
structure Reads (m : Machine H) (slot : Nat) (params : List Kind) (args : List HostValue) : Prop
    where
  length : args.length = params.length
  read : ∀ {i kind}, params[i]? = some kind →
    ∃ w, args[i]? = some w ∧ m.decode (slot + i) kind = .ok w

theorem decodeFrom_cons (m : Machine H) (slot : Nat) (kind : Kind) (rest : List Kind) :
    m.decodeFrom slot (kind :: rest) =
      match m.decode slot kind with
      | .error f => .error f
      | .ok w => (m.decodeFrom (slot + 1) rest).map (w :: ·) := by
  change (m.decode slot kind >>= fun w => m.decodeFrom (slot + 1) rest >>= fun ws =>
    pure (w :: ws)) = _
  cases m.decode slot kind with
  | error f => rfl
  | ok w =>
    cases m.decodeFrom (slot + 1) rest <;> rfl

theorem decodeFrom_ok_iff {slot : Nat} :
    m.decodeFrom slot params = .ok args ↔ m.Reads slot params args := by
  induction params generalizing slot args with
  | nil =>
    constructor
    · rintro ⟨⟩
      exact ⟨rfl, nofun⟩
    · rintro ⟨length, -⟩
      rw [List.length_eq_zero_iff.mp length]
      rfl
  | cons kind rest ih =>
    rw [decodeFrom_cons]
    constructor
    · intro read
      cases first : m.decode slot kind with
      | error f =>
        rw [first] at read
        cases read
      | ok w =>
        rw [first] at read
        cases later : m.decodeFrom (slot + 1) rest with
        | error f =>
          rw [later] at read
          cases read
        | ok ws =>
          rw [later] at read
          cases read
          have reads := ih.mp later
          refine ⟨congrArg (· + 1) reads.length, fun {i k} asked => ?_⟩
          cases i with
          | zero =>
            cases asked
            exact ⟨w, rfl, first⟩
          | succ i =>
            obtain ⟨x, there, read⟩ := reads.read asked
            rw [Nat.add_assoc, Nat.add_comm 1] at read
            exact ⟨x, there, read⟩
    · rintro ⟨length, read⟩
      obtain ⟨w, ws, rfl⟩ := List.exists_cons_of_length_eq_add_one length
      obtain ⟨_, ⟨⟩, first⟩ := read (i := 0) rfl
      rw [Nat.add_zero] at first
      have later : m.Reads (slot + 1) rest ws := by
        refine ⟨Nat.succ.inj length, fun {i k} asked => ?_⟩
        obtain ⟨x, there, found⟩ := read (i := i + 1) asked
        rw [Nat.add_assoc, Nat.add_comm 1]
        exact ⟨x, there, found⟩
      rw [first]
      dsimp only
      rw [ih.mpr later]
      rfl

/-- Arguments that cannot be read: there is a first parameter that cannot. -/
theorem decodeFrom_error {slot : Nat} {f : BoundaryFault}
    (unread : m.decodeFrom slot params = .error f) :
    ∃ i kind, params[i]? = some kind ∧ m.decode (slot + i) kind = .error f ∧
      ∀ j < i, ∀ k, params[j]? = some k → ∃ w, m.decode (slot + j) k = .ok w := by
  induction params generalizing slot with
  | nil => cases unread
  | cons kind rest ih =>
    rw [decodeFrom_cons] at unread
    cases first : m.decode slot kind with
    | error g =>
      rw [first] at unread
      cases unread
      exact ⟨0, kind, rfl, first, fun j below => absurd below (Nat.not_lt_zero j)⟩
    | ok w =>
      rw [first] at unread
      cases later : m.decodeFrom (slot + 1) rest with
      | ok ws =>
        rw [later] at unread
        cases unread
      | error g =>
        rw [later] at unread
        cases unread
        obtain ⟨i, k, asked, unfit, before⟩ := ih later
        rw [Nat.add_assoc, Nat.add_comm 1] at unfit
        refine ⟨i + 1, k, asked, unfit, fun j below k' asked' => ?_⟩
        cases j with
        | zero =>
          cases asked'
          exact ⟨w, first⟩
        | succ j =>
          obtain ⟨x, read⟩ := before j (Nat.lt_of_succ_lt_succ below) k' asked'
          rw [Nat.add_assoc, Nat.add_comm 1] at read
          exact ⟨x, read⟩

/-- Slots behind those of the parameters are not looked at. -/
theorem decodeArguments_later (heap : n.heap = m.heap)
    (same : ∀ i < m.firstArgument + params.length, n.vm.slot? i = m.vm.slot? i) :
    n.decodeArguments params = m.decodeArguments params := by
  cases params with
  | nil => rfl
  | cons first others =>
    have receiver : n.firstArgument = m.firstArgument := by
      rw [firstArgument_eq, firstArgument_eq, same 0 (by rw [List.length_cons]; omega)]
    unfold decodeArguments
    rw [receiver]
    -- The induction is on the parameters from any slot on.
    have read (slot : Nat) (rest : List Kind)
        (alike : ∀ i < slot + rest.length, n.vm.slot? i = m.vm.slot? i) :
        n.decodeFrom slot rest = m.decodeFrom slot rest := by
      induction rest generalizing slot with
      | nil => rfl
      | cons kind rest ih =>
        rw [List.length_cons] at alike
        have here : n.decode slot kind = m.decode slot kind := by
          unfold decode
          rw [alike slot (by omega), heap]
        rw [decodeFrom_cons, decodeFrom_cons, here,
          ih (slot + 1) fun i below => alike i (by omega)]
    exact read m.firstArgument _ same

end Machine

/-! ### Results -/

/-- What an outcome comes to: a result that the routine declares goes to slot 0, and in all other
cases the window stays. -/
inductive Outcome.Lands (returns : Option Kind) (vm : Vm) :
    Outcome → Except BoundaryFault Unit → Vm → Prop
  | fault (f : BoundaryFault) : Lands returns vm (.fault f) (.error f) vm
  | panic (message : String) : Lands returns vm (.panic message) (.error (.failed message)) vm
  | nothing : Lands returns vm (.value none) (.ok ()) vm
  | result {kind : Kind} {w : HostValue} {v : Value} : returns = some kind →
    kind.accepts w = true → w.toValue 0 = .ok v →
    Lands returns vm (.value (some w)) (.ok ()) (vm.setSlot 0 v)
  | mismatch {kind : Kind} {w : HostValue} : returns = some kind → kind.accepts w = false →
    Lands returns vm (.value (some w)) (.error (.typeMismatch 0 kind.text w.typeName)) vm
  | undeclared (w : HostValue) : returns = none →
    Lands returns vm (.value (some w)) (.error (.typeMismatch 0 "no value" w.typeName)) vm
  | foreign {kind : Kind} {ref : ForeignRef} : returns = some kind →
    kind.accepts (.foreign ref) = true →
    Lands returns vm (.value (some (.foreign ref))) (.error (.unsupported 0 "foreign")) vm

theorem Outcome.land_lands (returns : Option Kind) (m : Machine H) (outcome : Outcome) :
    outcome.Lands returns m.vm (outcome.land returns m).1 (outcome.land returns m).2.vm := by
  cases outcome with
  | fault f => exact .fault f
  | panic message => exact .panic message
  | value result =>
    cases result with
    | none => exact .nothing
    | some w =>
      cases returns with
      | none => exact .undeclared w rfl
      | some kind =>
        unfold land Machine.encodeResult
        cases accepted : kind.accepts w with
        | false =>
          simp only [accepted, Bool.false_eq_true, if_false]
          exact .mismatch rfl accepted
        | true =>
          simp only [accepted, if_true]
          cases w with
          | foreign ref => exact .foreign rfl accepted
          | _ => exact .result rfl accepted rfl

theorem Outcome.land_heap (returns : Option Kind) (m : Machine H) (outcome : Outcome) :
    (outcome.land returns m).2.heap = m.heap := by
  obtain same | ⟨w, same⟩ := outcome.land_machine returns m
  · rw [same]
  · rw [same]
    rfl

/-- A fault leaves the window and the mark on slot 0 as they were. -/
theorem Outcome.Lands.error {returns : Option Kind} {vm vm' : Vm} {outcome : Outcome}
    {f : BoundaryFault} (lands : outcome.Lands returns vm (.error f) vm') : vm' = vm := by
  cases lands <;> rfl

/-- Only slot 0 is ever written. -/
theorem Outcome.Lands.others {returns : Option Kind} {vm vm' : Vm} {outcome : Outcome}
    {result : Except BoundaryFault Unit} (lands : outcome.Lands returns vm result vm') {i : Nat}
    (other : i ≠ 0) : vm'.slot? i = vm.slot? i := by
  cases lands with
  | @result kind w v =>
    change ((vm.slots ++ _).set 0 v)[i]? = vm.slots[i]?
    rw [List.getElem?_set_ne (Ne.symm other)]
    by_cases inside : i < vm.slots.length
    · exact List.getElem?_append_left inside
    · rw [List.getElem?_eq_none (by rw [List.length_append, List.length_replicate]; omega),
        List.getElem?_eq_none (by omega)]
  | _ => rfl

/-! ### The contract -/

theorem Routine.calls_eq (keep : ForeignId → H → H) (r : Routine) (m : Machine H) :
    r.calls keep m = match m.decodeArguments r.params with
      | .error _ => []
      | .ok args => [args] := by
  unfold Routine.calls
  rw [dispatchWork_noting]
  rfl

/-- For every window, every routine and whatever it does. The parameters are read from slot 1 on
if slot 0 holds a class or an object of a script, and else from slot 0 on. The routine is called
with some arguments if and only if they are what all its parameters are read as, and then once;
otherwise the fault is that of the first parameter that cannot be read, and nothing has happened. A
call has its effect once, and ends as its outcome says: at most slot 0 is written, with a result
that the routine declares, and never when there is a fault. Slots past the window are missing
arguments, and those behind the parameters do not matter. -/
theorem dispatch_contract (keep : ForeignId → H → H) (r : Routine) (m : Machine H) :
    let first := if (m.vm.slot? 0).any Value.isHidden then 1 else 0
    let result := ((r.dispatch keep).run m).1
    let n := ((r.dispatch keep).run m).2
    (dispatchWork r.params r.returns (r.work keep).noting (m.noting []) =
      (result, n.noting (r.calls keep m))) ∧
    (∀ args, r.calls keep m = [args] ↔ m.Reads first r.params args) ∧
    (∀ args, r.calls keep m = [args] →
      n.heap = m.heap.setPayloads (r.call args m.heap).writes ∧
      (n.host = match (r.call args m.heap).keeps with
        | some id => keep id m.host
        | none => m.host) ∧
      (r.call args m.heap).outcome.Lands r.returns m.vm result n.vm) ∧
    ((∀ args, ¬m.Reads first r.params args) → r.calls keep m = [] ∧ n = m ∧
      ∃ i kind f, r.params[i]? = some kind ∧ m.decode (first + i) kind = .error f ∧
        result = .error f ∧
        ∀ j < i, ∀ k, r.params[j]? = some k → ∃ w, m.decode (first + j) k = .ok w) ∧
    (∀ i kind, m.vm.slotCount ≤ first + i →
      m.decode (first + i) kind = .error (.missingArgument (first + i))) ∧
    (∀ f, result = .error f → n.vm = m.vm) ∧
    (∀ i ≠ 0, n.vm.slot? i = m.vm.slot? i) ∧
    ∀ other : Machine H, other.heap = m.heap →
      (∀ i < first + r.params.length, other.vm.slot? i = m.vm.slot? i) →
      r.calls keep other = r.calls keep m := by
  intro first result n
  have start : m.firstArgument = first := m.firstArgument_eq
  have calls := r.calls_eq keep m
  have noted : dispatchWork r.params r.returns (r.work keep).noting (m.noting []) =
      (result, n.noting (r.calls keep m)) := by
    rw [dispatchWork_noting, ← Routine.dispatch_work, calls]
  have past (i : Nat) (kind : Kind) (past : m.vm.slotCount ≤ first + i) :
      m.decode (first + i) kind = .error (.missingArgument (first + i)) := by
    have missing : m.vm.slot? (first + i) = none := List.getElem?_eq_none past
    unfold Machine.decode
    rw [missing]
  have later (other : Machine H) (heap : other.heap = m.heap)
      (same : ∀ i < first + r.params.length, other.vm.slot? i = m.vm.slot? i) :
      r.calls keep other = r.calls keep m := by
    rw [← start] at same
    rw [calls, r.calls_eq keep other, Machine.decodeArguments_later heap same]
  have ran : (result, n) = dispatchWork r.params r.returns (r.work keep) m :=
    r.dispatch_work keep m
  clear_value first result n
  unfold dispatchWork at ran
  cases read : m.decodeArguments r.params with
  | error f =>
    rw [read] at calls ran
    obtain ⟨rfl, same⟩ := Prod.mk.inj ran
    unfold Machine.decodeArguments at read
    rw [start] at read
    have unread (args : List HostValue) : ¬m.Reads first r.params args := fun reads =>
      nomatch read.symm.trans (Machine.decodeFrom_ok_iff.mpr reads)
    refine ⟨noted, fun args => ?_, fun args called => ?_, fun _ => ?_, past,
      fun _ _ => congrArg Machine.vm same, fun i _ => congrArg (·.vm.slot? i) same, later⟩
    · rw [calls]
      exact iff_of_false nofun (unread args)
    · cases calls.symm.trans called
    · obtain ⟨i, kind, asked, unfit, before⟩ := Machine.decodeFrom_error read
      exact ⟨calls, same, i, kind, f, asked, unfit, rfl, before⟩
  | ok args =>
    rw [read] at calls ran
    unfold Machine.decodeArguments at read
    rw [start] at read
    have reads := Machine.decodeFrom_ok_iff.mp read
    let worked := m.withWorked (r.work keep args (m.heap, m.host)).2
    have ended : result = ((r.call args m.heap).outcome.land r.returns worked).1 :=
      (Prod.mk.inj ran).1
    have landed : n = ((r.call args m.heap).outcome.land r.returns worked).2 :=
      (Prod.mk.inj ran).2
    have lands : (r.call args m.heap).outcome.Lands r.returns m.vm result n.vm := by
      rw [ended, landed]
      exact Outcome.land_lands r.returns worked _
    have one (args' : List HostValue) :
        r.calls keep m = [args'] ↔ m.Reads first r.params args' := by
      rw [calls, ← Machine.decodeFrom_ok_iff, read, List.singleton_inj, Except.ok.injEq]
    refine ⟨noted, one, fun args' called => ?_, fun unread => absurd reads (unread args), past,
      fun f failed => ?_, fun i other => lands.others other, later⟩
    · cases calls.symm.trans called
      refine ⟨?_, ?_, lands⟩
      · rw [landed, Outcome.land_heap]
        rfl
      · rw [landed, Outcome.land_host]
        rfl
    · rw [failed] at lands
      exact lands.error

end ScriptHost
