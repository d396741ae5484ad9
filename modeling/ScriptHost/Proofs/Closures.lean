import ScriptHost.Boundary.Closure
import ScriptHost.Proofs.Dispatching

/-! Typed host functions and the kinds that describe them. What a kind accepts and what its type is
made of are written apart, for parameters and for results; they are compared by induction on the
type, and from that it follows how a call of a typed function goes. -/

namespace ScriptHost

variable {H : Type}

/-! ### Types and their kinds -/

namespace ParameterType

variable {inner : ParameterType} {v : HostValue}

theorem fromHost_optional (there : v ≠ .null) :
    (optional inner).fromHost v = (inner.fromHost v).map some := by
  cases v with
  | null => exact absurd rfl there
  | _ => rfl

theorem accepts_optional (there : v ≠ .null) :
    (optional inner).kind.accepts v = inner.kind.accepts v := by
  cases v with
  | null => exact absurd rfl there
  | _ => rfl

/-- A value that the kind accepts is converted. -/
theorem fromHost_of_accepts (t : ParameterType) (accepted : t.kind.accepts v) :
    ∃ a, t.fromHost v = some a := by
  induction t with
  | optional inner ih =>
    by_cases there : v = .null
    · subst there
      exact ⟨none, rfl⟩
    · rw [accepts_optional there] at accepted
      obtain ⟨a, converted⟩ := ih accepted
      rw [fromHost_optional there, converted]
      exact ⟨some a, rfl⟩
  | value => exact ⟨v, rfl⟩
  | foreign type =>
    cases v with
    | foreign ref =>
      have own : ref.hostType = some type := beq_iff_eq.mp accepted
      exact ⟨⟨ref, own⟩, dif_pos own⟩
    | _ => cases accepted
  | _ =>
    cases v <;> cases accepted
    exact ⟨_, rfl⟩

/-- Of nested options, it is the outermost that null leaves empty. -/
example : (optional (optional (number .i8))).fromHost .null = some none := rfl

/-- A value that goes back is accepted by the kind. -/
theorem accepts_intoHost (t : ParameterType) (a : t.denote) : t.kind.accepts (t.intoHost a) := by
  induction t with
  | optional inner ih =>
    cases a with
    | none => rfl
    | some x =>
      by_cases there : inner.intoHost x = .null
      · have back : (optional inner).intoHost (some x) = .null := there
        rw [back]
        rfl
      · exact (accepts_optional there).trans (ih x)
  | foreign type => exact beq_iff_eq.mpr a.property
  | _ => rfl

end ParameterType

/-- A result that is there is accepted by the kind that was declared for it. -/
theorem ReturnType.accepts_outcome (r : ReturnType) {x : r.denote} {v : HostValue}
    (given : r.outcome x = .value (some v)) : ∃ kind, r.kind? = some kind ∧ kind.accepts v := by
  induction r with
  | nothing => cases given
  | one t _ =>
    cases given
    exact ⟨t.kind, rfl, t.accepts_intoHost x⟩
  | result inner ih =>
    cases x with
    | error text => cases given
    | ok x => exact ih given

/-- A fault of a result is a text of the function's own. -/
theorem ReturnType.outcome_fault (r : ReturnType) {x : r.denote} {f : BoundaryFault}
    (given : r.outcome x = .fault f) : ∃ text, f = .failed text := by
  induction r with
  | nothing => cases given
  | one => cases given
  | result inner ih =>
    cases x with
    | error text =>
      cases given
      exact ⟨text, rfl⟩
    | ok x => exact ih given

theorem ReturnType.outcome_ne_panic (r : ReturnType) (x : r.denote) (message : String) :
    r.outcome x ≠ .panic message := by
  induction r with
  | nothing => exact nofun
  | one => exact nofun
  | result inner ih =>
    cases x with
    | error text => exact nofun
    | ok x => exact ih x

/-! ### Arguments -/

/-- The kinds of some types. -/
abbrev parameterKinds (ts : List ParameterType) : List Kind := ts.map (·.kind)

namespace Arguments

/-- Each argument is what the value in its place was converted to. -/
def Converts {ts : List ParameterType} (args : Arguments ts) (values : List HostValue) : Prop :=
  ∀ i : Fin ts.length, ∃ v, values[i.val]? = some v ∧ (ts.get i).fromHost v = some (args.get i)

theorem Converts.cons {t : ParameterType} {ts : List ParameterType} {first : t.denote}
    {rest : Arguments ts} {v : HostValue} {values : List HostValue}
    (here : t.fromHost v = some first) (later : rest.Converts values) :
    (Arguments.cons first rest).Converts (v :: values) := by
  rintro ⟨i, below⟩
  cases i with
  | zero => exact ⟨v, rfl, here⟩
  | succ i => exact later ⟨i, Nat.lt_of_succ_lt_succ below⟩

/-- Values that their kinds accept are all converted. -/
theorem take_converts {ts : List ParameterType} {values : List HostValue}
    (accepted : List.Forall₂ (fun (t : ParameterType) v => t.kind.accepts v) ts values) (i : Nat) :
    ∃ args, take i ts values = .ok args ∧ args.Converts values := by
  induction accepted generalizing i with
  | nil => exact ⟨.nil, rfl, nofun⟩
  | @cons t v ts values here _ ih =>
    obtain ⟨first, converted⟩ := t.fromHost_of_accepts here
    obtain ⟨rest, taken, later⟩ := ih (i + 1)
    refine ⟨.cons first rest, ?_, .cons converted later⟩
    unfold take
    simp only [List.head?_cons, Option.bind_some, converted, List.drop_succ_cons, List.drop_zero,
      taken]
    rfl

end Arguments

namespace Machine

variable {m : Machine H}

/-- What is read as the kinds of some types is accepted by them. -/
theorem Reads.accepted {slot : Nat} {ts : List ParameterType} {values : List HostValue}
    (reads : m.Reads slot (parameterKinds ts) values) :
    List.Forall₂ (fun (t : ParameterType) v => t.kind.accepts v) ts values := by
  refine List.forall₂_iff_get.mpr ⟨?_, fun i below below' => ?_⟩
  · rw [reads.length, List.length_map]
  · have asked : (parameterKinds ts)[i]? = some (ts[i].kind) := by
      rw [List.getElem?_map, List.getElem?_eq_getElem below, Option.map_some]
    obtain ⟨w, there, read⟩ := reads.read asked
    obtain ⟨_, -, crosses⟩ := decode_ok_iff.mp read
    rw [List.getElem?_eq_getElem below'] at there
    cases there
    exact crosses.accepted

/-- Reading a slot never ends with a text of a host function. -/
theorem decode_ne_failed (slot : Nat) (kind : Kind) (text : String) :
    m.decode slot kind ≠ .error (.failed text) := by
  unfold decode
  cases m.vm.slot? slot with
  | none =>
    intro failed
    cases failed
  | some v =>
    dsimp only
    induction kind with
    | optional inner ih =>
      by_cases there : v = .null
      · subst there
        intro failed
        cases failed
      · rw [Heap.crossing_optional there]
        exact ih
    | foreign type =>
      intro failed
      cases v with
      | foreign id =>
        unfold Heap.crossing at failed
        dsimp only at failed
        split at failed <;> cases failed
      | _ => cases failed
    | _ =>
      intro failed
      cases v <;> cases failed

end Machine

/-! ### Calls -/

/-- The arguments are what was read from the slots of the parameters, each converted to its type. -/
def Closure.Takes (c : Closure) (m : Machine H) (first : Nat) (args : Arguments c.params) : Prop :=
  ∀ i : Fin c.params.length, ∃ v, m.decode (first + i) (c.params.get i).kind = .ok v ∧
    (c.params.get i).fromHost v = some (args.get i)

theorem Closure.takes_of_reads {c : Closure} {m : Machine H} {first : Nat}
    {values : List HostValue} {args : Arguments c.params}
    (reads : m.Reads first (parameterKinds c.params) values) (converts : args.Converts values) :
    c.Takes m first args := by
  intro i
  have asked : (parameterKinds c.params)[i.val]? = some (c.params.get i).kind := by
    rw [List.getElem?_map, List.getElem?_eq_getElem i.isLt, Option.map_some]
    rfl
  obtain ⟨w, there, read⟩ := reads.read asked
  obtain ⟨v, same, converted⟩ := converts i
  cases there.symm.trans same
  exact ⟨w, read, converted⟩

/-- What a call comes to, by what the function returned: a message or a text of its own is the
fault; a value goes to slot 0, unless it is a foreign object; and nothing else goes wrong. -/
inductive Ending.Settles {returns : ReturnType} (vm : Vm) (e : Ending returns) :
    Except BoundaryFault Unit → Vm → Prop
  | panic {message : String} : e.returned = .error message →
    Settles vm e (.error (.failed message)) vm
  | failed {x : returns.denote} {text : String} : e.returned = .ok x →
    returns.outcome x = .fault (.failed text) → Settles vm e (.error (.failed text)) vm
  | nothing {x : returns.denote} : e.returned = .ok x → returns.outcome x = .value none →
    Settles vm e (.ok ()) vm
  | value {x : returns.denote} {w : HostValue} {v : Value} : e.returned = .ok x →
    returns.outcome x = .value (some w) → w.toValue 0 = .ok v →
    Settles vm e (.ok ()) (vm.setSlot 0 v)
  | foreign {x : returns.denote} {ref : ForeignRef} : e.returned = .ok x →
    returns.outcome x = .value (some (.foreign ref)) →
    Settles vm e (.error (.unsupported 0 "foreign")) vm

/-- The function ended with a text: as a message that it gave up with, or as its result. -/
def Ending.FailsWith {returns : ReturnType} (e : Ending returns) (text : String) : Prop :=
  e.outcome = .panic text ∨ e.outcome = .fault (.failed text)

namespace Ending

variable {returns : ReturnType} {e : Ending returns} {vm vm' : Vm}
  {result : Except BoundaryFault Unit}

theorem settles_of_lands (lands : e.outcome.Lands returns.kind? vm result vm') :
    e.Settles vm result vm' := by
  unfold outcome at lands
  cases returned : e.returned with
  | error message =>
    rw [returned] at lands
    cases lands
    exact .panic returned
  | ok x =>
    rw [returned] at lands
    dsimp only at lands
    generalize ended : returns.outcome x = o at lands
    -- A result that is not of the declared kind, or that none was declared for, cannot be.
    cases lands with
    | fault f =>
      obtain ⟨text, rfl⟩ := returns.outcome_fault ended
      exact .failed returned ended
    | panic message => exact absurd ended (returns.outcome_ne_panic x message)
    | nothing => exact .nothing returned ended
    | result _ _ written => exact .value returned ended written
    | mismatch declared rejected =>
      obtain ⟨kind, declared', accepted⟩ := returns.accepts_outcome ended
      cases declared.symm.trans declared'
      exact absurd accepted (Bool.eq_false_iff.mp rejected)
    | undeclared w none =>
      obtain ⟨kind, declared, -⟩ := returns.accepts_outcome ended
      cases none.symm.trans declared
    | foreign _ _ => exact .foreign returned ended

/-- The faults of a call are the function's own, but for a foreign object that cannot go back. -/
theorem Settles.fault {f : BoundaryFault} (settles : e.Settles vm (.error f) vm') :
    f = .unsupported 0 "foreign" ∨ ∃ text, f = .failed text ∧ e.FailsWith text := by
  unfold FailsWith outcome
  cases settles with
  | @panic message returned =>
    rw [returned]
    exact .inr ⟨message, rfl, .inl rfl⟩
  | @failed x text returned ended =>
    rw [returned]
    exact .inr ⟨text, rfl, .inr ended⟩
  | foreign => exact .inl rfl

end Ending

/-- The first of the parameters that cannot be read. -/
theorem Closure.unread (c : Closure) {m n : Machine H} {first : Nat} {f : BoundaryFault}
    {result : Except BoundaryFault Unit}
    (unread : m.decodeFrom first (parameterKinds c.params) = .error f)
    (failed : result = .error f) (same : n = m) :
    ∃ (i : Fin c.params.length) (f : BoundaryFault),
      m.decode (first + i) (c.params.get i).kind = .error f ∧
      (∀ j < i, ∃ v, m.decode (first + j) (c.params.get j).kind = .ok v) ∧
      result = .error f ∧ n = m := by
  obtain ⟨i, kind, asked, unfit, before⟩ := Machine.decodeFrom_error unread
  rw [List.getElem?_map] at asked
  obtain ⟨t, there, rfl⟩ := Option.map_eq_some_iff.mp asked
  obtain ⟨below, rfl⟩ := List.getElem?_eq_some_iff.mp there
  refine ⟨⟨i, below⟩, f, unfit, fun j earlier => ?_, failed, same⟩
  refine before j earlier _ ?_
  rw [List.getElem?_map, List.getElem?_eq_getElem j.isLt]
  rfl

/-- The work of a typed function on values that were converted. -/
theorem Closure.routine_work (c : Closure) (keep : ForeignId → H → H) {values : List HostValue}
    {args : Arguments c.params} (taken : Arguments.take 0 c.params values = .ok args)
    (side : Heap × H) : c.routine.work keep values side =
      ((c.call args side.1).outcome, side.1.setPayloads (c.call args side.1).writes,
        match (c.call args side.1).keeps with
        | some id => keep id side.2
        | none => side.2) := by
  unfold Routine.work routine
  dsimp only
  rw [taken]
  rfl

/-- A call of a typed function: a parameter that cannot be read is the fault, and else the function
is called with what was read. -/
theorem Closure.dispatch_course (keep : ForeignId → H → H) (c : Closure) (m : Machine H) :
    let first := if (m.vm.slot? 0).any Value.isHidden then 1 else 0
    let result := ((c.routine.dispatch keep).run m).1
    let n := ((c.routine.dispatch keep).run m).2
    (∃ (i : Fin c.params.length) (f : BoundaryFault),
      m.decode (first + i) (c.params.get i).kind = .error f ∧
      (∀ j < i, ∃ v, m.decode (first + j) (c.params.get j).kind = .ok v) ∧
      result = .error f ∧ n = m) ∨
    ∃ args, c.Takes m first args ∧
      n.heap = m.heap.setPayloads (c.call args m.heap).writes ∧
      (n.host = match (c.call args m.heap).keeps with
        | some id => keep id m.host
        | none => m.host) ∧
      (c.call args m.heap).Settles m.vm result n.vm := by
  intro first result n
  have start : m.firstArgument = first := m.firstArgument_eq
  have ran : (result, n) =
      dispatchWork (parameterKinds c.params) c.returns.kind? (c.routine.work keep) m :=
    c.routine.dispatch_work keep m
  clear_value first result n
  unfold dispatchWork at ran
  cases read : m.decodeArguments (parameterKinds c.params) with
  | error f =>
    left
    rw [read] at ran
    obtain ⟨failed, same⟩ := Prod.mk.inj ran
    unfold Machine.decodeArguments at read
    rw [start] at read
    exact c.unread read failed same
  | ok values =>
    right
    rw [read] at ran
    unfold Machine.decodeArguments at read
    rw [start] at read
    have reads := Machine.decodeFrom_ok_iff.mp read
    obtain ⟨args, taken, converts⟩ := Arguments.take_converts reads.accepted 0
    dsimp only at ran
    let e := c.call args m.heap
    let side := c.routine.work keep values (m.heap, m.host)
    have worked : side = (e.outcome, m.heap.setPayloads e.writes, _) :=
      c.routine_work keep taken (m.heap, m.host)
    have ended : result = (side.1.land c.returns.kind? (m.withWorked side.2)).1 :=
      (Prod.mk.inj ran).1
    have landed : n = (side.1.land c.returns.kind? (m.withWorked side.2)).2 := (Prod.mk.inj ran).2
    refine ⟨args, c.takes_of_reads reads converts, ?_, ?_, ?_⟩
    · rw [landed, Outcome.land_heap, worked]
      rfl
    · rw [landed, Outcome.land_host, worked]
      rfl
    · have lands := Outcome.land_lands c.returns.kind? (m.withWorked side.2) side.1
      rw [← ended, ← landed, worked] at lands
      exact Ending.settles_of_lands lands

/-- A mismatch of kinds is that of a slot that was read, never of the result. -/
theorem Closure.mismatch_of_slot (keep : ForeignId → H → H) (c : Closure) (m : Machine H)
    {slot : Nat} {expected found : String}
    (mismatch : ((c.routine.dispatch keep).run m).1 =
      .error (.typeMismatch slot expected found)) :
    ∃ i : Fin c.params.length,
      m.decode ((if (m.vm.slot? 0).any Value.isHidden then 1 else 0) + i) (c.params.get i).kind =
        .error (.typeMismatch slot expected found) := by
  obtain ⟨i, f, unread, -, failed, -⟩ | ⟨args, -, -, -, settles⟩ := c.dispatch_course keep m
  · cases failed.symm.trans mismatch
    exact ⟨i, unread⟩
  · rw [mismatch] at settles
    obtain other | ⟨_, other, -⟩ := settles.fault
    · cases other
    · cases other

/-- For every typed function, of parameters and a result of any of the types, and every machine
that it is called on. A value that the kind of a type accepts is always converted to that type, and
a result is always accepted by the kind that was declared for it. Either some parameter cannot be
read from its slot, and then the first such is the fault and nothing has happened; or the function
is called with what was read, each argument converted from its own slot, has its effect, and ends as
it says itself. So a mismatch of kinds is only ever that of a slot that was read, and a text that
the call fails with is only ever the function's own. -/
theorem typed_closures_fit_kinds (keep : ForeignId → H → H) (c : Closure) (m : Machine H) :
    let first := if (m.vm.slot? 0).any Value.isHidden then 1 else 0
    let result := ((c.routine.dispatch keep).run m).1
    let n := ((c.routine.dispatch keep).run m).2
    (∀ (t : ParameterType) v, t.kind.accepts v → ∃ a, t.fromHost v = some a) ∧
    (∀ (r : ReturnType) x v, r.outcome x = .value (some v) →
      ∃ kind, r.kind? = some kind ∧ kind.accepts v) ∧
    ((∃ (i : Fin c.params.length) (f : BoundaryFault),
        m.decode (first + i) (c.params.get i).kind = .error f ∧
        (∀ j < i, ∃ v, m.decode (first + j) (c.params.get j).kind = .ok v) ∧
        result = .error f ∧ n = m) ∨
      ∃ args, c.Takes m first args ∧
        n.heap = m.heap.setPayloads (c.call args m.heap).writes ∧
        (n.host = match (c.call args m.heap).keeps with
          | some id => keep id m.host
          | none => m.host) ∧
        (c.call args m.heap).Settles m.vm result n.vm) ∧
    (∀ slot expected found, result = .error (.typeMismatch slot expected found) →
      ∃ i : Fin c.params.length, m.decode (first + i) (c.params.get i).kind =
        .error (.typeMismatch slot expected found)) ∧
    ∀ text, result = .error (.failed text) →
      ∃ args, c.Takes m first args ∧ (c.call args m.heap).FailsWith text := by
  intro first result n
  have course := c.dispatch_course keep m
  refine ⟨fun t _ => t.fromHost_of_accepts, fun r _ _ => r.accepts_outcome, course,
    fun _ _ _ => c.mismatch_of_slot keep m, fun text failure => ?_⟩
  obtain ⟨i, f, unread, -, failed, -⟩ | ⟨args, takes, -, -, settles⟩ := course
  · cases failed.symm.trans failure
    exact absurd unread (m.decode_ne_failed _ _ text)
  · change Ending.Settles _ _ result _ at settles
    rw [failure] at settles
    obtain other | ⟨_, same, fails⟩ := settles.fault
    · cases other
    · cases same
      exact ⟨args, takes, fails⟩

end ScriptHost
