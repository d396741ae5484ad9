import ScriptHost.Proofs.Binding.Moment

/-! What foreign objects carry. Every foreign object has a payload that the maker of its class made,
of the host type that the class was bound with, and keeps that type whatever is registered later. A
host function that asks for a host type gets payloads of that type alone: the check could be made
once more at every call, and nothing would change. An object of another type stops the call before
the function is run. -/

namespace ScriptHost

/-! ### Arguments that do not fit -/

/-- The host type that a kind asks for, with or without null. -/
def Kind.hostType? : Kind → Option HostType
  | .foreign type => some type
  | .optional inner => inner.hostType?
  | _ => none

theorem Heap.crossing_mismatch {h : Heap} {slot : Nat} {id : ForeignId} {kind : Kind}
    {type : HostType} (asks : kind.hostType? = some type)
    (other : (h.foreignRef id).hostType ≠ some type) :
    h.crossing slot (.foreign id) kind =
      .error (.typeMismatch slot (Kind.foreign type).text
        ("foreign " ++ (h.foreignRef id).className)) := by
  induction kind with
  | foreign own =>
    cases asks
    unfold crossing
    exact if_neg other
  | optional inner ih => exact ih asks
  | bool => cases asks
  | number _ => cases asks
  | string => cases asks
  | any => cases asks

namespace Machine

variable {H : Type} {m : Machine H}

/-- Arguments are read in order, up to the first that does not fit. -/
theorem decodeFrom_stops {slot i : Nat} {params : List Kind} {kind : Kind} {f : BoundaryFault}
    (asked : params[i]? = some kind) (unfit : m.decode (slot + i) kind = .error f) :
    ∃ j ≤ i, ∃ k g, params[j]? = some k ∧
      (∀ j' < j, ∀ k', params[j']? = some k' → ∃ v, m.decode (slot + j') k' = .ok v) ∧
      m.decode (slot + j) k = .error g ∧ m.decodeFrom slot params = .error g := by
  induction params generalizing slot i with
  | nil => cases asked
  | cons first rest ih =>
    unfold decodeFrom
    cases read : m.decode slot first with
    | error g =>
      exact ⟨0, Nat.zero_le i, first, g, rfl, fun j' below => absurd below (Nat.not_lt_zero j'),
        read, rfl⟩
    | ok v =>
      cases i with
      | zero =>
        cases asked
        rw [Nat.add_zero, read] at unfit
        cases unfit
      | succ i =>
        rw [← Nat.add_assoc, Nat.add_right_comm] at unfit
        obtain ⟨j, le, k, g, hk, before, stops, whole⟩ := ih asked unfit
        refine ⟨j + 1, Nat.succ_le_succ le, k, g, hk, ?_, ?_, ?_⟩
        · intro j' below k' hk'
          cases j' with
          | zero =>
            cases hk'
            exact ⟨v, read⟩
          | succ j' =>
            obtain ⟨w, hw⟩ := before j' (Nat.lt_of_succ_lt_succ below) k' hk'
            exact ⟨w, by rw [← Nat.add_assoc, Nat.add_right_comm]; exact hw⟩
        · rw [← Nat.add_assoc, Nat.add_right_comm]
          exact stops
        · change (Except.bind (m.decodeFrom (slot + 1) rest) _ : Except BoundaryFault _) = _
          rw [whole]
          rfl

end Machine

/-- A call whose arguments do not fit stops the script, and leaves nothing but the reason. -/
theorem callForeign_unfit {engine : Engine Surroundings} {m : Machine Surroundings}
    {f : HostFunction} {r : Routine} (leads : m.host.registry.Leads f (.routine r))
    {receiver : Value} {args : List Value} {why : BoundaryFault}
    (unfit : (m.windowed receiver args).decodeArguments r.params = .error why) :
    (callForeign Surroundings.host engine f receiver args).run m =
      .ok (.error ⟨.aborted why.message, []⟩) (m.remembering why) := by
  obtain ⟨point, rfl, entry⟩ := leads
  rw [callForeign_run, Surroundings.runs_entry (m := m.windowed receiver args) entry,
    Surroundings.runEntry_routine, unfit]
  rfl

/-! ### Guards -/

def Step.guarded : Step → Step
  | .on name (.register member r) => .on name (.register member r.guarded)
  | s => s

theorem Step.guardedBy_guarded (s : Step) : s.GuardedBy True s.guarded := by
  cases s with
  | on name errand =>
    cases errand with
    | register member r => exact .guarded name member r trivial
    | _ => exact .same _
  | _ => exact .same _

namespace Program

/-- A session that registers makers of their host types alone, beside the same with guards. -/
theorem guarded_session (files : Files) {ss : List Step} (typed : ∀ s ∈ ss, s.Typed) :
    Stepped True (sessionTexts files ss) (start files) ((start files).steps ss)
      ((start files).steps (ss.map Step.guarded)) := by
  have sound : (start files).Sound (sessionTexts files ss) :=
    sound_start fun candidate read => .inr ⟨_, _, candidate, read⟩
  refine (sound.paired fun _ => typed_start files).stepsOn (serves_engine _) ?_ ?_ fun _ => typed
  · rw [List.forall₂_map_right_iff, List.forall₂_same]
    exact fun s _ => s.guardedBy_guarded
  · intro s hs text run
    exact .inl ⟨rfl, s, hs, run⟩

/-- Every foreign object carries what the maker of its class made, of the host type that the class
was bound with. Whatever crosses the boundary as a foreign kind carries a payload of that type, so
that guards at every host function change no report. An object of another type ends the call with
the fault of the first argument that does not fit, its own unless there is one before it; the
function does nothing, and the fault is what is reported. No class or object changes its type later.
-/
theorem payloads_keep_their_types (files : Files) (ss : List Step) (typed : ∀ s ∈ ss, s.Typed) :
    (∀ id o, (after files ss).heap.foreign? id = some o →
      ∃ c maker, (after files ss).heap.class? o.classId = some c ∧ c.isForeign ∧
        c.binding.MadeBy (after files ss).registry maker ∧ maker.Typed ∧
        o.payload.type = maker.type) ∧
    ((start files).steps (ss.map Step.guarded)).1 = ((start files).steps ss).1 ∧
    (∀ (name : String) (m : Machine Surroundings),
      (after files ss).Moment (fun _ _ => True) name m →
      ∀ (receiver : Value) (args : List Value) (params : List Kind) (values : List HostValue),
      (m.windowed receiver args).decodeArguments params = .ok values →
      holdsAll m.heap params values) ∧
    (∀ (name : String) (m : Machine Surroundings),
      (after files ss).Moment (fun _ _ => True) name m →
      ∀ (depth : Nat) (f : HostFunction) (r : Routine) (receiver : Value) (args : List Value)
        (i : Nat) (kind : Kind) (type : HostType) (id : ForeignId) (o : ForeignObject),
      (after files ss).registry.Leads f (.routine r) → r.params[i]? = some kind →
      kind.hostType? = some type →
      (m.windowed receiver args).vm.slot? ((m.windowed receiver args).firstArgument + i) =
        some (.foreign id) →
      m.heap.foreign? id = some o → o.payload.type ≠ type →
      ∃ why, ∃ j ≤ i, ∃ k, r.params[j]? = some k ∧
        (∀ j' < j, ∀ k', r.params[j']? = some k' → ∃ v, (m.windowed receiver args).decode
          ((m.windowed receiver args).firstArgument + j') k' = .ok v) ∧
        (m.windowed receiver args).decode ((m.windowed receiver args).firstArgument + j) k =
          .error why ∧
        (j = i → why = .typeMismatch ((m.windowed receiver args).firstArgument + i)
          (Kind.foreign type).text ("foreign " ++ (m.heap.foreignRef id).className)) ∧
        (callForeign Surroundings.host (Surroundings.host.engine depth) f receiver args).run m =
          .ok (.error ⟨.aborted why.message, []⟩) (m.remembering why)) ∧
    (∀ (name : String) (m m' : Machine Surroundings) (run : Client (Except InterpretError Unit))
      (e : RuntimeError) (message : String),
      (after files ss).Moment (fun _ _ => True) name m → Asked (fun _ _ => True) run →
      run m = .ok (.error (.runtime e)) m' → e.fault = .aborted message →
      ∃ why, message = why.message ∧ Client.settled run m =
        .ok (.error why) { m' with host := m'.host.setPending none }) ∧
    ∀ later : List Step, (after files ss).heap.KeptIn (after files (ss ++ later)).heap := by
  have stepped := guarded_session files typed
  have sound : (after files ss).Sound fun _ _ => True := sound_after fun _ _ _ => trivial
  have ofTypes : (after files ss).registry.Typed := stepped.paired.typed trivial
  refine ⟨?_, stepped.report.symm, ?_, ?_, ?_, fun later => (leadsTo_after files ss later).heap⟩
  · intro id o found
    obtain ⟨c, maker, hc, foreign, made, type⟩ := sound.heap.objects found
    obtain ⟨f, binding, point, entry, there⟩ := made
    refine ⟨c, maker, hc, foreign, ⟨f, binding, point, entry, there⟩, ?_, type ofTypes⟩
    exact ofTypes point maker there
  · intro name m moment receiver args params values read
    exact (m.windowed receiver args).decodeArguments_holds moment.sound ofTypes read
  · intro name m moment depth f r receiver args i kind type id o leads asked asks slot there other
    have bound := moment.sound.hostType_eq ofTypes there
    have mismatch : (m.windowed receiver args).decode
        ((m.windowed receiver args).firstArgument + i) kind = .error (.typeMismatch
          ((m.windowed receiver args).firstArgument + i) (Kind.foreign type).text
          ("foreign " ++ (m.heap.foreignRef id).className)) := by
      unfold Machine.decode
      rw [slot]
      refine Heap.crossing_mismatch asks ?_
      change (m.heap.foreignRef id).hostType ≠ some type
      rw [bound]
      exact fun same => other (Option.some.inj same)
    obtain ⟨j, le, k, why, hk, before, stops, whole⟩ := Machine.decodeFrom_stops asked mismatch
    refine ⟨why, j, le, k, hk, before, stops, ?_, callForeign_unfit (moment.registry ▸ leads) whole⟩
    rintro rfl
    rw [asked] at hk
    cases hk
    rw [mismatch] at stops
    cases stops
    rfl
  · intro name m m' run e message moment asked ran stopped
    have blamed := moment.blamed sound asked ran
    rw [stopped] at blamed
    obtain ⟨why, pending, same⟩ := blamed
    refine ⟨why, same, ?_⟩
    rw [Client.settled_run moment.quiet ran, pending]
    rfl

/-- A function that asks for a string and a meter gets a cell instead of the meter, twice. -/
def mixedUp : List Step := [
  .machine "a" false,
  .on "a" (.registerClass "Cell" ⟨.i64, .ok (.i64 7)⟩),
  .on "a" (.register "static Meter.read(_,_)"
    (.described [.string, .foreign .u64] none .nothing)),
  .on "a" (.interpret "foreign class Cell \x7b\n  construct new() \x7b\x7d\n\x7d"),
  .on "a" (.interpret "class Meter \x7b\n  foreign static read(a, b)\n\x7d"),
  .on "a" (.interpret "Meter.read(\"x\", Cell.new())"),
  .on "a" (.interpret "Meter.read([1], Cell.new())")]

theorem mixedUp_typed : ∀ s ∈ mixedUp, s.Typed := by
  intro s hs name className maker same
  rw [mixedUp] at hs
  simp only [List.mem_cons, List.not_mem_nil, or_false] at hs
  obtain rfl | rfl | rfl | rfl | rfl | rfl | rfl := hs <;> cases same
  rintro payload ⟨⟩
  rfl

/-- The cell has the type of its maker, and guards change nothing. -/
theorem payloads_keep_their_types_mixedUp :
    (∀ s ∈ mixedUp, s.Typed) ∧
    ((after noFiles mixedUp).heap.foreign? 0).map (·.payload.type) = some .i64 ∧
    ((start noFiles).steps (mixedUp.map Step.guarded)).1 = ((start noFiles).steps mixedUp).1 ∧
    ((start noFiles).steps mixedUp).1.map StepReport.fault? = [none, none, none, none, none,
      some (.typeMismatch 2 "foreign u64" "foreign Cell"), some (.unsupported 1 "list")] :=
  ⟨mixedUp_typed, by decide +kernel,
    (payloads_keep_their_types noFiles mixedUp mixedUp_typed).2.1, by decide +kernel⟩

/-- With a list before it, an object of another type is not what the call is stopped for. -/
theorem mixedUp_not_mismatch :
    ((after noFiles mixedUp).heap.foreign? 1).map (·.payload.type) = some .i64 ∧
    ((start noFiles).steps mixedUp).1[6]?.bind StepReport.fault? = some (.unsupported 1 "list") ∧
    ∀ slot expected found, ((start noFiles).steps mixedUp).1[6]?.bind StepReport.fault? ≠
      some (.typeMismatch slot expected found) := by
  have reported : ((start noFiles).steps mixedUp).1[6]?.bind StepReport.fault? =
      some (.unsupported 1 "list") := by decide +kernel
  refine ⟨by decide +kernel, reported, fun slot expected found same => ?_⟩
  rw [reported] at same
  cases same

end Program
end ScriptHost
