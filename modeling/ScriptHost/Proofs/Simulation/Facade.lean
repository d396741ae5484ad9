import ScriptHost.Program.Client
import ScriptHost.Proofs.Simulation.Invocation

/-! What an embedding program asks of related machines: scripts run, variables looked up, and
methods called come to the same. A run that ends with a fault is led back to its cause, after which
the machines are related as before the run. -/

namespace ScriptHost

/-- Two runs that the host asked for ended with the same report. -/
inductive Simulation.Concluded {H₁ H₂ : Type} (S : Simulation H₁ H₂) (ρ : Renaming) :
    Except InterpretError Unit → Machine H₁ → Except InterpretError Unit → Machine H₂ → Prop
  | ok {m n} : S.going ρ m n → Concluded S ρ (.ok ()) m (.ok ()) n
  | compile {errors m n} : S.going ρ m n →
    Concluded S ρ (.error (.compile errors)) m (.error (.compile errors)) n
  | runtime {e m n} : S.fault e.fault ρ m n →
    Concluded S ρ (.error (.runtime e)) m (.error (.runtime e)) n

/-- The laws of a simulation between two machines whose hosts run scripts: faults are reported. -/
structure Reporting {H₁ H₂ : Type} (S : Simulation H₁ H₂) (host₁ : Host H₁) (host₂ : Host H₂) :
    Prop extends Lawful S host₁ host₂ where
  fault_report : ∀ {f ρ m n}, S.fault f ρ m n → ∀ r,
    S.fault f ρ (m.onHost (host₁.callbacks.report r)).2 (n.onHost (host₂.callbacks.report r)).2

/-- The laws of a simulation between two machines whose hosts call methods too, on what they put
into the window. -/
structure Driven {H₁ H₂ : Type} (S : Simulation H₁ H₂) (host₁ : Host H₁) (host₂ : Host H₂) : Prop
    extends Reporting S host₁ host₂ where
  slots : ∀ {ρ m n}, S.going ρ m n → Value.AllAlike ρ m.vm.slots n.vm.slots
  setSlot : ∀ {ρ m n}, S.going ρ m n → ∀ slot {v w}, v.Alike ρ w →
    S.going ρ (m.onVm (·.setSlot slot v)) (n.onVm (·.setSlot slot w))

/-- The laws of a simulation between the machines of programs, with what an embedding program does
on its own. -/
structure Attended (S : Simulation Surroundings Surroundings) : Prop
    extends Nesting S Surroundings.host Surroundings.host,
      Driven S Surroundings.host Surroundings.host where
  ensureSlots : ∀ {ρ m n}, S.going ρ m n → ∀ count,
    S.going ρ (m.onVm (·.ensureSlots count)) (n.onVm (·.ensureSlots count))
  rewind : ∀ {ρ m n}, S.going ρ m n →
    S.going ρ (m.onVm fun vm => { vm with depth := 0 }) (n.onVm fun vm => { vm with depth := 0 })
  fault_pending : ∀ {f ρ m n}, S.fault f ρ m n → m.host.record.pending = n.host.record.pending
  settle : ∀ {ρ m n}, S.going ρ m n →
    S.going ρ { m with host := m.host.setPending none } { n with host := n.host.setPending none }
  fault_settle : ∀ {f ρ m n}, S.fault f ρ m n →
    S.going ρ { m with host := m.host.setPending none } { n with host := n.host.setPending none }

namespace Engine

variable {H₁ H₂ : Type} {S : Simulation H₁ H₂} {host₁ : Host H₁} {host₂ : Host H₂}
  {e₁ : Engine H₁} {e₂ : Engine H₂} {ρ : Renaming}

/-- A machine after some reports. -/
def reported {H : Type} (engine : Engine H) (m : Machine H) (rs : List Report) : Machine H :=
  rs.foldl (fun m r => (m.onHost (engine.callbacks.report r)).2) m

theorem reportAll_run {H : Type} (engine : Engine H) (rs : List Report) (m : Machine H) :
    engine.reportAll rs m = .ok () (engine.reported m rs) := by
  induction rs generalizing m with
  | nil => rfl
  | cons r rest ih => exact ih _

/-- Some reports made, and then an answer given. -/
theorem reporting_run {H α : Type} (engine : Engine H) (rs : List Report) (a : α) (m : Machine H) :
    (do
      engine.reportAll rs
      return a : Live H α) m = .ok a (engine.reported m rs) := by
  exact Live.bind_run (reportAll_run engine rs m)

theorem fault_reported (laws : Reporting S host₁ host₂) (engines : Engine.Alike S host₁ host₂ e₁ e₂)
    {f : RuntimeFault} {m : Machine H₁} {n : Machine H₂} (h : S.fault f ρ m n)
    (rs : List Report) : S.fault f ρ (e₁.reported m rs) (e₂.reported n rs) := by
  induction rs generalizing m n with
  | nil => exact h
  | cons r rest ih =>
    have told := laws.fault_report h r
    rw [← engines.callbacks₁, ← engines.callbacks₂] at told
    exact ih told

/-- A fault reported, and given to whoever asked for the run. -/
private theorem failed_sim (laws : Reporting S host₁ host₂)
    (engines : Engine.Alike S host₁ host₂ e₁ e₂) {e : RuntimeError} {m : Machine H₁}
    {n : Machine H₂} (h : S.fault e.fault ρ m n) :
    S.Ended ρ S.Concluded
      ((do
        e₁.reportAll e.reports
        return .error (.runtime e) : Live H₁ (Except InterpretError Unit)) m)
      ((do
        e₂.reportAll e.reports
        return .error (.runtime e) : Live H₂ (Except InterpretError Unit)) n) := by
  rw [reporting_run, reporting_run]
  exact .ok le_rfl (.runtime (fault_reported laws engines h _))

theorem interpret_sim (laws : Reporting S host₁ host₂)
    (engines : Engine.Alike S host₁ host₂ e₁ e₂)
    {moduleName source : String} (covers : S.Covers moduleName source) {m : Machine H₁}
    {n : Machine H₂} (hmn : S.going ρ m n)
    (rewound : S.going ρ (m.onVm (·.openModule moduleName)) (n.onVm (·.openModule moduleName)) →
      S.going ρ (m.onVm fun vm => { vm.openModule moduleName with depth := 0 })
        (n.onVm fun vm => { vm.openModule moduleName with depth := 0 })) :
    S.Ended ρ S.Concluded (e₁.interpret moduleName source m)
      (e₂.interpret moduleName source n) := by
  unfold interpret
  cases parsed : parseModule source with
  | error errors =>
    refine (reportAll_sim laws.toLawful engines _ m n hmn).bind fun _ h => ?_
    exact .ok le_rfl (.compile h.1)
  | ok body =>
    have opened := rewound (laws.openModule hmn moduleName)
    have ran := runModule_sim laws.toLawful engines moduleName body (covers body parsed) _ _ opened
    refine ran.bind ?_
    rintro σ _ m _ n _ (⟨hmn, _⟩ | h)
    · exact .ok le_rfl (.ok hmn)
    · exact failed_sim laws engines h

/-- The message that a call sends: receiver and arguments are read from the window. -/
def sent {H : Type} (engine : Engine H) (signature : String) : Run H Value := do
  match (← get).vm.slots with
  | receiver :: rest =>
    if signatureArity signature ≤ rest.length then
      engine.send receiver signature (rest.take (signatureArity signature))
    else fault (.tooFewSlots signature (signatureArity signature + 1))
  | [] => fault (.tooFewSlots signature (signatureArity signature + 1))

theorem sent_run {H : Type} (engine : Engine H) (signature : String) (m : Machine H) :
    (engine.sent signature).run m =
      (match m.vm.slots with
      | receiver :: rest =>
        if signatureArity signature ≤ rest.length then
          engine.send receiver signature (rest.take (signatureArity signature))
        else fault (.tooFewSlots signature (signatureArity signature + 1))
      | [] => fault (.tooFewSlots signature (signatureArity signature + 1)) : Run H Value).run m :=
  rfl

theorem call_run {H : Type} (engine : Engine H) (signature : String) (m : Machine H) :
    engine.call signature m =
      EStateM.bind (engine.sent signature).run (fun result => match result with
        | .ok v => do
          modify fun m => m.onVm (·.setSlot 0 v)
          return .ok ()
        | .error e => do
          engine.reportAll e.reports
          return .error (.runtime e)) m :=
  rfl

/-- A call that ended with a fault sent a message that came to it; then it was reported. -/
theorem call_failed {H : Type} {engine : Engine H} {signature : String} {m m' : Machine H}
    {e : RuntimeError} (failed : engine.call signature m = .ok (.error (.runtime e)) m') :
    ∃ n, (engine.sent signature).run m = .ok (.error e) n ∧ m' = engine.reported n e.reports := by
  rw [call_run] at failed
  obtain ⟨result, n, ran, reported⟩ := Live.bind_inv failed
  cases result with
  | ok v => cases reported
  | error e' =>
    dsimp only at reported
    rw [reporting_run] at reported
    cases reported
    exact ⟨n, ran, rfl⟩

theorem sent_sim (laws : Driven S host₁ host₂) (engines : Engine.Alike S host₁ host₂ e₁ e₂)
    (signature : String) : RunSim S ρ .alike (e₁.sent signature) (e₂.sent signature) := by
  intro m n hmn
  rw [sent_run, sent_run]
  have slots := laws.slots hmn
  revert slots
  generalize m.vm.slots = vs, n.vm.slots = ws
  rintro (_ | ⟨hv, hvs⟩)
  · exact laws.plainFault _ rfl m n hmn
  · dsimp only
    rw [hvs.length_eq]
    split
    · exact send_sim engines hv signature (List.forall₂_take _ hvs) m n hmn
    · exact laws.plainFault _ rfl m n hmn

theorem call_sim (laws : Driven S host₁ host₂) (engines : Engine.Alike S host₁ host₂ e₁ e₂)
    (signature : String) {m : Machine H₁} {n : Machine H₂} (hmn : S.going ρ m n) :
    S.Ended ρ S.Concluded (e₁.call signature m) (e₂.call signature n) := by
  rw [call_run, call_run]
  refine (sent_sim laws engines signature m n hmn).bind ?_
  rintro σ _ m _ n _ (⟨hmn, hvw⟩ | h)
  · exact .ok le_rfl (.ok (laws.setSlot hmn 0 hvw))
  · exact failed_sim laws.toReporting engines h

end Engine

variable {S : Simulation Surroundings Surroundings} {e₁ e₂ : Engine Surroundings} {ρ : Renaming}

/-- Engines that embedding programs use, and that do the same. -/
abbrev Attended.Engines (S : Simulation Surroundings Surroundings)
    (e₁ e₂ : Engine Surroundings) : Prop :=
  Engine.Alike S Surroundings.host Surroundings.host e₁ e₂

namespace Client

theorem settled_sim (laws : Attended S) {x y : Client (Except InterpretError Unit)}
    (h : ∀ m n, S.going ρ m n → S.Ended ρ S.Concluded (x m) (y n)) :
    LiveSim S ρ .same (settled x) (settled y) := by
  intro m n hmn
  refine (h _ _ (laws.settle hmn)).bind ?_
  rintro σ _ m _ n _ (hmn | hmn | hmn)
  · exact .ok le_rfl ⟨laws.settle hmn, rfl⟩
  · exact .ok le_rfl ⟨laws.settle hmn, rfl⟩
  · refine .ok le_rfl ⟨laws.fault_settle hmn, ?_⟩
    simp only [Results.same, laws.fault_pending hmn]

theorem interpret_sim (laws : Attended S) (engines : Attended.Engines S e₁ e₂) {source : String}
    (covers : S.Covers entryModule source) :
    LiveSim S ρ .same (interpret e₁ source) (interpret e₂ source) :=
  settled_sim laws fun _ _ hmn =>
    Engine.interpret_sim laws.toReporting engines covers hmn laws.rewind

theorem slot?_setSlot (vm : Vm) (slot : Nat) (v : Value) :
    (vm.setSlot slot v).slot? slot = some v := by
  have wide : slot < (vm.ensureSlots (slot + 1)).slots.length := by
    simp only [Vm.ensureSlots, List.length_append, List.length_replicate]
    omega
  exact List.getElem?_set_self wide

theorem lookup_sim (laws : Attended S) (name : String) :
    LiveSim S ρ (fun σ x y => Option.Rel (Value.Alike σ) x y) (lookup name) (lookup name) := by
  refine LiveSim.bind (P := .same) (.modify fun _ _ hmn => laws.ensureSlots hmn 1) fun _ _ => ?_
  refine .get_bind fun m n hmn => ?_
  unfold Vm.readVariable?
  obtain ⟨hm, hn⟩ | ⟨v, w, hm, hn, hvw⟩ := optionRel_cases (laws.binding? hmn entryModule name)
  · rw [hm, hn]
    exact .ok le_rfl ⟨hmn, .none⟩
  · rw [hm, hn]
    refine .ok le_rfl ⟨laws.setSlot hmn 0 hvw, ?_⟩
    rw [slot?_setSlot, slot?_setSlot]
    exact .some hvw

/-- What the host puts into a slot is no object, and so the same under every renaming. -/
theorem toValue_alike {value : HostValue} {slot : Nat} {v : Value}
    (h : value.toValue slot = .ok v) : v.Alike ρ v := by
  cases value with
  | foreign _ => cases h
  | null => cases h; exact .null
  | bool b => cases h; exact .bool b
  | number x => cases h; exact .number x
  | text s => cases h; exact .string s

theorem encodeFrom_sim (laws : Attended S) (slot : Nat) (values : List HostValue) :
    LiveSim S ρ .same (encodeFrom slot values) (encodeFrom slot values) := by
  induction values generalizing ρ slot with
  | nil => exact .pure rfl
  | cons value rest ih =>
    refine .get_bind fun m n hmn => ?_
    unfold Machine.encode
    cases h : value.toValue slot with
    | error f => exact .ok le_rfl ⟨hmn, rfl⟩
    | ok v => exact ih (slot + 1) _ _ (laws.setSlot hmn slot (toValue_alike h))

/-- What the host can see of a slot, whatever it expects there, does not depend on the places of
objects. -/
theorem decode_any_eq (laws : Attended S) {m n : Machine Surroundings} (hmn : S.going ρ m n)
    (slot : Nat) : m.decode slot .any = n.decode slot .any := by
  unfold Machine.decode
  obtain ⟨hm, hn⟩ | ⟨v, w, hm, hn, hvw⟩ :=
    optionRel_cases (forall₂_getElem? (laws.slots hmn) slot)
  · rw [Vm.slot?, Vm.slot?, hm, hn]
  · rw [Vm.slot?, Vm.slot?, hm, hn]
    cases hvw <;> rfl

/-- A call on a value, step by step. -/
theorem call_eq (engine : Engine Surroundings) (receiver : Value) (signature : String)
    (params : List HostValue) :
    call engine receiver signature params = (do
      if params.length < signatureArity signature then
        return .error (.missingArgument (params.length + 1))
      modify fun m => m.onVm fun vm => (vm.ensureSlots (params.length + 1)).setSlot 0 receiver
      match ← encodeFrom 1 params with
      | .error f => return .error f
      | .ok () =>
        match ← settled (engine.call signature) with
        | .error f => return .error f
        | .ok () =>
          return match (← get).decode 0 .any with
            | .error f => .error f
            | .ok .null => .ok none
            | .ok value => .ok (some value)) :=
  rfl

theorem call_sim (laws : Attended S) (engines : Attended.Engines S e₁ e₂) {v w : Value}
    (hv : v.Alike ρ w) (signature : String) (params : List HostValue) :
    LiveSim S ρ .same (call e₁ v signature params) (call e₂ w signature params) := by
  rw [call_eq, call_eq]
  by_cases short : params.length < signatureArity signature
  · rw [if_pos short, if_pos short]
    exact .pure rfl
  rw [if_neg short, if_neg short]
  refine LiveSim.bind (P := .same) (.modify fun _ _ hmn => ?_) fun _ _ => ?_
  · exact laws.setSlot (laws.ensureSlots hmn (params.length + 1)) 0 hv
  refine (encodeFrom_sim laws 1 params).bind fun _ same => ?_
  obtain rfl := same
  split
  · exact .pure rfl
  · refine LiveSim.bind
      (settled_sim laws fun _ _ hmn => Engine.call_sim laws.toDriven engines signature hmn) ?_
    rintro σ a _ _ rfl
    cases a with
    | error f => exact .pure rfl
    | ok _ =>
      refine .get_bind fun m n hmn => ?_
      rw [decode_any_eq laws hmn 0]
      exact LiveSim.pure (P := .same) rfl m n hmn

end Client
end ScriptHost
