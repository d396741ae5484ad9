import ScriptHost.Proofs.Binding.Provenance
import ScriptHost.Proofs.Isolation.Routines
import ScriptHost.Proofs.Simulation.Facade

/-! A machine among others and the same machine alone. The two runs are alike up to the places of
objects and to entry points, and in the process with others the run touches nothing that is not the
machine's own. -/

namespace ScriptHost

/-- A run among others beside the run alone: the registration tables of the two processes, and the
pairs and the heap that the run among others starts from. -/
structure Neighbours where
  first : Registry
  second : Registry
  uniform : first.Uniform
  pairs : Renaming
  start : Heap

namespace Neighbours

variable {T : Neighbours} {ρ σ : Renaming} {m n : Machine Surroundings} {v w : Value}

variable (T) in
structure Holds (ρ : Renaming) (m n : Machine Surroundings) : Prop where
  heap : m.heap.Alike T.first T.second ρ n.heap
  grown : Heap.Grown T.pairs T.start ρ m.heap
  vm : m.vm.Alike ρ n.vm
  core : m.HasCore
  host : m.host.Alike T.first T.second n.host

variable (T) in
def simulation : Simulation Surroundings Surroundings where
  written _ _ := True
  going := T.Holds
  fault _ := T.Holds
  halt _ := T.Holds

theorem Holds.onVm (h : T.Holds ρ m n) {f g : Vm → Vm} (hfg : (f m.vm).Alike ρ (g n.vm))
    (core : (f m.vm).core = m.vm.core) : T.Holds ρ (m.onVm f) (n.onVm g) := by
  refine ⟨h.heap, h.grown, hfg, fun c => ?_, h.host⟩
  have same : (f m.vm).coreClass c = m.vm.coreClass c := by
    cases c <;> simp only [Vm.coreClass, core]
  change m.heap.class? ((f m.vm).coreClass c) = _
  rw [same]
  exact h.core c

theorem Holds.onHost (h : T.Holds ρ m n) {x y : Surroundings}
    (hxy : x.Alike T.first T.second y) : T.Holds ρ { m with host := x } { n with host := y } :=
  ⟨h.heap, h.grown, h.vm, h.core, hxy⟩

theorem Holds.withHeap (h : T.Holds ρ m n) (le : ρ ≤ σ) {h' k' : Heap}
    (alike : h'.Alike T.first T.second σ k') (grown : Heap.Grown T.pairs T.start σ h')
    (kept : ∀ {id c}, m.heap.class? id = some c → h'.class? id = some c) :
    T.Holds σ { m with heap := h' } { n with heap := k' } :=
  ⟨alike, grown, h.vm.mono le, fun c => kept (h.core c), h.host⟩

/-! ### Reading -/

theorem Holds.classOf (h : T.Holds ρ m n) (hv : v.Alike ρ w) :
    ρ.classes (m.classOf v) (n.classOf w) := h.vm.classOf h.heap hv

theorem Holds.method? (h : T.Holds ρ m n) (hv : v.Alike ρ w) (signature : String) :
    Option.Rel (Method.Matches T.first T.second) (m.method? v signature)
      (n.method? w signature) := by
  obtain ⟨c, d, hc, hd, hcd⟩ := h.heap.class? (h.classOf hv)
  rw [Machine.method?_of_table hc, Machine.method?_of_table hd]
  have sort : w.isClass = v.isClass := by
    cases hv <;> rfl
  rw [sort]
  exact hcd.table v.isClass signature

/-! ### Host functions -/

theorem Holds.stop (h : T.Holds ρ m n) (f : BoundaryFault) :
    T.Holds ρ (Surroundings.stop m f) (Surroundings.stop n f) := by
  have stopped := h.onVm (f := fun vm => { vm with abort := some f.message })
    (g := fun vm => { vm with abort := some f.message })
    ⟨h.vm.core, h.vm.modules, h.vm.slots, h.vm.returnWritten, rfl, h.vm.depth⟩ rfl
  exact stopped.onHost (h.host.setPending (some f))

theorem Holds.mark (h : T.Holds ρ m n) {x y : Effect} (hxy : x.Alike ρ.foreigns y) :
    T.Holds ρ (x.mark Surroundings.keep m) (y.mark Surroundings.keep n) := by
  obtain ⟨alike, grown⟩ := h.heap.setPayloads h.grown hxy.writes
  have written := h.withHeap le_rfl alike grown fun {id c} found => by
    unfold Heap.class?
    rw [Heap.setPayloads_classes]
    exact found
  unfold Effect.mark
  have host := h.host
  cases x.keeps with
  | none =>
    cases y.keeps with
    | none => exact written
    | some b => exact written.onHost ⟨host.first, host.second, host.record, host.files, host.log⟩
  | some a =>
    cases y.keeps with
    | none => exact written.onHost ⟨host.first, host.second, host.record, host.files, host.log⟩
    | some b => exact written.onHost (host.keep a b)

theorem Holds.setSlot (h : T.Holds ρ m n) (slot : Nat) (hv : v.Alike ρ w) :
    T.Holds ρ (m.onVm (·.setSlot slot v)) (n.onVm (·.setSlot slot w)) :=
  h.onVm (h.vm.setSlot slot hv) rfl

theorem Holds.encodeResult (h : T.Holds ρ m n) (returns : Option Kind) {x y : HostValue}
    (hxy : x.Alike ρ.foreigns y) :
    ExceptRel (T.Holds ρ) (m.encodeResult returns x) (n.encodeResult returns y) := by
  unfold Machine.encodeResult Machine.encode
  rw [hxy.typeName]
  cases returns with
  | none => exact .error _
  | some kind =>
    dsimp only
    rw [hxy.accepts kind]
    split
    · have put := hxy.toValue (ρ := ρ) 0
      revert put
      generalize x.toValue 0 = a, y.toValue 0 = b
      rintro (hvw | f)
      · exact .ok (h.setSlot 0 hvw)
      · exact .error f
    · exact .error _

theorem Holds.land (h : T.Holds ρ m n) (returns : Option Kind) {x y : Outcome}
    (hxy : x.Alike ρ.foreigns y) :
    (x.land returns m).1 = (y.land returns n).1 ∧
      T.Holds ρ (x.land returns m).2 (y.land returns n).2 := by
  unfold Outcome.land
  cases hxy with
  | fault f => exact ⟨rfl, h⟩
  | panic message => exact ⟨rfl, h⟩
  | value hxy =>
    obtain ⟨rfl, rfl⟩ | ⟨a, b, rfl, rfl, hab⟩ := optionRel_cases hxy
    · exact ⟨rfl, h⟩
    · have encoded := h.encodeResult returns hab
      dsimp only
      revert encoded
      generalize m.encodeResult returns a = x, n.encodeResult returns b = y
      rintro (hmn | f)
      · exact ⟨rfl, hmn⟩
      · exact ⟨rfl, h⟩

theorem Holds.runRoutine (h : T.Holds ρ m n) {r : Routine} (uniform : r.Uniform) :
    T.Holds ρ (Surroundings.runEntry (.routine r) m) (Surroundings.runEntry (.routine r) n) := by
  rw [Surroundings.runEntry_routine, Surroundings.runEntry_routine]
  have read := Machine.decodeArguments_alike h.heap h.vm.slots r.params
  revert read
  generalize m.decodeArguments r.params = a, n.decodeArguments r.params = b
  rintro (@⟨xs, ys, hxy⟩ | f)
  · dsimp only
    have effect := uniform ρ.foreigns m.heap n.heap xs ys h.heap.foreigns.one h.heap.payload hxy
    obtain ⟨same, landed⟩ := (h.mark effect).land r.returns effect.outcome
    revert same landed
    generalize (r.call xs m.heap).outcome.land r.returns _ = a,
      (r.call ys n.heap).outcome.land r.returns _ = b
    obtain ⟨x, m'⟩ := a
    obtain ⟨y, n'⟩ := b
    rintro rfl landed
    cases x with
    | ok _ => exact landed
    | error f => exact landed.stop f
  · exact h.stop f

theorem Holds.slotForeignClass? (h : T.Holds ρ m n) (slot : Nat) :
    Option.Rel ρ.classes (m.slotForeignClass? slot) (n.slotForeignClass? slot) := by
  unfold Machine.slotForeignClass? Vm.slot?
  obtain ⟨hm, hn⟩ | ⟨v, w, hm, hn, hvw⟩ := optionRel_cases (forall₂_getElem? h.vm.slots slot)
  · rw [hm, hn]
    exact .none
  · rw [hm, hn]
    cases hvw with
    | classObject ab =>
      obtain ⟨c, d, hc, hd, hcd⟩ := h.heap.class? ab
      dsimp only
      rw [hc, hd]
      dsimp only
      rw [hcd.isForeign]
      split
      · exact .some ab
      · exact .none
    | _ => exact .none

/-- A maker makes alike objects in alike windows; the new ones are a new pair. -/
theorem Holds.runMaker (h : T.Holds ρ m n) (maker : Maker) :
    ∃ σ, ρ ≤ σ ∧
      T.Holds σ (Surroundings.runEntry (.maker maker) m)
        (Surroundings.runEntry (.maker maker) n) := by
  unfold Surroundings.runEntry Surroundings.allocate Machine.newForeign?
  dsimp only
  cases maker.make with
  | error message => exact ⟨ρ, le_rfl, h.stop _⟩
  | ok payload =>
    obtain ⟨hm, hn⟩ | ⟨a, b, hm, hn, hab⟩ := optionRel_cases (h.slotForeignClass? 0)
    · rw [hm, hn]
      exact ⟨ρ, le_rfl, h.stop _⟩
    · rw [hm, hn]
      have le := ρ.le_addForeign m.heap.foreigns.size n.heap.foreigns.size
      have made := h.withHeap le (h.heap.addForeign hab payload)
        (h.grown.addForeign n.heap.foreigns.size a payload) id
      exact ⟨_, le, made.setSlot 0 (.foreign (.inr ⟨rfl, rfl⟩))⟩

/-! ### Calls from a script -/

theorem Holds.windowed (h : T.Holds ρ m n) {vs ws : List Value} (hv : v.Alike ρ w)
    (hvs : Value.AllAlike ρ vs ws) : T.Holds ρ (m.windowed v vs) (n.windowed w ws) :=
  h.onVm ⟨h.vm.core, h.vm.modules, .cons hv hvs, rfl, rfl, h.vm.depth⟩ rfl

theorem Holds.closed (h : T.Holds ρ m n) {x y : Vm} (outer : x.Alike ρ y) :
    T.simulation.Settled .alike ρ m.vm.verdict (m.closed x) n.vm.verdict (n.closed y) := by
  have closed : T.Holds ρ (m.closed x) (n.closed y) :=
    h.onVm ⟨h.vm.core, h.vm.modules, outer.slots, outer.returnWritten, outer.abort, h.vm.depth⟩ rfl
  unfold Vm.verdict
  rw [h.vm.abort, h.vm.returnWritten]
  cases n.vm.abort with
  | some message => exact .fault closed
  | none =>
    refine .ok closed ?_
    have first : (m.vm.slots.headD .null).Alike ρ (n.vm.slots.headD .null) := by
      generalize m.vm.slots = vs, n.vm.slots = ws, h.vm.slots = slots
      cases slots with
      | nil => exact .null
      | cons hvw _ => exact hvw
    change Value.Alike ρ (if n.vm.returnWritten then _ else _) (if n.vm.returnWritten then _ else _)
    split
    · exact first
    · exact .null

theorem Holds.called (h : T.Holds ρ m n) (e₁ e₂ : Engine Surroundings) {vs ws : List Value}
    (hv : v.Alike ρ w) (hvs : Value.AllAlike ρ vs ws) {f g : HostFunction} {e : Entry}
    (hf : T.first.Leads f e) (hg : T.second.Leads g e) :
    T.simulation.Ended ρ (T.simulation.Settled .alike)
      ((callForeign Surroundings.host e₁ f v vs).run m)
      ((callForeign Surroundings.host e₂ g w ws).run n) := by
  obtain ⟨point, rfl, entry⟩ := hf
  obtain ⟨point', rfl, entry'⟩ := hg
  have window := h.windowed hv hvs
  rw [callForeign_run, callForeign_run,
    Surroundings.runs_entry (m := m.windowed v vs) (h.host.first ▸ entry),
    Surroundings.runs_entry (m := n.windowed w ws) (h.host.second ▸ entry')]
  cases e with
  | routine r =>
    have ran := window.runRoutine (T.uniform point r entry)
    exact .ok le_rfl (ran.closed h.vm)
  | maker maker =>
    obtain ⟨σ, le, ran⟩ := window.runMaker maker
    exact .ok le (ran.closed (h.vm.mono le))

theorem Holds.allocated (h : T.Holds ρ m n) {engine : Engine Surroundings} {a b : ClassId}
    (ab : ρ.classes a b) {c : ClassObject} {vs : List Value} {f : HostFunction} {id : ForeignId}
    {m' : Machine Surroundings} (hc : m.heap.class? a = some c) (hf : c.binding.allocate = some f)
    (made : (callForeign Surroundings.host engine f (.classObject a) vs).run m =
      .ok (.ok (.foreign id)) m') : m'.heap.class? (m'.classOf (.foreign id)) = some c := by
  obtain ⟨c', d, hc', hd, hcd⟩ := h.heap.class? ab
  cases hc.symm.trans hc'
  obtain ⟨maker, ⟨point, rfl, entry⟩, -⟩ := hcd.binding.maker hf
  rw [callForeign_run, Surroundings.runs_entry (m := m.windowed _ _) (h.host.first ▸ entry)] at made
  injection made with verdict machine
  rw [← machine]
  by_cases foreign : c.isForeign = true
  · have slot : (m.windowed (.classObject a) vs).slotForeignClass? 0 = some a :=
      Machine.slotForeignClass?_eq rfl hc foreign
    exact Surroundings.runEntry_maker_class maker slot hc verdict
  · have slot : (m.windowed (.classObject a) vs).slotForeignClass? 0 = none :=
      Machine.slotForeignClass?_native rfl hc foreign
    unfold Surroundings.runEntry Surroundings.allocate Machine.newForeign? at verdict
    rw [slot] at verdict
    dsimp only at verdict
    cases outcome : maker.make <;> rw [outcome] at verdict <;> cases verdict

/-! ### Declarations -/

theorem defineClass_sim {e₁ e₂ : Engine Surroundings}
    (callbacks₁ : e₁.callbacks = Surroundings.callbacks)
    (callbacks₂ : e₂.callbacks = Surroundings.callbacks) (ρ : Renaming) (moduleName : String)
    (decl : ClassDecl) :
    RunSim T.simulation ρ (fun σ a b => σ.classes a b) (defineClass e₁ moduleName decl)
      (defineClass e₂ moduleName decl) := by
  intro m n h
  have declared := h.host.record.declared moduleName decl
  rw [defineClass_run callbacks₁, defineClass_run callbacks₂]
  revert declared
  generalize m.host.record.declared moduleName decl = x, n.host.record.declared moduleName decl = y
  rintro (@⟨c, d, hcd⟩ | refusal)
  · have le := ρ.le_addClass m.heap.classes.size n.heap.classes.size
    refine .ok le (.ok ?_ (.inr ⟨rfl, rfl⟩))
    exact h.withHeap le (h.heap.addClass hcd) (h.grown.addClass _ c)
      (m.heap.keptIn_addClass c).classes
  · cases refusal with
    | panic message => exact .halt le_rfl h
    | noAllocator => exact .ok le_rfl (.fault h)
    | member d f => exact .ok le_rfl (.fault (h.onHost (h.host.setPending (some f))))

/-! ### The laws -/

/-- The two runs do the same, whatever is asked of the machine. -/
theorem attended (T : Neighbours) : Attended T.simulation where
  oneToOne h := h.heap.oneToOne
  binding? h := h.vm.binding?
  hasModule h name := h.vm.modules.has name
  depth h := h.vm.depth
  list h := h.heap.list
  field h := h.heap.field
  class? h := by
    intro a b ab
    obtain ⟨c, d, hc, hd, hcd⟩ := h.heap.class? ab
    rw [hc, hd]
    exact .some hcd.looksLike
  classOf h := h.classOf
  method? h := fun hv signature =>
    optionRel_imp (h.method? hv signature) fun matching => matching.alike
  bodies _ := fun _ _ _ _ => trivial
  describe h := h.heap.describe
  lists := .inr fun h => h.core.writesLists
  define h moduleName name := fun hv => h.onVm (h.vm.define moduleName name hv) rfl
  openModule h name := h.onVm (h.vm.openModule name) (by
    unfold Vm.openModule
    split <;> rfl)
  append := by
    rintro - ρ m n h a b v w ab hv
    exact h.withHeap le_rfl (h.heap.append ab hv) (h.grown.append ab _) id
  setField h := fun name ab hv =>
    h.withHeap le_rfl (h.heap.setField ab name hv) (h.grown.setField ab name _) id
  addList h := fun {vs ws} hvs =>
    ⟨_, Renaming.le_addList _ _ _, h.withHeap (Renaming.le_addList _ _ _) (h.heap.addList hvs)
      (h.grown.addList _ _) id, .inr ⟨rfl, rfl⟩⟩
  addInstance h := fun ab _ _ _ =>
    ⟨_, Renaming.le_addInstance _ _ _, h.withHeap (Renaming.le_addInstance _ _ _)
      (h.heap.addInstance ab) (h.grown.addInstance _ _) id, .inr ⟨rfl, rfl⟩⟩
  deeper h := h.onVm (h.vm.atDepth (congrArg (· + 1) h.vm.depth)) rfl
  shallower h := h.onVm (h.vm.atDepth (congrArg (· - 1) h.vm.depth)) rfl
  fault_depth h := h.vm.depth
  fault_shallower h := h.onVm (h.vm.atDepth (congrArg (· - 1) h.vm.depth)) rfl
  miscount := .inl ⟨id, id⟩
  write h text := h.onHost (h.host.write .out text)
  report h r := h.onHost (h.host.write .err r.text)
  load h name := ⟨h.host.load name, h, fun _ _ _ _ _ _ => trivial⟩
  defineClass := fun callbacks₁ callbacks₂ ρ moduleName decl _ =>
    defineClass_sim callbacks₁ callbacks₂ ρ moduleName decl
  callForeign := by
    intro e₁ e₂ _ ρ m n h v w vs ws signature f g hv hvs hf hg
    have matching := h.method? hv signature
    rw [hf, hg] at matching
    cases matching with
    | some matching =>
      cases matching with
      | foreign same =>
        obtain ⟨r, leads, leads'⟩ := same
        exact h.called e₁ e₂ hv hvs leads leads'
  allocate := by
    intro e₁ e₂ _ ρ m n h a b c d vs ws f g ab hvs hc hd hf hg
    obtain ⟨c', d', hc', hd', hcd⟩ := h.heap.class? ab
    cases hc.symm.trans hc'
    cases hd.symm.trans hd'
    obtain ⟨maker, leads, leads'⟩ := hcd.binding.maker hf
    exact h.called e₁ e₂ (.classObject ab) hvs leads (leads' hg)
  allocated := by
    right
    intro _ _ ρ m n h a b c vs f m' id ab hc hf made
    exact h.allocated ab hc hf made
  raise h := fun _ => h
  exhaust h := h
  slots h := h.vm.slots
  ensureSlots h count := h.onVm (h.vm.ensureSlots count) rfl
  setSlot h slot := fun hv => h.setSlot slot hv
  rewind h := h.onVm (h.vm.atDepth rfl) rfl
  fault_report h r := h.onHost (h.host.write .err r.text)
  fault_pending h := h.host.record.pending
  settle h := h.onHost (h.host.setPending none)
  fault_settle h := h.onHost (h.host.setPending none)

end Neighbours
end ScriptHost
