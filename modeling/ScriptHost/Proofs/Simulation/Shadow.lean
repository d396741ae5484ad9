import ScriptHost.Proofs.Simulation.Facade

/-! A run beside its shadow: a second run on the same heap and the same machine, whose host is an
image of the first one's. Objects stand for themselves, so that a simulation of this sort is known
by what holds of the first run. Where the image is the host itself, it says what one run preserves.
-/

namespace ScriptHost

/-- What holds of a machine while a run goes on, when a fault is on its way, and when everything has
stopped; and the host that the second run has in place of the first one's. -/
structure Shadow (H₁ H₂ : Type) where
  written : String → ClassDecl → Prop
  image : H₁ → H₂
  going : Machine H₁ → Prop
  fault : RuntimeFault → Machine H₁ → Prop
  halt : Machine H₁ → Prop
  stops : Halt → Prop := fun _ => False
  engines : Engine H₁ → Engine H₂ → Prop := fun _ _ => True
  adds : Prop := True

namespace Shadow

variable {H₁ H₂ α : Type}

def of (S : Shadow H₁ H₂) (m : Machine H₁) : Machine H₂ := ⟨m.heap, m.vm, S.image m.host⟩

def simulation (S : Shadow H₁ H₂) : Simulation H₁ H₂ where
  written := S.written
  going ρ m n := ρ = .id ∧ n = S.of m ∧ S.going m
  fault f ρ m n := ρ = .id ∧ n = S.of m ∧ S.fault f m
  halt _ ρ m n := ρ = .id ∧ n = S.of m ∧ S.halt m
  stops := S.stops
  engines := S.engines
  adds := S.adds

/-- Callbacks of the two hosts that do the same, after which the run goes on. -/
structure Follows (S : Shadow H₁ H₂) (m : Machine H₁) (x : StateM H₁ α) (y : StateM H₂ α) :
    Prop where
  image : y.run (S.image m.host) = ((x.run m.host).1, S.image (x.run m.host).2)
  going : S.going (m.onHost x).2

theorem Follows.of {S : Shadow H₁ H₂} {m : Machine H₁} {x : StateM H₁ α} {y : StateM H₂ α}
    (h : S.Follows m x y) :
    (S.of m).onHost y = ((m.onHost x).1, S.of (m.onHost x).2) := by
  unfold Machine.onHost Shadow.of
  dsimp only
  rw [h.image]
  rfl

variable {S : Shadow H₁ H₂} {host₁ : Host H₁} {host₂ : Host H₂}

/-- The laws of a shadow. -/
structure Lawful (S : Shadow H₁ H₂) (host₁ : Host H₁) (host₂ : Host H₂) : Prop where
  bodies : ∀ {m}, S.going m → ∀ {v signature x decl}, m.method? v signature = some x →
    x.decl? = some decl → ∀ d ∈ decl.declarations, S.written (m.moduleOf v) d
  define : ∀ {m}, S.going m → ∀ moduleName name v,
    S.going (m.onVm (·.define moduleName name v))
  openModule : ∀ {m}, S.going m → ∀ name, S.going (m.onVm (·.openModule name))
  append : S.adds → ∀ {m}, S.going m → ∀ id v, S.going (m.mapHeap (·.append id v))
  setField : ∀ {m}, S.going m → ∀ id name v, S.going (m.mapHeap (·.setField id name v))
  addList : ∀ {m}, S.going m → ∀ items, S.going (m.onHeap (·.addList items)).2
  addInstance : ∀ {m}, S.going m → ∀ id, S.going (m.onHeap (·.addInstance id)).2
  write : ∀ {m}, S.going m → ∀ text,
    S.Follows m (host₁.callbacks.write text) (host₂.callbacks.write text)
  report : ∀ {m}, S.going m → ∀ r,
    S.Follows m (host₁.callbacks.report r) (host₂.callbacks.report r)
  load : ∀ {m}, S.going m → ∀ name,
    S.Follows m (host₁.callbacks.load name) (host₂.callbacks.load name) ∧
      ∀ source, (m.onHost (host₁.callbacks.load name)).1 = some source →
        S.simulation.Covers name source
  defineClass : ∀ {e₁ e₂}, e₁.callbacks = host₁.callbacks → e₂.callbacks = host₂.callbacks →
    ∀ {m}, S.going m → ∀ moduleName decl, S.written moduleName decl →
    S.simulation.Ended .id (S.simulation.Settled .same)
      ((ScriptHost.defineClass e₁ moduleName decl).run m)
      ((ScriptHost.defineClass e₂ moduleName decl).run (S.of m))
  callForeign : ∀ {e₁ e₂}, Engine.Alike S.simulation host₁ host₂ e₁ e₂ → ∀ {m}, S.going m →
    ∀ {v} vs {signature f}, m.method? v signature = some (.foreign f) →
    S.simulation.Ended .id (S.simulation.Settled .alike)
      ((ScriptHost.callForeign host₁ e₁ f v vs).run m)
      ((ScriptHost.callForeign host₂ e₂ f v vs).run (S.of m))
  allocate : ∀ {e₁ e₂}, Engine.Alike S.simulation host₁ host₂ e₁ e₂ → ∀ {m}, S.going m →
    ∀ {a c} vs {f}, m.heap.class? a = some c → c.binding.allocate = some f →
    S.simulation.Ended .id (S.simulation.Settled .alike)
      ((ScriptHost.callForeign host₁ e₁ f (.classObject a) vs).run m)
      ((ScriptHost.callForeign host₂ e₂ f (.classObject a) vs).run (S.of m))
  allocated : (∀ moduleName other decl, S.written moduleName decl → S.written other decl) ∨
    ∀ {e₁}, e₁.callbacks = host₁.callbacks → ∀ {m}, S.going m →
    ∀ {a c vs f m' id}, m.heap.class? a = some c → c.binding.allocate = some f →
    (ScriptHost.callForeign host₁ e₁ f (.classObject a) vs).run m = .ok (.ok (.foreign id)) m' →
    m'.heap.class? (m'.classOf (.foreign id)) = some c
  raise : ∀ {m}, S.going m → ∀ {f : RuntimeFault}, f.isPlain → S.fault f m
  exhaust : ∀ {m}, S.going m → S.halt m

/-- A shadow keeps its place for every new instance. -/
theorem Lawful.instantiates (laws : S.Lawful host₁ host₂) {ρ : Renaming} {m : Machine H₁}
    {n : Machine H₂} (hmn : S.simulation.going ρ m n) {a b : ClassId} (hab : ρ.classes a b) :
    S.simulation.Instantiates ρ m a n b := by
  obtain ⟨rfl, rfl, h⟩ := hmn
  obtain rfl : a = b := hab
  exact ⟨.id, le_rfl, ⟨rfl, rfl, laws.addInstance h a⟩, rfl⟩

theorem Lawful.simulates (laws : S.Lawful host₁ host₂) :
    ScriptHost.Lawful S.simulation host₁ host₂ where
  oneToOne := by
    rintro ρ m n ⟨rfl, -⟩
    exact Renaming.oneToOne_id
  binding? := by
    rintro ρ m n ⟨rfl, rfl, -⟩ moduleName name
    exact optionRel_refl Value.alike_refl _
  hasModule := by
    rintro ρ m n ⟨rfl, rfl, -⟩ name
    rfl
  list := by
    rintro ρ m n ⟨rfl, rfl, -⟩ a b rfl
    exact Value.allAlike_id.mpr rfl
  field := by
    rintro ρ m n ⟨rfl, rfl, -⟩ a b rfl name
    exact Value.alike_refl _
  class? := by
    rintro ρ m n ⟨rfl, rfl, -⟩ a b rfl
    exact optionRel_refl (fun _ => ⟨rfl, rfl, rfl, rfl⟩) _
  classOf := by
    rintro ρ m n ⟨rfl, rfl, -⟩ v w hv
    obtain rfl := Value.alike_id.mp hv
    rfl
  method? := by
    rintro ρ m n ⟨rfl, rfl, -⟩ v w hv signature
    obtain rfl := Value.alike_id.mp hv
    exact optionRel_refl Method.alike_refl _
  bodies := by
    rintro ρ m n ⟨rfl, rfl, h⟩
    exact laws.bodies h
  describe := by
    rintro ρ m n ⟨rfl, rfl, -⟩ v w hv -
    obtain rfl := Value.alike_id.mp hv
    rfl
  lists := by
    left
    rintro ρ m n ⟨rfl, rfl, -⟩ a b rfl
    rfl
  define := by
    rintro ρ m n ⟨rfl, rfl, h⟩ moduleName name v w hv
    obtain rfl := Value.alike_id.mp hv
    exact ⟨rfl, rfl, laws.define h moduleName name v⟩
  openModule := by
    rintro ρ m n ⟨rfl, rfl, h⟩ name
    exact ⟨rfl, rfl, laws.openModule h name⟩
  append := by
    rintro adds ρ m n ⟨rfl, rfl, h⟩ a b v w rfl hv
    obtain rfl := Value.alike_id.mp hv
    exact ⟨rfl, rfl, laws.append adds h a v⟩
  setField := by
    rintro ρ m n ⟨rfl, rfl, h⟩ a b v w name rfl hv
    obtain rfl := Value.alike_id.mp hv
    exact ⟨rfl, rfl, laws.setField h a name v⟩
  addList := by
    rintro ρ m n ⟨rfl, rfl, h⟩ vs ws hvs
    obtain rfl := Value.allAlike_id.mp hvs
    exact ⟨.id, le_rfl, ⟨rfl, rfl, laws.addList h vs.toArray⟩, rfl⟩
  addInstance hmn := fun hab _ _ _ => laws.instantiates hmn hab
  write := by
    rintro ρ m n ⟨rfl, rfl, h⟩ text
    have follows := laws.write h text
    exact ⟨rfl, congrArg Prod.snd follows.of, follows.going⟩
  report := by
    rintro ρ m n ⟨rfl, rfl, h⟩ r
    have follows := laws.report h r
    exact ⟨rfl, congrArg Prod.snd follows.of, follows.going⟩
  load := by
    rintro ρ m n ⟨rfl, rfl, h⟩ name
    obtain ⟨follows, covers⟩ := laws.load h name
    rw [follows.of]
    exact ⟨rfl, ⟨rfl, rfl, follows.going⟩, covers⟩
  defineClass := by
    rintro e₁ e₂ callbacks₁ callbacks₂ ρ moduleName decl written m n ⟨rfl, rfl, h⟩
    refine (laws.defineClass callbacks₁ callbacks₂ h moduleName decl written).imp ?_
    rintro σ _ m _ n - (⟨⟨rfl, going⟩, rfl⟩ | h)
    · exact .ok ⟨rfl, going⟩ rfl
    · exact .fault h
  callForeign := by
    rintro e₁ e₂ engines ρ m n ⟨rfl, rfl, h⟩ v w vs ws signature f g hv hvs hf hg
    obtain rfl := Value.alike_id.mp hv
    obtain rfl := Value.allAlike_id.mp hvs
    have same : some (Method.foreign f) = some (.foreign g) := hf.symm.trans hg
    cases same
    exact laws.callForeign engines h vs hf
  allocate := by
    rintro e₁ e₂ engines ρ m n ⟨rfl, rfl, h⟩ a b c d vs ws f g rfl hvs hc hd hf hg
    obtain rfl := Value.allAlike_id.mp hvs
    have same : some c = some d := hc.symm.trans hd
    cases same
    have same : some f = some g := hf.symm.trans hg
    cases same
    exact laws.allocate engines h vs hc hf
  allocated := by
    refine laws.allocated.imp_right fun allocated => ?_
    rintro e₁ callbacks ρ m n ⟨-, -, h⟩ a b c vs f m' id - hc hf made
    exact allocated callbacks h hc hf made
  raise := by
    rintro ρ m n ⟨rfl, rfl, h⟩ f plain
    exact ⟨rfl, rfl, laws.raise h plain⟩
  exhaust := by
    rintro ρ m n ⟨rfl, rfl, h⟩
    exact ⟨rfl, rfl, laws.exhaust h⟩

/-- The laws of a shadow that lasts inside methods. -/
structure Nesting (S : Shadow H₁ H₂) (host₁ : Host H₁) (host₂ : Host H₂) : Prop
    extends S.Lawful host₁ host₂ where
  deeper : ∀ {m}, S.going m → S.going (m.onVm Vm.deeper)
  shallower : ∀ {m}, S.going m → S.going (m.onVm Vm.shallower)
  fault_shallower : ∀ {f m}, S.fault f m → S.fault f (m.onVm Vm.shallower)
  miscount : (∀ {f m}, S.fault f m → S.halt m) ∨ ∀ {e₁ e₂}, S.engines e₁ e₂ → e₁.Counts host₁
  engines : ∀ depth, S.engines (host₁.engine depth) (host₂.engine depth) := by
    exact fun _ => trivial

theorem Lawful.miscounts (laws : S.Lawful host₁ host₂) (halts : ∀ {f m}, S.fault f m → S.halt m) :
    S.simulation.Miscounts where
  going := by
    rintro ρ m n ⟨rfl, rfl, h⟩
    exact ⟨rfl, rfl, laws.exhaust h⟩
  fault := by
    rintro f ρ m n ⟨rfl, rfl, h⟩
    exact ⟨rfl, rfl, halts h⟩

theorem Nesting.simulates (laws : S.Nesting host₁ host₂) :
    ScriptHost.Nesting S.simulation host₁ host₂ where
  toLawful := laws.toLawful.simulates
  depth := by
    rintro ρ m n ⟨rfl, rfl, -⟩
    rfl
  deeper := by
    rintro ρ m n ⟨rfl, rfl, h⟩
    exact ⟨rfl, rfl, laws.deeper h⟩
  shallower := by
    rintro ρ m n ⟨rfl, rfl, h⟩
    exact ⟨rfl, rfl, laws.shallower h⟩
  fault_depth := by
    rintro f ρ m n ⟨rfl, rfl, -⟩
    rfl
  fault_shallower := by
    rintro f ρ m n ⟨rfl, rfl, h⟩
    exact ⟨rfl, rfl, laws.fault_shallower h⟩
  miscount := laws.miscount.imp_left laws.miscounts
  engines := laws.engines

/-- The laws of a shadow whose hosts run scripts. -/
structure Reporting (S : Shadow H₁ H₂) (host₁ : Host H₁) (host₂ : Host H₂) : Prop
    extends S.Lawful host₁ host₂ where
  fault_report : ∀ {f m}, S.fault f m → ∀ r,
    S.of (m.onHost (host₁.callbacks.report r)).2 =
      ((S.of m).onHost (host₂.callbacks.report r)).2 ∧
    S.fault f (m.onHost (host₁.callbacks.report r)).2

theorem Reporting.simulates (laws : S.Reporting host₁ host₂) :
    ScriptHost.Reporting S.simulation host₁ host₂ where
  toLawful := laws.toLawful.simulates
  fault_report := by
    rintro f ρ m n ⟨rfl, rfl, h⟩ r
    obtain ⟨image, fault⟩ := laws.fault_report h r
    exact ⟨rfl, image.symm, fault⟩

/-- The laws of a shadow whose hosts call methods too. -/
structure Driven (S : Shadow H₁ H₂) (host₁ : Host H₁) (host₂ : Host H₂) : Prop
    extends S.Reporting host₁ host₂ where
  setSlot : ∀ {m}, S.going m → ∀ slot v, S.going (m.onVm (·.setSlot slot v))

theorem Driven.simulates (laws : S.Driven host₁ host₂) :
    ScriptHost.Driven S.simulation host₁ host₂ where
  toReporting := laws.toReporting.simulates
  slots := by
    rintro ρ m n ⟨rfl, rfl, -⟩
    exact Value.allAlike_id.mpr rfl
  setSlot := by
    rintro ρ m n ⟨rfl, rfl, h⟩ slot v w hv
    obtain rfl := Value.alike_id.mp hv
    exact ⟨rfl, rfl, laws.setSlot h slot v⟩

end Shadow

/-! ### Class declarations

A declaration asks the host for its foreign members one after the other; where the two hosts answer
alike, both runs make the same class, or stop at the same member. -/

section

variable {H₁ H₂ : Type}

/-- What is said of a member that the host has no function for. -/
def MemberName.unknown (name : MemberName) : RuntimeFault :=
  .unknownForeignMethod name.signature name.className name.moduleName

namespace Shadow

/-- Hosts that answer alike when a class is declared. -/
structure Declaring (S : Shadow H₁ H₂) (host₁ : Host H₁) (host₂ : Host H₂) : Prop where
  asked : ∀ {m}, S.going m → ∀ name,
    (S.of m).onHost (host₂.callbacks.bindMethod name) =
      ((m.onHost (host₁.callbacks.bindMethod name)).1,
        S.of (m.onHost (host₁.callbacks.bindMethod name)).2)
  known : ∀ {m}, S.going m → ∀ name f, (m.onHost (host₁.callbacks.bindMethod name)).1 = some f →
    S.going (m.onHost (host₁.callbacks.bindMethod name)).2
  unknown : ∀ {m}, S.going m → ∀ name, (m.onHost (host₁.callbacks.bindMethod name)).1 = none →
    S.fault name.unknown (m.onHost (host₁.callbacks.bindMethod name)).2
  classes : ∀ {m}, S.going m → ∀ moduleName className,
    S.Follows m (host₁.callbacks.bindClass moduleName className)
      (host₂.callbacks.bindClass moduleName className)
  unknownClass : ∀ {m}, S.going m → ∀ className moduleName,
    S.fault (.unknownForeignClass className moduleName) m
  halt : ∀ {m}, S.going m → S.halt m
  addClass : ∀ {m}, S.going m → ∀ c, S.going (m.onHeap (·.addClass c)).2

namespace Declaring

variable {S : Shadow H₁ H₂} {host₁ : Host H₁} {host₂ : Host H₂} {e₁ : Engine H₁} {e₂ : Engine H₂}
  {ρ : Renaming}

theorem bindMethod_run {H : Type} (engine : Engine H) (moduleName className : String)
    {decl : MethodDecl} (foreign : decl.isForeign) (m : Machine H) :
    (bindMethod engine moduleName className decl).run m =
      let name := ⟨moduleName, className, decl.isStatic, decl.signature⟩
      let answer := m.onHost (engine.callbacks.bindMethod name)
      match answer.1 with
      | some f => .ok (.ok (.foreign f)) answer.2
      | none => .ok (.error ⟨name.unknown, []⟩) answer.2 := by
  unfold bindMethod
  rw [if_pos foreign]
  change (match (m.onHost (engine.callbacks.bindMethod
      ⟨moduleName, className, decl.isStatic, decl.signature⟩)).1 with
    | some f => _
    | none => _ : Run H Method).run _ = _
  dsimp only
  cases (m.onHost (engine.callbacks.bindMethod
    ⟨moduleName, className, decl.isStatic, decl.signature⟩)).1 <;> rfl

theorem bindMethod_sim (laws : S.Declaring host₁ host₂)
    (callbacks₁ : e₁.callbacks = host₁.callbacks) (callbacks₂ : e₂.callbacks = host₂.callbacks)
    (moduleName className : String) (decl : MethodDecl) :
    RunSim S.simulation ρ .same (bindMethod e₁ moduleName className decl)
      (bindMethod e₂ moduleName className decl) := by
  by_cases foreign : decl.isForeign = true
  · rintro m _ ⟨rfl, rfl, h⟩
    rw [bindMethod_run e₁ _ _ foreign, bindMethod_run e₂ _ _ foreign, callbacks₁, callbacks₂]
    dsimp only
    rw [laws.asked h]
    cases found : (m.onHost (host₁.callbacks.bindMethod
        ⟨moduleName, className, decl.isStatic, decl.signature⟩)).1 with
    | some f => exact .ok le_rfl (.ok ⟨rfl, rfl, laws.known h _ f found⟩ rfl)
    | none => exact .ok le_rfl (.fault ⟨rfl, rfl, laws.unknown h _ found⟩)
  · unfold bindMethod
    rw [if_neg foreign, if_neg foreign]
    split <;> exact .pure rfl

theorem bindMethods_sim (laws : S.Declaring host₁ host₂)
    (callbacks₁ : e₁.callbacks = host₁.callbacks) (callbacks₂ : e₂.callbacks = host₂.callbacks)
    (c : ClassObject) (decls : List MethodDecl) :
    RunSim S.simulation ρ .same (bindMethods e₁ c decls) (bindMethods e₂ c decls) := by
  induction decls generalizing ρ c with
  | nil => exact .pure rfl
  | cons decl rest ih =>
    unfold bindMethods
    refine (laws.bindMethod_sim callbacks₁ callbacks₂ c.moduleName c.name decl).bind ?_
    rintro σ method _ le rfl
    exact ih _

theorem bindClass_sim (laws : S.Declaring host₁ host₂) (callbacks₁ : e₁.callbacks = host₁.callbacks)
    (callbacks₂ : e₂.callbacks = host₂.callbacks) (moduleName : String) (decl : ClassDecl) :
    RunSim S.simulation ρ .same (bindClass e₁ moduleName decl) (bindClass e₂ moduleName decl) := by
  unfold bindClass
  rw [callbacks₁, callbacks₂]
  by_cases foreign : decl.isForeign = true
  · rw [if_pos foreign, if_pos foreign]
    refine RunSim.bind (P := .same) (.modifyGet ?_) ?_
    · rintro m _ ⟨rfl, rfl, h⟩
      have follows := laws.classes h moduleName decl.name
      rw [follows.of]
      exact ⟨.id, le_rfl, ⟨rfl, rfl, follows.going⟩, rfl⟩
    · rintro σ found _ le rfl
      cases found with
      | error message => exact .halt fun _ _ h => ⟨h.1, h.2.1, laws.halt h.2.2⟩
      | ok binding =>
        dsimp only
        split
        · exact .fault fun _ _ h => ⟨h.1, h.2.1, laws.unknownClass h.2.2 _ _⟩
        · exact .pure rfl
  · rw [if_neg foreign, if_neg foreign]
    exact .pure rfl

theorem defineClass_sim (laws : S.Declaring host₁ host₂)
    (callbacks₁ : e₁.callbacks = host₁.callbacks) (callbacks₂ : e₂.callbacks = host₂.callbacks)
    (moduleName : String) (decl : ClassDecl) :
    RunSim S.simulation ρ .same (defineClass e₁ moduleName decl)
      (defineClass e₂ moduleName decl) := by
  unfold defineClass
  refine (laws.bindClass_sim callbacks₁ callbacks₂ moduleName decl).bind ?_
  rintro σ binding _ le rfl
  refine (laws.bindMethods_sim callbacks₁ callbacks₂ _ decl.methods).bind ?_
  rintro τ c _ le' rfl
  refine .modifyGet ?_
  rintro m _ ⟨rfl, rfl, h⟩
  exact ⟨.id, le_rfl, ⟨rfl, rfl, laws.addClass h c⟩, rfl⟩

end Declaring
end Shadow

end

/-! ### Steady properties

Properties of a machine that neither its variables nor its objects have a part in, such as what its
window shows. Two runs with the same callbacks keep to such a property, and do the same, as soon as
their host functions do. -/

variable {H : Type}

/-- A property that holds whatever the variables and modules of a machine are. -/
structure Vm.Steady (P : Vm → Prop) : Prop where
  define : ∀ {vm}, P vm → ∀ moduleName name v, P (vm.define moduleName name v)
  openModule : ∀ {vm}, P vm → ∀ name, P (vm.openModule name)

/-- Two runs on one machine, as long as it has a property; the second may stop in some ways. -/
def Shadow.keeping (H : Type) (P : Vm → Prop) (stops : Halt → Prop)
    (engines : Engine H → Engine H → Prop) : Shadow H H where
  written _ _ := True
  image := id
  going m := P m.vm
  fault _ m := P m.vm
  halt _ := True
  stops := stops
  engines := engines

/-- A run beside itself. -/
theorem Shadow.keeping_same {P : Vm → Prop} {stops : Halt → Prop}
    {engines : Engine H → Engine H → Prop} {x : Run H Value} {m : Machine H}
    (kept : ∀ r m', x.run m = .ok r m' → P m'.vm) :
    (Shadow.keeping H P stops engines).simulation.Ended .id
      ((Shadow.keeping H P stops engines).simulation.Settled .alike) (x.run m) (x.run m) := by
  cases ran : x.run m with
  | ok r m' =>
    have after := kept r m' ran
    cases r with
    | ok v => exact .ok le_rfl (.ok ⟨rfl, rfl, after⟩ (Value.alike_refl v))
    | error e => exact .ok le_rfl (.fault ⟨rfl, rfl, after⟩)
  | error h m' => exact .halt le_rfl ⟨rfl, rfl, trivial⟩

theorem Shadow.keeping_declaring {P : Vm → Prop} {stops : Halt → Prop}
    {engines : Engine H → Engine H → Prop} {host₁ host₂ : Host H}
    (callbacks : host₁.callbacks = host₂.callbacks) :
    (Shadow.keeping H P stops engines).Declaring host₁ host₂ where
  asked _ := fun _ => by rw [callbacks]; rfl
  known h := fun _ _ _ => h
  unknown h := fun _ _ => h
  classes h := fun _ _ => ⟨by rw [callbacks]; rfl, h⟩
  unknownClass h := fun _ _ => h
  halt _ := trivial
  addClass h := fun _ => h

namespace Vm.Steady

variable {P : Vm → Prop} {stops : Halt → Prop}
  {engines : Engine H → Engine H → Prop} {host₁ host₂ : Host H}

/-- What two runs owe to the interpreter to keep to a property: that their host functions do. -/
theorem lawful (steady : Vm.Steady P) (callbacks : host₁.callbacks = host₂.callbacks)
    (served : ∀ {e₁ e₂},
      Engine.Alike (Shadow.keeping H P stops engines).simulation host₁ host₂ e₁ e₂ →
      ∀ {m : Machine H}, P m.vm → ∀ f v vs,
      (Shadow.keeping H P stops engines).simulation.Ended .id
        ((Shadow.keeping H P stops engines).simulation.Settled .alike)
        ((callForeign host₁ e₁ f v vs).run m) ((callForeign host₂ e₂ f v vs).run m)) :
    (Shadow.keeping H P stops engines).Lawful host₁ host₂ where
  bodies _ := fun _ _ _ _ => trivial
  define h := fun moduleName name v => steady.define h moduleName name v
  openModule h := fun name => steady.openModule h name
  append _ := fun h _ _ => h
  setField h := fun _ _ _ => h
  addList h := fun _ => h
  addInstance h := fun _ => h
  write h := fun _ => ⟨by rw [callbacks]; rfl, h⟩
  report h := fun _ => ⟨by rw [callbacks]; rfl, h⟩
  load h := fun _ => ⟨⟨by rw [callbacks]; rfl, h⟩, fun _ _ _ _ _ _ => trivial⟩
  defineClass callbacks₁ callbacks₂ := fun h moduleName decl _ =>
    (Shadow.keeping_declaring callbacks).defineClass_sim callbacks₁ callbacks₂ moduleName decl _ _
      ⟨rfl, rfl, h⟩
  callForeign engines := fun h _ vs _ f _ => served engines h f _ vs
  allocate engines := fun h _ _ vs f _ _ => served engines h f _ vs
  allocated := .inl fun _ _ _ _ => trivial
  raise h := fun _ => h
  exhaust _ := trivial

end Vm.Steady
end ScriptHost
