import ScriptHost.Proofs.Arguments.Sending
import ScriptHost.Proofs.Binding.Session
import ScriptHost.Proofs.Construction.Lasting

/-! Classes in order. Every method of a script stands in the table of its class under its own
signature and was read from a text. The core classes have no methods of scripts, a declared class
has those of its declaration, and nothing else makes a class; so whatever scripts and host functions
do, the classes of a heap stay in order. -/

namespace ScriptHost

/-- A method that a table may have under a signature. -/
def Method.Stands (signature : String) (x : Method) : Prop :=
  ∀ decl, x.decl? = some decl → decl.signature = signature ∧ decl.Formed

/-- A class whose methods stand under their own signatures. -/
structure ClassObject.Orderly (c : ClassObject) : Prop where
  methods : ∀ {signature x}, c.methods.get? signature = some x → x.Stands signature
  statics : ∀ {signature x}, c.statics.get? signature = some x → x.Stands signature

def Heap.Orderly (h : Heap) : Prop := ∀ id c, h.class? id = some c → c.Orderly

/-! ### Core classes -/

theorem Method.stands_primitive (p : Primitive) (signature : String) :
    (Method.primitive p).Stands signature := nofun

theorem CoreClass.object_orderly (core : CoreClass) : core.object.Orderly where
  methods found := by
    obtain ⟨p, -, same⟩ := List.mem_map.mp (Table.mem_of_get? found)
    cases same
    exact Method.stands_primitive _ _
  statics found := by
    obtain ⟨p, -, same⟩ := List.mem_map.mp (Table.mem_of_get? found)
    cases same
    exact Method.stands_primitive _ _

theorem Machine.fresh_orderly {H : Type} (host : H) : (Machine.fresh host).heap.Orderly := by
  intro id c found
  obtain found | ⟨core, rfl⟩ := Heap.class?_addCore_cases found
  · cases found
  · exact core.object_orderly

namespace Heap.Orderly

variable {h h' : Heap}

theorem of_eq (orderly : h.Orderly) (classes : h'.classes = h.classes) : h'.Orderly := by
  intro id c found
  unfold class? at found
  rw [classes] at found
  exact orderly id c found

theorem addClass (orderly : h.Orderly) {c : ClassObject} (fits : c.Orderly) :
    (h.addClass c).2.Orderly := by
  intro id d found
  have found : (h.classes.push c)[id]? = some d := found
  rw [Array.getElem?_push] at found
  split at found
  · cases found
    exact fits
  · exact orderly id d found

theorem touched (orderly : h.Orderly) (touched : h.Touched h') : h'.Orderly := by
  cases touched with
  | same => exact orderly
  | addForeign => exact orderly.of_eq rfl
  | setField => exact orderly.of_eq rfl

/-- A method that is found is one of its signature. -/
theorem method {H : Type} {m : Machine H} (orderly : m.heap.Orderly) {v : Value}
    {signature : String} {x : Method} (found : m.method? v signature = some x) :
    x.Stands signature := by
  unfold Machine.method? at found
  split at found
  · obtain ⟨c, there, found⟩ := Option.bind_eq_some_iff.mp found
    exact (orderly _ c there).statics found
  · obtain ⟨c, there, found⟩ := Option.bind_eq_some_iff.mp found
    exact (orderly _ c there).methods found

end Heap.Orderly

/-! ### Declared classes -/

def Method.isPrimitive : Method → Bool
  | .primitive _ => true
  | _ => false

def Method.isConstructor : Method → Bool
  | .constructor _ => true
  | _ => false

/-- A class without primitives, whose constructors are methods of the class and not of its objects.
-/
structure ClassObject.Declared (c : ClassObject) : Prop where
  methods : ∀ {signature x}, c.methods.get? signature = some x →
    x.isPrimitive = false ∧ x.isConstructor = false
  statics : ∀ {signature x}, c.statics.get? signature = some x → x.isPrimitive = false

/-- A method that a declaration is bound to: one of the host, or the declared one. -/
structure MethodDecl.Makes (decl : MethodDecl) (x : Method) : Prop where
  own : ∀ d, x.decl? = some d → d = decl
  declared : x.isPrimitive = false
  constructs : x.isConstructor = true → decl.onClass = true

theorem MethodDecl.Makes.stands {decl : MethodDecl} {x : Method} (makes : decl.Makes x)
    (formed : decl.Formed) : x.Stands decl.signature := by
  intro d same
  obtain rfl := makes.own d same
  exact ⟨rfl, formed⟩

theorem ClassObject.Orderly.enter {c : ClassObject} (orderly : c.Orderly) {decl : MethodDecl}
    {x : Method} (stands : x.Stands decl.signature) : (c.enter decl x).Orderly := by
  have entered {t : MethodTable} (t_stands : ∀ {s y}, t.get? s = some y → y.Stands s) {s y}
      (found : (t.set decl.signature x).get? s = some y) : y.Stands s := by
    rw [Table.get?_set] at found
    split at found
    · cases found
      subst s
      exact stands
    · exact t_stands found
  unfold ClassObject.enter
  split
  · exact ⟨orderly.methods, entered orderly.statics⟩
  · exact ⟨entered orderly.methods, orderly.statics⟩

theorem ClassObject.Declared.enter {c : ClassObject} (declared : c.Declared) {decl : MethodDecl}
    {x : Method} (makes : decl.Makes x) : (c.enter decl x).Declared := by
  unfold ClassObject.enter
  split
  · refine ⟨declared.methods, fun {signature y} found => ?_⟩
    rw [Table.get?_set] at found
    split at found
    · cases found
      exact makes.declared
    · exact declared.statics found
  · rename_i object
    refine ⟨fun {signature y} found => ?_, declared.statics⟩
    rw [Table.get?_set] at found
    split at found
    · cases found
      exact ⟨makes.declared, Bool.eq_false_iff.mpr fun x => object (makes.constructs x)⟩
    · exact declared.methods found

/-- Two runs that go on alike when their hosts are asked about a declaration, and that may fail over
the answer. -/
structure Simulation.Declares {H₁ H₂ : Type} (S : Simulation H₁ H₂) (callbacks₁ : Callbacks H₁)
    (callbacks₂ : Callbacks H₂) : Prop where
  bindMethod : ∀ {ρ} name, RunSim S ρ .same (modifyGet (·.onHost (callbacks₁.bindMethod name)))
    (modifyGet (·.onHost (callbacks₂.bindMethod name)))
  bindClass : ∀ {ρ} moduleName className,
    RunSim S ρ .same (modifyGet (·.onHost (callbacks₁.bindClass moduleName className)))
      (modifyGet (·.onHost (callbacks₂.bindClass moduleName className)))
  fault : ∀ {f ρ m n}, S.going ρ m n → S.fault f ρ m n
  halt : ∀ {h ρ m n}, S.going ρ m n → S.halt h ρ m n

namespace Simulation.Declares

variable {H₁ H₂ : Type} {S : Simulation H₁ H₂} {ρ : Renaming} {e₁ : Engine H₁} {e₂ : Engine H₂}
  {fits : ClassObject → Prop}

theorem bindMethod_makes (laws : S.Declares e₁.callbacks e₂.callbacks)
    (moduleName className : String) (decl : MethodDecl) :
    RunSim S ρ (fun _ x y => x = y ∧ decl.Makes x)
      (ScriptHost.bindMethod e₁ moduleName className decl)
      (ScriptHost.bindMethod e₂ moduleName className decl) := by
  have own : ∀ d, some decl = some d → d = decl := fun d same => (Option.some.inj same).symm
  unfold ScriptHost.bindMethod
  split
  · refine (laws.bindMethod _).bind ?_
    rintro σ found _ - rfl
    cases found with
    | none => exact .fault fun _ _ => laws.fault
    | some f => exact .pure ⟨rfl, nofun, rfl, nofun⟩
  · split
    · rename_i constructor
      refine .pure ⟨rfl, own, rfl, fun _ => ?_⟩
      unfold MethodDecl.onClass
      rw [constructor, beq_self_eq_true, Bool.or_true]
    · exact .pure ⟨rfl, own, rfl, nofun⟩

/-- What the entry of each method keeps, the class has in the end. -/
theorem bindMethods_entered (laws : S.Declares e₁.callbacks e₂.callbacks)
    {decls : List MethodDecl}
    (enter : ∀ {c decl x}, fits c → decl ∈ decls → decl.Makes x → fits (c.enter decl x))
    {c : ClassObject} (start : fits c) :
    RunSim S ρ (fun _ c d => c = d ∧ fits c) (bindMethods e₁ c decls) (bindMethods e₂ c decls) := by
  induction decls generalizing ρ c with
  | nil => exact .pure ⟨rfl, start⟩
  | cons decl rest ih =>
    refine (laws.bindMethod_makes c.moduleName c.name decl).bind ?_
    rintro σ x _ - ⟨rfl, makes⟩
    exact ih (fun start there => enter start (List.mem_cons_of_mem _ there))
      (enter start List.mem_cons_self makes)

theorem bindClass_same (laws : S.Declares e₁.callbacks e₂.callbacks) (moduleName : String)
    (decl : ClassDecl) :
    RunSim S ρ .same (ScriptHost.bindClass e₁ moduleName decl)
      (ScriptHost.bindClass e₂ moduleName decl) := by
  unfold ScriptHost.bindClass
  split
  · refine (laws.bindClass _ _).bind ?_
    rintro σ found _ - rfl
    cases found with
    | error message => exact .halt fun _ _ => laws.halt
    | ok binding =>
      dsimp only
      split
      · exact .fault fun _ _ => laws.fault
      · exact .pure rfl
  · exact .pure rfl

/-- A declaration makes a class that has what blank classes have, and what the entry of each of its
methods keeps. -/
theorem defineClass_entered (laws : S.Declares e₁.callbacks e₂.callbacks)
    (fits : ClassObject → Prop) (moduleName : String) {decl : ClassDecl}
    (blank : ∀ binding, fits ⟨decl.name, moduleName, decl.isForeign, [], [], binding⟩)
    (enter : ∀ {c d x}, fits c → d ∈ decl.methods → d.Makes x → fits (c.enter d x))
    {P : Results ClassId ClassId}
    (add : ∀ {c : ClassObject}, fits c → ∀ {σ m n}, S.going σ m n →
      ∃ τ, σ ≤ τ ∧ S.going τ (m.onHeap (·.addClass c)).2 (n.onHeap (·.addClass c)).2 ∧
        P τ m.heap.classes.size n.heap.classes.size) :
    RunSim S ρ P (defineClass e₁ moduleName decl) (defineClass e₂ moduleName decl) := by
  refine (laws.bindClass_same moduleName decl).bind ?_
  rintro σ binding _ - rfl
  refine (laws.bindMethods_entered enter (blank binding)).bind ?_
  rintro τ c _ - ⟨rfl, fit⟩
  exact .modifyGet fun _ _ going => add fit going

/-- A declaration that was read from a text makes a declared class in order. -/
theorem defineClass_declared (laws : S.Declares e₁.callbacks e₂.callbacks) (moduleName : String)
    {decl : ClassDecl} (formed : decl.Formed) {P : Results ClassId ClassId}
    (add : ∀ {c : ClassObject}, c.Orderly → c.Declared → ∀ {σ m n}, S.going σ m n →
      ∃ τ, σ ≤ τ ∧ S.going τ (m.onHeap (·.addClass c)).2 (n.onHeap (·.addClass c)).2 ∧
        P τ m.heap.classes.size n.heap.classes.size) :
    RunSim S ρ P (defineClass e₁ moduleName decl) (defineClass e₂ moduleName decl) :=
  laws.defineClass_entered (fun c => c.Orderly ∧ c.Declared) moduleName
    (fun _ => ⟨⟨nofun, nofun⟩, ⟨nofun, nofun⟩⟩)
    (fun ⟨orderly, declared⟩ there makes =>
      ⟨orderly.enter (makes.stands (formed.methods _ there)), declared.enter makes⟩)
    fun ⟨orderly, declared⟩ => add orderly declared

end Simulation.Declares

/-- A run beside itself, for as long as the classes are in order. -/
def Shadow.orderly (H : Type) : Shadow H H where
  written _ d := d.Formed
  image := id
  going m := m.heap.Orderly
  fault _ m := m.heap.Orderly
  halt m := m.heap.Orderly

/-- The same run twice. -/
abbrev orderlyTwice (H : Type) : Simulation H H := (Shadow.orderly H).simulation

theorem orderlyTwice_declares {H : Type} (callbacks : Callbacks H) :
    (orderlyTwice H).Declares callbacks callbacks where
  bindMethod _ := .modifyGet (by
    rintro m _ ⟨rfl, rfl, there⟩
    exact ⟨.id, le_rfl, ⟨rfl, rfl, there⟩, rfl⟩)
  bindClass _ _ := .modifyGet (by
    rintro m _ ⟨rfl, rfl, there⟩
    exact ⟨.id, le_rfl, ⟨rfl, rfl, there⟩, rfl⟩)
  fault there := there
  halt there := there

/-! ### Programs -/

open Audit (idle)

namespace Heap.Orderly

variable {host₁ host₂ : Host Desk} {e₁ e₂ : Engine Desk} {callbacks : Callbacks Desk}

/-- The declarations in a text that was accepted are as they are read. -/
theorem covers (moduleName source : String) : (orderlyTwice Desk).Covers moduleName source :=
  fun _ parsed => declarationsOf_formed (parseModule_bare parsed) (parseModule_shaped parsed)

/-- What two runs owe to the interpreter to keep the classes in order: that their host functions
do. -/
theorem nesting (callbacks : host₁.callbacks = host₂.callbacks)
    (served : ∀ {e₁ e₂}, Engine.Alike (orderlyTwice Desk) host₁ host₂ e₁ e₂ → ∀ f,
      LiveSim (orderlyTwice Desk) .id .same (host₁.run f e₁) (host₂.run f e₂)) :
    (Shadow.orderly Desk).Nesting host₁ host₂ where
  bodies there := fun found read => by
    have formed := (there.method found _ read).2
    exact declarationsOf_formed formed.body_bare formed.body_shaped
  define there := fun _ _ _ => there
  openModule there := fun _ => there
  append _ := fun there _ _ => there.of_eq rfl
  setField there := fun _ _ _ => there.of_eq rfl
  addList there := fun _ => there.of_eq rfl
  addInstance there := fun _ => there.of_eq rfl
  write there := fun _ => ⟨by rw [callbacks]; rfl, there⟩
  report there := fun _ => ⟨by rw [callbacks]; rfl, there⟩
  load there := fun name => ⟨⟨by rw [callbacks]; rfl, there⟩, fun source _ => covers name source⟩
  defineClass {e₁ e₂} callbacks₁ callbacks₂ := fun there moduleName decl formed => by
    have declares : (orderlyTwice Desk).Declares e₁.callbacks e₂.callbacks := by
      rw [callbacks₁, callbacks₂, callbacks]
      exact orderlyTwice_declares _
    refine declares.defineClass_declared moduleName formed (P := .same) ?_ _ _ ⟨rfl, rfl, there⟩
    rintro c orderly - σ m _ ⟨rfl, rfl, there⟩
    exact ⟨.id, le_rfl, ⟨rfl, rfl, there.addClass orderly⟩, rfl⟩
  callForeign engines := fun there _ vs _ f _ => called engines there f _ vs
  allocate engines := fun there _ _ vs f _ _ => called engines there f _ vs
  allocated := .inl fun _ _ _ formed => formed
  raise there := fun _ => there
  exhaust there := there
  deeper there := there
  shallower there := there
  fault_shallower there := there
  miscount := .inl id
where
  called {e₁ e₂ : Engine Desk} (engines : Engine.Alike (orderlyTwice Desk) host₁ host₂ e₁ e₂)
      {m : Machine Desk} (there : m.heap.Orderly) (f : HostFunction) (v : Value)
      (vs : List Value) :
      (orderlyTwice Desk).Ended .id ((orderlyTwice Desk).Settled .alike)
        ((callForeign host₁ e₁ f v vs).run m) ((callForeign host₂ e₂ f v vs).run m) := by
    rw [callForeign_bind, callForeign_bind]
    refine (served engines f (m.windowed v vs) _ ⟨rfl, rfl, there⟩).bind ?_
    rintro σ _ m' _ _ - ⟨⟨rfl, rfl, after⟩, -⟩
    refine .ok le_rfl ?_
    change Simulation.Settled _ _ _ m'.vm.verdict _ m'.vm.verdict _
    unfold Vm.verdict
    cases m'.vm.abort with
    | some message => exact .fault ⟨rfl, rfl, after⟩
    | none => exact .ok ⟨rfl, rfl, after⟩ (Value.alike_refl _)

/-- As far as scripts and calls go that a host function asks for, all that counts of the host are
its callbacks. -/
theorem driven (callbacks : Callbacks Desk) :
    (Shadow.orderly Desk).Driven (idle callbacks) (idle callbacks) where
  toLawful := (nesting rfl fun _ _ => LiveSim.pure (P := .same) rfl).toLawful
  fault_report there := fun _ => ⟨rfl, there⟩
  setSlot there := fun _ _ => there

theorem serve_sim {ρ : Renaming}
    (engines : Engine.Alike (orderlyTwice Desk) (idle callbacks) (idle callbacks) e₁ e₂)
    (r : Request) : LiveSim (orderlyTwice Desk) ρ .same (Desk.serve e₁ r) (Desk.serve e₂ r) := by
  rintro m _ ⟨rfl, rfl, there⟩
  have laws := (driven callbacks).simulates
  change Simulation.Ended _ _ _ _ (Desk.serve e₂ r m)
  cases kind : r.runsScript with
  | false =>
    obtain ⟨a, m', served₁, served₂, -⟩ := Desk.serve_atOnce e₁ e₂ m kind
    rw [served₁, served₂]
    exact .ok le_rfl ⟨⟨rfl, rfl, there.touched (Desk.serve_touched kind served₁)⟩, rfl⟩
  | true =>
    cases r with
    | interpret moduleName source =>
      refine (Engine.interpret_sim laws.toReporting engines (covers moduleName source)
        ⟨rfl, rfl, there⟩ fun opened => ⟨rfl, rfl, opened.2.2⟩).bind ?_
      rintro σ _ m _ n - (hmn | hmn | hmn) <;> exact .ok le_rfl ⟨hmn, rfl⟩
    | call handle =>
      rw [Desk.serve_call, Desk.serve_call]
      cases m.host.calls.get? handle with
      | none => exact .ok le_rfl ⟨⟨rfl, rfl, there⟩, rfl⟩
      | some signature =>
        refine (Engine.call_sim laws engines signature ⟨rfl, rfl, there⟩).bind ?_
        rintro σ _ m _ n - (⟨rfl, rfl, hm⟩ | ⟨rfl, rfl, hm⟩ | ⟨rfl, rfl, hm⟩) <;>
          exact .ok le_rfl ⟨⟨rfl, rfl, hm⟩, rfl⟩
    | _ => cases kind

/-- Dialogues held with engines that do the same come to the same. -/
theorem hold_sim {ρ : Renaming}
    (engines : Engine.Alike (orderlyTwice Desk) (idle callbacks) (idle callbacks) e₁ e₂)
    (d : Dialogue) :
    LiveSim (orderlyTwice Desk) ρ .same (d.hold (Desk.serve e₁)) (d.hold (Desk.serve e₂)) := by
  induction d generalizing ρ with
  | done => exact .pure rfl
  | ask r next ih =>
    refine (serve_sim engines r).bind ?_
    rintro σ reply _ - rfl
    exact ih reply
  | note change next ih =>
    refine LiveSim.bind (P := .same) (.modify ?_) fun _ _ => .get_bind ?_
    · rintro m _ ⟨rfl, rfl, there⟩
      exact ⟨rfl, rfl, there⟩
    · rintro m _ ⟨rfl, rfl, there⟩
      exact ih m.host m m ⟨rfl, rfl, there⟩

/-- The laws of the interpreter, for the hosts of programs. -/
theorem conduct_nesting (c : Conduct) : (Shadow.orderly Desk).Nesting c.host c.host :=
  nesting rfl fun {e₁ e₂} engines f =>
    have apart : Engine.Alike (orderlyTwice Desk) (idle c.callbacks) (idle c.callbacks) e₁ e₂ :=
      { engines with }
    hold_sim apart (c.dialogue f)

end Heap.Orderly
end ScriptHost
