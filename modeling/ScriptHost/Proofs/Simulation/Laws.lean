import ScriptHost.Machine.Invocation
import ScriptHost.Proofs.Simulation.Logic

/-! What a simulation owes to the interpreter. Related machines answer alike whatever a script can
read, and stay related under whatever it can write. Where the host takes part, the two hosts have to
do the same: when a class is bound, when a host function runs, and when an object is allocated. -/

namespace ScriptHost

/-- Methods of the same sort; the host functions behind foreign methods are not compared. -/
inductive Method.Alike : Method → Method → Prop
  | primitive (p : Primitive) : Alike (.primitive p) (.primitive p)
  | foreign (f g : HostFunction) : Alike (.foreign f) (.foreign g)
  | script (decl : MethodDecl) : Alike (.script decl) (.script decl)
  | constructor (decl : MethodDecl) : Alike (.constructor decl) (.constructor decl)

theorem Method.alike_refl (m : Method) : m.Alike m := by
  cases m with
  | primitive p => exact .primitive p
  | foreign f => exact .foreign f f
  | script decl => exact .script decl
  | constructor decl => exact .constructor decl

def Value.isClass : Value → Bool
  | classObject _ => true
  | _ => false

def Method.decl? : Method → Option MethodDecl
  | .script decl | .constructor decl => some decl
  | _ => none

/-- Classes that look the same to a script. -/
structure ClassObject.LooksLike (c d : ClassObject) : Prop where
  name : c.name = d.name
  moduleName : c.moduleName = d.moduleName
  isForeign : c.isForeign = d.isForeign
  allocates : c.binding.allocate.isSome = d.binding.allocate.isSome

/-- Actions that differ by a renaming alone. -/
inductive Action.Alike (ρ : Renaming) : Action → Action → Prop
  | send {v w : Value} {vs ws : List Value} (signature : String) :
    v.Alike ρ w → Value.AllAlike ρ vs ws → Alike ρ (.send v signature vs) (.send w signature ws)
  | load (name : String) : Alike ρ (.load name) (.load name)

theorem Action.alike_refl (a : Action) : a.Alike .id a := by
  cases a with
  | send receiver signature args =>
    exact .send signature (Value.alike_refl receiver) (Value.allAlike_id.mpr rfl)
  | load name => exact .load name

/-- The faults that a script runs into by itself, without a word from the host. -/
def RuntimeFault.isPlain : RuntimeFault → Bool
  | .unknownForeignClass .. | .unknownForeignMethod .. | .aborted _ => false
  | _ => true

mutual

/-- The class declarations that a statement comes upon when it runs: those inside the methods of
other classes wait for a call. -/
def Stmt.declarations : Stmt → List ClassDecl
  | .ifElse _ thenBranch none => thenBranch.declarations
  | .ifElse _ thenBranch (some other) => thenBranch.declarations ++ other.declarations
  | .whileLoop _ body | .forLoop _ _ body => body.declarations
  | .block body => declarationsOf body
  | .classDecl decl => [decl]
  | _ => []

def declarationsOf : List Stmt → List ClassDecl
  | [] => []
  | s :: rest => s.declarations ++ declarationsOf rest

end

/-- The class declarations that a method comes upon when it runs. -/
def MethodDecl.declarations (decl : MethodDecl) : List ClassDecl :=
  declarationsOf (decl.body.getD [])

/-- The class declarations of a text may be met in a module. -/
def Simulation.Covers {H₁ H₂ : Type} (S : Simulation H₁ H₂) (moduleName source : String) : Prop :=
  ∀ body, parseModule source = .ok body → ∀ decl ∈ declarationsOf body, S.written moduleName decl

/-- A new instance of one class stands for one of another. -/
def Simulation.Instantiates {H₁ H₂ : Type} (S : Simulation H₁ H₂) (ρ : Renaming) (m : Machine H₁)
    (a : ClassId) (n : Machine H₂) (b : ClassId) : Prop :=
  ∃ σ, ρ ≤ σ ∧ S.going σ (m.onHeap (·.addInstance a)).2 (n.onHeap (·.addInstance b)).2 ∧
    σ.instances m.heap.instances.size n.heap.instances.size

def Machine.moduleOf {H : Type} (m : Machine H) (v : Value) : String :=
  ((m.heap.class? (m.classOf v)).map (·.moduleName)).getD ""

def Vm.deeper (vm : Vm) : Vm := { vm with depth := vm.depth + 1 }

def Vm.shallower (vm : Vm) : Vm := { vm with depth := vm.depth - 1 }

/-- Lists answer `toString` with the method that the machine has for them. -/
def Machine.WritesLists {H : Type} (m : Machine H) : Prop :=
  ∀ id, m.method? (.list id) "toString" = some (.primitive .listText)

/-- Where lists have the machine's own `toString`, a list is written as a string. -/
def Engine.AnswersLists {H : Type} (engine : Engine H) : Prop :=
  ∀ m id v m', m.WritesLists →
    (engine.perform (.send (.list id) "toString" [])).run m = .ok (.ok v) m' → ∃ s, v = .string s

/-- A method or constructor that comes to its end is still counted there. -/
structure Engine.Counts {H : Type} (host : Host H) (engine : Engine H) : Prop where
  method : ∀ {m m' : Machine H} {decl receiver args r}, m.vm.depth < depthLimit →
    (callScript engine decl receiver args).run (m.onVm Vm.deeper) = .ok r m' → m'.vm.depth ≠ 0
  constructor : ∀ {m m' : Machine H} {id decl args r}, m.vm.depth < depthLimit →
    (construct host engine id decl args).run (m.onVm Vm.deeper) = .ok r m' → m'.vm.depth ≠ 0

variable {H₁ H₂ : Type}

/-- Both runs may stop at the end of a method that is not counted any more. -/
structure Simulation.Miscounts (S : Simulation H₁ H₂) : Prop where
  going : ∀ {ρ m n}, S.going ρ m n → S.halt .miscount ρ m n
  fault : ∀ {f ρ m n}, S.fault f ρ m n → S.halt .miscount ρ m n

structure Engine.Alike (S : Simulation H₁ H₂) (host₁ : Host H₁) (host₂ : Host H₂)
    (e₁ : Engine H₁) (e₂ : Engine H₂) : Prop where
  callbacks₁ : e₁.callbacks = host₁.callbacks
  callbacks₂ : e₂.callbacks = host₂.callbacks
  limit : e₁.limit = e₂.limit
  perform : ∀ {ρ a b}, Action.Alike ρ a b → RunSim S ρ .alike (e₁.perform a) (e₂.perform b)
  lists : e₁.AnswersLists
  known : S.engines e₁ e₂

/-- The laws of a simulation between two hosts, apart from the nesting of methods. -/
structure Lawful (S : Simulation H₁ H₂) (host₁ : Host H₁) (host₂ : Host H₂) : Prop where
  oneToOne : ∀ {ρ m n}, S.going ρ m n → ρ.OneToOne
  -- Reading.
  binding? : ∀ {ρ m n}, S.going ρ m n → ∀ moduleName name,
    Option.Rel (Value.Alike ρ) (m.vm.binding? moduleName name) (n.vm.binding? moduleName name)
  hasModule : ∀ {ρ m n}, S.going ρ m n → ∀ name, m.vm.hasModule name = n.vm.hasModule name
  list : ∀ {ρ m n}, S.going ρ m n → ∀ {a b}, ρ.lists a b →
    Value.AllAlike ρ (m.heap.list a).toList (n.heap.list b).toList
  field : ∀ {ρ m n}, S.going ρ m n → ∀ {a b}, ρ.instances a b → ∀ name,
    (m.heap.field a name).Alike ρ (n.heap.field b name)
  class? : ∀ {ρ m n}, S.going ρ m n → ∀ {a b}, ρ.classes a b →
    Option.Rel ClassObject.LooksLike (m.heap.class? a) (n.heap.class? b)
  classOf : ∀ {ρ m n}, S.going ρ m n → ∀ {v w}, v.Alike ρ w → ρ.classes (m.classOf v) (n.classOf w)
  method? : ∀ {ρ m n}, S.going ρ m n → ∀ {v w}, v.Alike ρ w → ∀ signature,
    Option.Rel Method.Alike (m.method? v signature) (n.method? w signature)
  /-- Methods come upon what is written in the module of their class. -/
  bodies : ∀ {ρ m n}, S.going ρ m n → ∀ {v signature x decl}, m.method? v signature = some x →
    x.decl? = some decl → ∀ d ∈ decl.declarations, S.written (m.moduleOf v) d
  describe : ∀ {ρ m n}, S.going ρ m n → ∀ {v w}, v.Alike ρ w → (∀ id, v ≠ .list id) →
    m.heap.describe v = n.heap.describe w
  /-- What the host calls a list depends on the size of the heap; a script may not find out. -/
  lists : (∀ {ρ m n}, S.going ρ m n → ∀ {a b}, ρ.lists a b →
      m.heap.describe (.list a) = n.heap.describe (.list b)) ∨
    ∀ {ρ m n}, S.going ρ m n → m.WritesLists
  -- Writing.
  define : ∀ {ρ m n}, S.going ρ m n → ∀ moduleName name {v w}, v.Alike ρ w →
    S.going ρ (m.onVm (·.define moduleName name v)) (n.onVm (·.define moduleName name w))
  openModule : ∀ {ρ m n}, S.going ρ m n → ∀ name,
    S.going ρ (m.onVm (·.openModule name)) (n.onVm (·.openModule name))
  append : S.adds → ∀ {ρ m n}, S.going ρ m n → ∀ {a b v w}, ρ.lists a b → v.Alike ρ w →
    S.going ρ (m.mapHeap (·.append a v)) (n.mapHeap (·.append b w))
  setField : ∀ {ρ m n}, S.going ρ m n → ∀ {a b v w} name, ρ.instances a b → v.Alike ρ w →
    S.going ρ (m.mapHeap (·.setField a name v)) (n.mapHeap (·.setField b name w))
  addList : ∀ {ρ m n}, S.going ρ m n → ∀ {vs ws}, Value.AllAlike ρ vs ws →
    ∃ σ, ρ ≤ σ ∧
      S.going σ (m.onHeap (·.addList vs.toArray)).2 (n.onHeap (·.addList ws.toArray)).2 ∧
      σ.lists m.heap.lists.size n.heap.lists.size
  /-- Instances are made of classes that have a constructor. -/
  addInstance : ∀ {ρ m n}, S.going ρ m n → ∀ {a b}, ρ.classes a b → ∀ {signature decl},
    m.method? (.classObject a) signature = some (.constructor decl) → S.Instantiates ρ m a n b
  -- The host.
  write : ∀ {ρ m n}, S.going ρ m n → ∀ text,
    S.going ρ (m.onHost (host₁.callbacks.write text)).2 (n.onHost (host₂.callbacks.write text)).2
  report : ∀ {ρ m n}, S.going ρ m n → ∀ r,
    S.going ρ (m.onHost (host₁.callbacks.report r)).2 (n.onHost (host₂.callbacks.report r)).2
  load : ∀ {ρ m n}, S.going ρ m n → ∀ name,
    (m.onHost (host₁.callbacks.load name)).1 = (n.onHost (host₂.callbacks.load name)).1 ∧
      S.going ρ (m.onHost (host₁.callbacks.load name)).2 (n.onHost (host₂.callbacks.load name)).2 ∧
      ∀ source, (m.onHost (host₁.callbacks.load name)).1 = some source → S.Covers name source
  defineClass : ∀ {e₁ e₂}, e₁.callbacks = host₁.callbacks → e₂.callbacks = host₂.callbacks →
    ∀ ρ moduleName decl, S.written moduleName decl → RunSim S ρ (fun σ a b => σ.classes a b)
      (ScriptHost.defineClass e₁ moduleName decl) (ScriptHost.defineClass e₂ moduleName decl)
  /-- A host function that a method found for the receiver leads to. -/
  callForeign : ∀ {e₁ e₂}, Engine.Alike S host₁ host₂ e₁ e₂ → ∀ {ρ m n}, S.going ρ m n →
    ∀ {v w vs ws} signature {f g}, v.Alike ρ w → Value.AllAlike ρ vs ws →
    m.method? v signature = some (.foreign f) → n.method? w signature = some (.foreign g) →
    S.Ended ρ (S.Settled .alike) ((ScriptHost.callForeign host₁ e₁ f v vs).run m)
      ((ScriptHost.callForeign host₂ e₂ g w ws).run n)
  /-- The host function that makes the objects of a class. -/
  allocate : ∀ {e₁ e₂}, Engine.Alike S host₁ host₂ e₁ e₂ → ∀ {ρ m n}, S.going ρ m n →
    ∀ {a b c d vs ws f g}, ρ.classes a b → Value.AllAlike ρ vs ws →
    m.heap.class? a = some c → n.heap.class? b = some d →
    c.binding.allocate = some f → d.binding.allocate = some g →
    S.Ended ρ (S.Settled .alike) ((ScriptHost.callForeign host₁ e₁ f (.classObject a) vs).run m)
      ((ScriptHost.callForeign host₂ e₂ g (.classObject b) ws).run n)
  /-- The object that is made is of the class that was asked for, if it matters in which module a
  class is written. -/
  allocated : (∀ moduleName other decl, S.written moduleName decl → S.written other decl) ∨
    ∀ {e₁}, e₁.callbacks = host₁.callbacks → ∀ {ρ m n}, S.going ρ m n →
    ∀ {a b c vs f m' id}, ρ.classes a b → m.heap.class? a = some c →
    c.binding.allocate = some f →
    (ScriptHost.callForeign host₁ e₁ f (.classObject a) vs).run m = .ok (.ok (.foreign id)) m' →
    m'.heap.class? (m'.classOf (.foreign id)) = some c
  -- Endings.
  raise : ∀ {ρ m n}, S.going ρ m n → ∀ {f : RuntimeFault}, f.isPlain → S.fault f ρ m n
  exhaust : ∀ {ρ m n}, S.going ρ m n → S.halt .exhausted ρ m n

/-- The laws of a simulation that goes on inside methods as it does outside. -/
structure Nesting (S : Simulation H₁ H₂) (host₁ : Host H₁) (host₂ : Host H₂) : Prop
    extends Lawful S host₁ host₂ where
  depth : ∀ {ρ m n}, S.going ρ m n → m.vm.depth = n.vm.depth
  deeper : ∀ {ρ m n}, S.going ρ m n → S.going ρ (m.onVm Vm.deeper) (n.onVm Vm.deeper)
  shallower : ∀ {ρ m n}, S.going ρ m n → S.going ρ (m.onVm Vm.shallower) (n.onVm Vm.shallower)
  fault_depth : ∀ {f ρ m n}, S.fault f ρ m n → m.vm.depth = n.vm.depth
  fault_shallower : ∀ {f ρ m n}, S.fault f ρ m n →
    S.fault f ρ (m.onVm Vm.shallower) (n.onVm Vm.shallower)
  miscount : S.Miscounts ∨ ∀ {e₁ e₂}, S.engines e₁ e₂ → e₁.Counts host₁
  engines : ∀ depth, S.engines (host₁.engine depth) (host₂.engine depth) := by
    exact fun _ => trivial

namespace Lawful

variable {S : Simulation H₁ H₂} {host₁ : Host H₁} {host₂ : Host H₂} {ρ : Renaming}
  {m : Machine H₁} {n : Machine H₂}

theorem className (laws : Lawful S host₁ host₂) (hmn : S.going ρ m n) {a b : ClassId}
    (h : ρ.classes a b) : m.heap.className a = n.heap.className b := by
  have names := optionRel_map (S := Eq) (laws.class? hmn h) fun h => h.name
  rw [Heap.className, Heap.className, optionRel_eq.mp names]

theorem moduleName (laws : Lawful S host₁ host₂) (hmn : S.going ρ m n) {a b : ClassId}
    (h : ρ.classes a b) :
    (m.heap.class? a).map (·.moduleName) = (n.heap.class? b).map (·.moduleName) :=
  optionRel_eq.mp (optionRel_map (laws.class? hmn h) fun h => h.moduleName)

theorem plainFault {α β : Type} {P : Results α β} (laws : Lawful S host₁ host₂)
    (f : RuntimeFault) (plain : f.isPlain) : RunSim S ρ P (fault f) (fault f) :=
  RunSim.fault fun _ _ hmn => laws.raise hmn plain

theorem scriptFault {α β : Type} {P : Results α β} {moduleName : String}
    (laws : Lawful S host₁ host₂)
    (f : RuntimeFault) (plain : f.isPlain) : ScriptSim S ρ moduleName P (fault f) (fault f) :=
  ScriptSim.fault fun _ _ hmn => laws.raise hmn plain

end Lawful
end ScriptHost
