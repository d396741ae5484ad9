import ScriptHost.Proofs.Arguments.Orderly
import ScriptHost.Proofs.Construction

/-! Arguments and parameters. A strict interpreter stops at a message that does not fit, and at a
body that is started with an argument too many or too few. It does what the plain one does, whatever
it stops with, and so it never stops: each body has an argument for each parameter. -/

namespace ScriptHost

/-! ### The strict interpreter -/

namespace Strict

variable {H : Type} (alarm : Halt)

/-- The body of a method run, unless an argument is left over or a parameter left without one. -/
def callScript (engine : Engine H) (decl : MethodDecl) (receiver : Value) (args : List Value) :
    Run H Value :=
  if args.length = decl.params.length then ScriptHost.callScript engine decl receiver args
  else throwThe Halt alarm

/-- A constructor run on a new object, with such a body. -/
def construct (host : Host H) (engine : Engine H) (classId : ClassId) (decl : MethodDecl)
    (args : List Value) : Run H Value := do
  match (← get).heap.class? classId with
  | none => return .null
  | some c =>
    let object ← newObject host engine classId c args
    let _ ← callScript alarm engine decl object args
    return object

/-- An action whose bodies have such arguments. -/
def run (host : Host H) (engine : Engine H) : Action → Run H Value
  | .send receiver signature args =>
    invokeBy host engine (fun decl => nested (callScript alarm engine decl receiver args))
      (fun id decl => nested (construct alarm host engine id decl args)) receiver signature args
  | .load name => do
    loadModule engine name
    return .null

/-- Actions that contain others at most so deep, and that send messages that fit. -/
def perform (host : Host H) : Nat → Action → Run H Value
  | 0, _ => throwThe Halt .exhausted
  | depth + 1, action =>
    run alarm host (Engine.strict alarm ⟨host.callbacks, depth, perform host depth⟩) action

/-- The strict interpreter that works to a depth. -/
def engine (host : Host H) (depth : Nat) : Engine H :=
  Engine.strict alarm ⟨host.callbacks, depth, perform alarm host depth⟩

variable {decl : MethodDecl} {args : List Value} (fits : args.length = decl.params.length)
include fits

theorem callScript_eq (engine : Engine H) (receiver : Value) :
    callScript alarm engine decl receiver args =
      ScriptHost.callScript engine decl receiver args := if_pos fits

theorem construct_eq (host : Host H) (engine : Engine H) (classId : ClassId) :
    construct alarm host engine classId decl args =
      ScriptHost.construct host engine classId decl args := by
  have body := funext fun object => callScript_eq alarm fits engine object
  exact congrArg (fun body => constructBy host engine (fun _ => body) classId args) body

end Strict

/-! ### The plain interpreter with a strict engine -/

section

variable (alarm : Halt) (c : Conduct) (engine : Engine Desk) {m : Machine Desk}

theorem Conduct.callForeign_strict (f : HostFunction) (receiver : Value) (args : List Value) :
    callForeign c.host (engine.strict alarm) f receiver args =
      callForeign c.host engine f receiver args := by
  have run : c.host.run f (engine.strict alarm) = c.host.run f engine :=
    Desk.hold_strict alarm engine (c.dialogue f)
  unfold callForeign
  rw [run]

theorem Conduct.construct_strict {decl : MethodDecl} (formed : decl.Formed) (classId : ClassId)
    (args : List Value) :
    construct c.host (engine.strict alarm) classId decl args =
      construct c.host engine classId decl args := by
  unfold construct newObject
  simp only [c.callForeign_strict alarm, callScript_strict alarm engine formed]

/-- What an action sets off sends messages that fit, where the classes are in order. -/
theorem Action.run_strict (orderly : m.heap.Orderly) (action : Action) :
    (action.run c.host (engine.strict alarm)).run m = (action.run c.host engine).run m := by
  cases action with
  | load name =>
    simp only [run, loadModule_strict alarm]
  | send receiver signature args =>
    unfold run
    rw [invoke_run, invoke_run]
    cases found : m.method? receiver signature with
    | none => rfl
    | some x =>
      have stands := orderly.method found
      cases x with
      | primitive p => exact congrArg (·.run m) (p.apply_strict alarm engine receiver args)
      | foreign f => exact congrArg (·.run m) (c.callForeign_strict alarm engine f receiver args)
      | script decl =>
        dsimp only
        rw [callScript_strict alarm engine (stands decl rfl).2]
      | constructor decl =>
        cases receiver with
        | classObject id =>
          dsimp only
          rw [c.construct_strict alarm engine (stands decl rfl).2]
        | _ => rfl

end

/-! ### Both interpreters -/

/-- A message that fits has an argument for each parameter of the method that it finds. -/
theorem Heap.Orderly.fits {H : Type} {m : Machine H} (orderly : m.heap.Orderly) {v : Value}
    {signature : String} {x : Method} {decl : MethodDecl} {args : List Value}
    (found : m.method? v signature = some x) (read : x.decl? = some decl)
    (fits : args.length = signatureArity signature) : args.length = decl.params.length := by
  obtain ⟨rfl, formed⟩ := orderly.method found decl read
  exact fits.trans formed.arity

theorem Action.Alike.fits {ρ : Renaming} {a b : Action} (alike : a.Alike ρ b) :
    a.Fits ↔ b.Fits := by
  cases alike with
  | load name => exact Iff.rfl
  | send signature hv hvs =>
    simp only [Action.Fits, hvs.length_eq]

theorem Engine.AnswersLists.strict {H : Type} {engine : Engine H} (lists : engine.AnswersLists)
    (alarm : Halt) : (engine.strict alarm).AnswersLists := by
  intro m id v m' writes answered
  rw [engine.strict_perform alarm (.send (.list id) "toString" []) rfl] at answered
  exact lists m id v m' writes answered

namespace Strict

variable (alarm : Halt) (c : Conduct)

/-- Both stop at a message that does not fit. -/
theorem perform_sim {S : Simulation Desk Desk}
    (stops : ∀ {ρ m n}, S.going ρ m n → S.halt alarm ρ m n) {ρ : Renaming} {e₁ e₂ : Engine Desk}
    {a b : Action} (alike : a.Alike ρ b)
    (fitting : a.Fits → RunSim S ρ .alike (e₁.perform a) (e₂.perform b)) :
    RunSim S ρ .alike ((e₁.strict alarm).perform a) ((e₂.strict alarm).perform b) := by
  by_cases fits : a.Fits
  · rw [e₁.strict_perform alarm _ fits, e₂.strict_perform alarm _ (alike.fits.mp fits)]
    exact fitting fits
  · rw [e₁.strict_refuses alarm _ fits,
      e₂.strict_refuses alarm _ fun h => fits (alike.fits.mpr h)]
    exact .halt fun _ _ there => stops there

/-- Strict engines do the same at every depth, if actions whose messages fit do the same as soon as
the engines do that are for what these set off. -/
theorem engines_alike {S : Simulation Desk Desk}
    (stops : ∀ {ρ m n}, S.going ρ m n → S.halt alarm ρ m n)
    (exhaust : ∀ {ρ m n}, S.going ρ m n → S.halt .exhausted ρ m n)
    (engines : ∀ e₁ e₂, S.engines e₁ e₂) {performs : Nat → Action → Run Desk Value}
    (zero : performs 0 = fun _ => throwThe Halt .exhausted)
    (succ : ∀ depth, Engine.Alike S c.host c.host ((c.host.engine depth).strict alarm)
        (Engine.strict alarm ⟨c.host.callbacks, depth, performs depth⟩) →
      ∀ {ρ : Renaming} {a b : Action}, a.Alike ρ b → a.Fits →
        RunSim S ρ .alike (a.run c.host (c.host.engine depth)) (performs (depth + 1) b))
    (depth : Nat) :
    Engine.Alike S c.host c.host ((c.host.engine depth).strict alarm)
      (Engine.strict alarm ⟨c.host.callbacks, depth, performs depth⟩) := by
  induction depth with
  | zero =>
    refine ⟨rfl, rfl, rfl, fun alike => ?_, (answersLists c.host 0).strict alarm, engines _ _⟩
    refine perform_sim alarm stops alike fun _ => ?_
    rw [zero]
    exact .halt fun _ _ there => exhaust there
  | succ depth ih =>
    refine ⟨rfl, rfl, rfl, fun alike => ?_, (answersLists c.host _).strict alarm, engines _ _⟩
    exact perform_sim alarm stops alike (succ depth ih alike)

/-- An action whose message fits, with engines that do the same. -/
theorem run_sim {e₁ e₂ : Engine Desk}
    (engines : Engine.Alike (orderlyTwice Desk) c.host c.host (e₁.strict alarm) e₂) {ρ : Renaming}
    {a b : Action} (alike : a.Alike ρ b) (fits : a.Fits) :
    RunSim (orderlyTwice Desk) ρ .alike (a.run c.host e₁) (run alarm c.host e₂ b) := by
  have laws := (Heap.Orderly.conduct_nesting c).simulates
  have miscounts := (Heap.Orderly.conduct_nesting c).toLawful.miscounts id
  -- What the plain interpreter sets off sends messages that fit, so its engine may be strict.
  rintro m _ ⟨rfl, rfl, orderly⟩
  rw [← Action.run_strict alarm c e₁ orderly]
  cases alike with
  | load name =>
    refine RunSim.bind (loadModule_sim laws.toLawful engines name) (fun _ _ => ?_) m m
      ⟨rfl, rfl, orderly⟩
    exact .pure .null
  | @send v w vs ws signature hv hvs =>
    refine invokeBy_sim laws.toLawful engines hv signature hvs trivial ?_ ?_ m m
      ⟨rfl, rfl, orderly⟩
    · rintro m _ decl ⟨-, rfl, there⟩ found
      have bound := there.fits found rfl fits
      rw [hvs.length_eq] at bound
      rw [callScript_eq alarm bound]
      refine nested_sim laws ⟨rfl, rfl, there⟩ (.inl miscounts) fun inside => ?_
      exact callScript_sim laws.toLawful engines inside hv hvs (laws.bodies inside found rfl)
    · rintro m _ a b decl ⟨-, rfl, there⟩ classes rfl found
      have bound := there.fits found rfl fits
      rw [hvs.length_eq] at bound
      rw [construct_eq alarm bound]
      refine nested_sim laws ⟨rfl, rfl, there⟩ (.inl miscounts) fun inside => ?_
      exact construct_sim laws.toLawful engines inside classes
        (laws.addInstance inside classes found) hvs (laws.bodies inside found rfl)

/-- The two interpreters do the same where the classes are in order. -/
theorem engine_sim (depth : Nat) :
    Engine.Alike (orderlyTwice Desk) c.host c.host ((c.host.engine depth).strict alarm)
      (engine alarm c.host depth) :=
  engines_alike alarm c (fun there => there) (fun there => there) (fun _ _ => trivial) rfl
    (fun _ ih => run_sim alarm c ih) depth

end Strict

/-! ### Parameters and arguments -/

/-- Two runs that came to the same, and left the classes in order. -/
inductive SameInOrder {α : Type} : EStateM.Result Halt (Machine Desk) α →
    EStateM.Result Halt (Machine Desk) α → Prop
  | ok {a m} : m.heap.Orderly → SameInOrder (.ok a m) (.ok a m)
  | halt {h m} : m.heap.Orderly → SameInOrder (.error h m) (.error h m)

theorem SameInOrder.of_ended {α : Type} {Q : Renaming → α → Machine Desk → α → Machine Desk → Prop}
    {x y : EStateM.Result Halt (Machine Desk) α} (ended : (orderlyTwice Desk).Ended .id Q x y)
    (same : ∀ {σ a m b n}, Q σ a m b n → b = a ∧ n = m ∧ m.heap.Orderly) : SameInOrder y x := by
  obtain ⟨-, hQ⟩ | ⟨-, rfl, rfl, there⟩ | stopped := ended
  · obtain ⟨rfl, rfl, there⟩ := same hQ
    exact .ok there
  · exact .halt there
  · exact stopped.elim

theorem SameInOrder.of_concluded
    {x y : EStateM.Result Halt (Machine Desk) (Except InterpretError Unit)}
    (ended : (orderlyTwice Desk).Ended .id (orderlyTwice Desk).Concluded x y) :
    SameInOrder y x := by
  refine .of_ended ended ?_
  rintro σ _ m _ n (⟨rfl, rfl, there⟩ | ⟨rfl, rfl, there⟩ | ⟨rfl, rfl, there⟩) <;>
    exact ⟨rfl, rfl, there⟩

/-- Parameters bound on top of a scope leave its other names alone. -/
theorem bound_get?_of_not_mem {names : List String} {name : String} (other : name ∉ names)
    (args : List Value) (scope : Bindings) :
    Table.get? ((names.zip args).foldl (fun scope (name, v) => Table.set scope name v) scope)
      name = Table.get? scope name := by
  induction names generalizing args scope with
  | nil => rfl
  | cons n names ih =>
    rw [List.mem_cons, not_or] at other
    cases args with
    | nil => rfl
    | cons v args =>
      rw [List.zip_cons_cons, List.foldl_cons, ih other.2, Table.get?_set_of_ne _ _ other.1]

theorem bound_get? {names : List String} {args : List Value}
    (fits : args.length = names.length) (scope : Bindings) {i : Nat} (there : i < names.length)
    (last : names[i] ∉ names.drop (i + 1)) :
    Table.get? ((names.zip args).foldl (fun scope (name, v) => Table.set scope name v) scope)
      names[i] = args[i]? := by
  induction names generalizing args scope i with
  | nil => cases there
  | cons n names ih =>
    cases args with
    | nil => cases fits
    | cons v args =>
      rw [List.zip_cons_cons, List.foldl_cons]
      cases i with
      | zero =>
        exact (bound_get?_of_not_mem last args _).trans (Table.get?_set_self scope n v)
      | succ i => exact ih (Nat.succ.inj fits) _ (Nat.lt_of_succ_lt_succ there) last

/-- Each parameter is bound to its argument; of two with one name the later counts. -/
theorem parameters_get? {names : List String} {args : List Value}
    (fits : args.length = names.length) {i : Nat} (there : i < names.length)
    (last : names[i] ∉ names.drop (i + 1)) :
    Table.get? (parameters names args) names[i] = args[i]? :=
  bound_get? fits [] there last

/-- Whatever it stops with at a message that does not fit its signature, or at a body that is
started with more or fewer arguments than it has parameters: the strict interpreter does what the
plain one does, in every message that fits, every script, every call by any signature, and all that
a program of the host goes on to ask for. Classes in order stay in order, and those of a fresh
machine are. So a body is always run with as many arguments as parameters; then pairing them leaves
out none, and the i-th argument is what the i-th parameter is bound to. -/
theorem arguments_meet_parameters (c : Conduct) (alarm : Halt) (depth : Nat) (m : Machine Desk)
    (orderly : m.heap.Orderly) :
    (∀ action : Action, action.Fits →
      SameInOrder (((Strict.engine alarm c.host depth).perform action).run m)
        (((c.host.engine depth).perform action).run m)) ∧
    (∀ moduleName source,
      SameInOrder ((Strict.engine alarm c.host depth).interpret moduleName source m)
        ((c.host.engine depth).interpret moduleName source m)) ∧
    (∀ signature,
      SameInOrder ((Strict.engine alarm c.host depth).call signature m)
        ((c.host.engine depth).call signature m)) ∧
    (∀ d : Dialogue,
      SameInOrder (d.hold (Desk.serve (Strict.engine alarm c.host depth)) m)
        (d.hold (Desk.serve (c.host.engine depth)) m)) ∧
    (∀ desk : Desk, (Machine.fresh desk).heap.Orderly) ∧
    (∀ (names : List String) (args : List Value), args.length = names.length →
      (names.zip args).unzip = (names, args) ∧
      ∀ i (there : i < names.length), names[i] ∉ names.drop (i + 1) →
        Table.get? (parameters names args) names[i] = args[i]?) := by
  have engines := Strict.engine_sim alarm c depth
  have idle : Engine.Alike (orderlyTwice Desk) (Audit.idle c.callbacks) (Audit.idle c.callbacks)
      ((c.host.engine depth).strict alarm) (Strict.engine alarm c.host depth) := { engines with }
  have laws := (Heap.Orderly.driven c.callbacks).simulates
  have going : (orderlyTwice Desk).going .id m m := ⟨rfl, rfl, orderly⟩
  refine ⟨fun action fits => ?_, fun moduleName source => ?_, fun signature => ?_, fun d => ?_,
    Machine.fresh_orderly, fun names args fits => ⟨?_, fun i there last => ?_⟩⟩
  · rw [← (c.host.engine depth).strict_perform alarm _ fits]
    refine .of_ended (engines.perform action.alike_refl m m going) ?_
    rintro σ _ m _ n (⟨⟨rfl, rfl, there⟩, hvw⟩ | ⟨rfl, rfl, there⟩)
    · exact ⟨congrArg Except.ok (Value.alike_id.mp hvw).symm, rfl, there⟩
    · exact ⟨rfl, rfl, there⟩
  · rw [← (c.host.engine depth).strict_interpret alarm]
    exact .of_concluded (Engine.interpret_sim laws.toReporting idle
      (Heap.Orderly.covers moduleName source) going fun opened => ⟨rfl, rfl, opened.2.2⟩)
  · rw [← (c.host.engine depth).strict_call alarm]
    exact .of_concluded (Engine.call_sim laws idle signature going)
  · rw [← Desk.hold_strict alarm (c.host.engine depth)]
    refine .of_ended (Heap.Orderly.hold_sim idle d m m going) ?_
    rintro σ _ m _ n ⟨⟨rfl, rfl, there⟩, rfl⟩
    exact ⟨rfl, rfl, there⟩
  · exact List.unzip_zip fits.symm
  · exact parameters_get? fits there last

/-- A script with a constructor, a method, a getter and a text of its own, all of which it uses. -/
def pairing : String :=
  "class A \x7b\n  construct new(x) \x7b _x = x \x7d\n  own \x7b return _x \x7d\n" ++
    "  toString \x7b return \"A\" \x7d\n  static pair(a, b) \x7b return b \x7d\n\x7d\n" ++
    "var B = A.pair(A.new(true).own, null)\nSystem.print(A.new(B))"

/-- The strict interpreter comes to the end of a script with bodies of all sorts. -/
theorem arguments_meet_parameters_pairing :
    (Machine.fresh Desk.empty).heap.Orderly ∧
    ∃ m', (Strict.engine (.panic "unbound") obliging.conduct.host unreachedDepth).interpret "main"
        pairing (.fresh .empty) = .ok (.ok ()) m' ∧ m'.heap.Orderly := by
  obtain ⟨m', ran, -⟩ := ended_of_check
    (r := (obliging.conduct.host.engine unreachedDepth).interpret "main" pairing (.fresh .empty))
    (P := fun _ => True) (by decide +kernel)
  have orderly := Machine.fresh_orderly Desk.empty
  obtain ⟨-, scripts, -⟩ := arguments_meet_parameters obliging.conduct (.panic "unbound")
    unreachedDepth (.fresh .empty) orderly
  have same := scripts "main" pairing
  rw [ran] at same
  refine ⟨orderly, m', ?_⟩
  revert same
  generalize (Strict.engine _ _ _).interpret _ _ _ = r
  rintro ⟨there⟩
  exact ⟨rfl, there⟩

end ScriptHost
