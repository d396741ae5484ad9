import ScriptHost.Proofs.Arguments.Orderly
import ScriptHost.Proofs.Homes.Dialogues
import ScriptHost.Proofs.Homes.Machines

/-! Runs with a chronicle. Beside the host there is a record of every message that is sent and every
module that is loaded, each with the machine at that moment, the latest first; nothing reads it, so
that without it the run is the plain one. Annals are what is said of a heap together with its past.
They are kept by a whole run as soon as they are kept by what changes lists and classes: by new
lists, by the classes that declarations make, and by adding to a list, which is what some of the
moments on record do and nothing else does. -/

namespace ScriptHost

variable {H α β : Type}

/-! ### Moments -/

/-- The list that an action adds to by itself, and the value that it adds there. -/
def Machine.adding? (m : Machine H) : Action → Option (ListId × Value)
  | .send (.list id) signature (v :: _) =>
    match m.method? (.list id) signature with
    | some (.primitive .append) => some (id, v)
    | _ => none
  | _ => none

/-- An action that is about to be done, and the machine that it is done on. -/
structure Moment (H : Type) where
  machine : Machine H
  action : Action

namespace Moment

def added? (x : Moment H) : Option (ListId × Value) := x.machine.adding? x.action

/-- The heap with what the action adds to a list by itself. -/
def after (x : Moment H) : Heap :=
  match x.added? with
  | some (id, v) => x.machine.heap.append id v
  | none => x.machine.heap

theorem after_eq {x : Moment H} (nothing : x.added? = none) : x.after = x.machine.heap := by
  unfold after
  rw [nothing]

theorem after_classes (x : Moment H) : x.after.classes = x.machine.heap.classes := by
  unfold after
  split <;> rfl

end Moment

/-- Only the machine's own method for it adds to a list. -/
theorem Machine.adding?_eq_none {m : Machine H} {v : Value} {signature : String}
    {args : List Value} (other : m.method? v signature ≠ some (.primitive .append)) :
    m.adding? (.send v signature args) = none := by
  unfold adding?
  split
  case h_1 same =>
    cases same
    split
    · exact absurd ‹_› other
    · rfl
  · rfl

/-- What the machine's own method for adding comes to: a value that is missing is a fault, one for
something that is no list is given back, and one for a list is added to it. -/
theorem invoke_append {host : Host H} {engine : Engine H} {m : Machine H} {v : Value}
    {signature : String} {args : List Value}
    (found : m.method? v signature = some (.primitive .append)) :
    (invoke host engine v signature args).run m =
      .ok (args.head?.elim (.error ⟨.missingArgument, []⟩) .ok)
        { m with heap := Moment.after ⟨m, .send v signature args⟩ } := by
  rw [invoke_run, found]
  cases args with
  | nil => cases v <;> rfl
  | cons item rest =>
    cases v with
    | list id =>
      unfold Moment.after Moment.added? Machine.adding?
      dsimp only
      rw [found]
      rfl
    | _ => rfl

/-! ### The interpreter with a chronicle -/

structure Chronicled (H : Type) where
  side : H
  /-- The latest moment first. -/
  past : List (Moment H)

namespace Chronicled

/-- A machine without its chronicle. -/
def plain (m : Machine (Chronicled H)) : Machine H := ⟨m.heap, m.vm, m.host.side⟩

/-- A machine with a chronicle. -/
def beside (m : Machine H) (past : List (Moment H)) : Machine (Chronicled H) :=
  ⟨m.heap, m.vm, ⟨m.host, past⟩⟩

/-- Work that has no part in the chronicle. -/
def lift (act : Live H α) : Live (Chronicled H) α := fun m =>
  match act (plain m) with
  | .ok a n => .ok a (beside n m.host.past)
  | .error h n => .error h (beside n m.host.past)

def callback (act : StateM H α) : StateM (Chronicled H) α := fun k =>
  ((act.run k.side).1, ⟨(act.run k.side).2, k.past⟩)

def callbacks (c : Callbacks H) : Callbacks (Chronicled H) where
  write text := callback (c.write text)
  report r := callback (c.report r)
  bindMethod name := callback (c.bindMethod name)
  bindClass moduleName className := callback (c.bindClass moduleName className)
  load name := callback (c.load name)

def noted (action : Action) (m : Machine (Chronicled H)) : Machine (Chronicled H) :=
  beside (plain m) (⟨plain m, action⟩ :: m.host.past)

/-- Actions done as ever, each noted first. -/
def perform (host : Host (Chronicled H)) : Nat → Action → Run (Chronicled H) Value
  | 0, _ => throwThe Halt .exhausted
  | depth + 1, action => do
    modify (noted action)
    action.run host ⟨host.callbacks, depth, perform host depth⟩

def engine (host : Host (Chronicled H)) (depth : Nat) : Engine (Chronicled H) :=
  ⟨host.callbacks, depth, perform host depth⟩

/-- How a run ended, without its chronicle. -/
def forget : EStateM.Result Halt (Machine (Chronicled H)) α → EStateM.Result Halt (Machine H) α
  | .ok a m => .ok a (plain m)
  | .error h m => .error h (plain m)

end Chronicled

/-- The same talk with a machine that has a chronicle. -/
def Talk.chronicled (engine : Engine (Chronicled H)) : Talk H α → Live (Chronicled H) α
  | done a => return a
  | work act next => do (next (← Chronicled.lift act)).chronicled engine
  | interpret moduleName source next => do
    (next (← engine.interpret moduleName source)).chronicled engine
  | call signature next => do (next (← engine.call signature)).chronicled engine

/-- The host whose functions are talks, with a chronicle. -/
def Chronicled.host (c : Callbacks H) (talk : HostFunction → Talk H Unit) :
    Host (Chronicled H) where
  callbacks := callbacks c
  run f engine := (talk f).chronicled engine

/-! ### Annals -/

/-- What is said of a heap and of what has happened on it, where the classes are those of one
machine with what declarations of some sort make of blank ones. -/
structure Annals (H : Type) where
  core : ClassId
  written : ClassDecl → Prop
  fits : ClassObject → Prop
  holds : Heap → List (Moment H) → Prop

namespace Annals

/-- What annals have to allow for. -/
structure Lawful (A : Annals H) : Prop where
  spared : ∀ {h h' past}, A.holds h past → h'.lists = h.lists → h'.classes = h.classes →
    A.holds h' past
  note : ∀ {x : Moment H} {past}, x.machine.vm.core = A.core → A.holds x.machine.heap past →
    A.holds x.after (x :: past)
  addList : ∀ {h past}, A.holds h past → ∀ items, A.holds (h.addList items).2 past
  addClass : ∀ {h past}, A.holds h past → ∀ {c}, A.fits c → A.holds (h.addClass c).2 past
  blank : ∀ name moduleName isForeign binding,
    A.fits ⟨name, moduleName, isForeign, [], [], binding⟩
  enter : ∀ {c d decl x}, A.fits c → A.written d → decl ∈ d.methods → decl.Makes x →
    A.fits (c.enter decl x)
  covers : ∀ {source body}, parseModule source = .ok body → ∀ d ∈ declarationsOf body, A.written d
  bodies : ∀ {m : Machine H} {past}, A.holds m.heap past → ∀ {v signature x decl},
    m.method? v signature = some x → x.decl? = some decl → ∀ d ∈ decl.declarations, A.written d

/-- A machine that the annals hold for. -/
structure Going (A : Annals H) (m : Machine (Chronicled H)) : Prop where
  core : m.vm.core = A.core
  holds : A.holds m.heap m.host.past

/-- The plain run is a shadow of the run with a chronicle. -/
def shadow (A : Annals H) : Shadow (Chronicled H) H where
  written _ := A.written
  image := Chronicled.side
  going := A.Going
  fault _ := A.Going
  halt := A.Going
  adds := False

/-- The two runs on machines that differ by the chronicle alone. -/
abbrev erasure (A : Annals H) : Simulation (Chronicled H) H := A.shadow.simulation

variable {A : Annals H} {c : Callbacks H} {host₁ : Host (Chronicled H)} {host₂ : Host H}
  {e₁ : Engine (Chronicled H)} {e₂ : Engine H} {m : Machine (Chronicled H)}

open Chronicled

theorem going_plain (going : A.Going m) : A.erasure.going .id m (plain m) := ⟨rfl, rfl, going⟩

namespace Lawful

variable (laws : A.Lawful)
include laws

theorem rests (going : A.Going m) {n : Machine H} (rests : (plain m).Rests n) :
    A.Going (Chronicled.beside n m.host.past) :=
  ⟨rests.core.trans going.core, laws.spared going.holds rests.lists rests.classes⟩

omit laws in
theorem follows (going : A.Going m) (act : StateM H α) :
    A.shadow.Follows m (callback act) act := ⟨rfl, ⟨going.core, going.holds⟩⟩

omit laws in
theorem declares (callbacks₁ : e₁.callbacks = callbacks c) (callbacks₂ : e₂.callbacks = c) :
    A.erasure.Declares e₁.callbacks e₂.callbacks := by
  have asked {α : Type} (act : StateM H α) {ρ : Renaming} :
      RunSim A.erasure ρ .same (modifyGet (·.onHost (callback act))) (modifyGet (·.onHost act)) :=
    .modifyGet (by
      rintro m _ ⟨rfl, rfl, going⟩
      exact ⟨.id, le_rfl, ⟨rfl, rfl, going.core, going.holds⟩, rfl⟩)
  rw [callbacks₁, callbacks₂]
  exact ⟨fun name => asked _, fun moduleName className => asked _, fun going => going,
    fun going => going⟩

/-- The laws that a run with a chronicle keeps to, as soon as host functions keep to them. -/
theorem nesting (callbacks₁ : host₁.callbacks = callbacks c) (callbacks₂ : host₂.callbacks = c)
    (served : ∀ {e₁ e₂}, Engine.Alike A.erasure host₁ host₂ e₁ e₂ →
      ∀ f, LiveSim A.erasure .id .same (host₁.run f e₁) (host₂.run f e₂)) :
    A.shadow.Nesting host₁ host₂ where
  bodies {m} going := fun found read =>
    laws.bodies (m := plain m) going.holds found read
  define going := fun _ _ _ => ⟨going.core, going.holds⟩
  openModule {m} going := fun name =>
    ⟨(Vm.openModule_core m.vm name).trans going.core, going.holds⟩
  append := False.elim
  setField going := fun _ _ _ => ⟨going.core, laws.spared going.holds rfl rfl⟩
  addList going := fun items => ⟨going.core, laws.addList going.holds items⟩
  addInstance going := fun _ => ⟨going.core, laws.spared going.holds rfl rfl⟩
  write going := fun _ => by rw [callbacks₁, callbacks₂]; exact follows going _
  report going := fun _ => by rw [callbacks₁, callbacks₂]; exact follows going _
  load going := fun _ => by
    rw [callbacks₁, callbacks₂]
    exact ⟨follows going _, fun _ _ _ parsed => laws.covers parsed⟩
  defineClass callbacks₁' callbacks₂' := fun {m} going moduleName decl written => by
    have declares : A.erasure.Declares _ _ :=
      declares (callbacks₁'.trans callbacks₁) (callbacks₂'.trans callbacks₂)
    refine declares.defineClass_entered A.fits moduleName (laws.blank _ _ _)
      (fun fit there makes => laws.enter fit written there makes) ?_ m _ (going_plain going)
    rintro c fit σ m _ ⟨rfl, rfl, going⟩
    exact ⟨.id, le_rfl, ⟨rfl, rfl, going.core, laws.addClass going.holds fit⟩, rfl⟩
  callForeign engines := fun going v vs _ f _ => called engines going f v vs
  allocate engines := fun going a _ vs f _ _ => called engines going f (.classObject a) vs
  allocated := .inl fun _ _ _ written => written
  raise going := fun _ => going
  exhaust going := going
  deeper going := ⟨going.core, going.holds⟩
  shallower going := ⟨going.core, going.holds⟩
  fault_shallower going := ⟨going.core, going.holds⟩
  miscount := .inl id
where
  called {e₁ e₂} (engines : Engine.Alike A.erasure host₁ host₂ e₁ e₂)
      {m : Machine (Chronicled H)} (going : A.Going m) (f : HostFunction) (v : Value)
      (vs : List Value) :
      A.erasure.Ended .id (A.erasure.Settled .alike) ((callForeign host₁ e₁ f v vs).run m)
        ((callForeign host₂ e₂ f v vs).run (plain m)) := by
    rw [callForeign_bind, callForeign_bind]
    have window : A.Going (m.windowed v vs) := ⟨going.core, going.holds⟩
    refine (served engines f (m.windowed v vs) _ (going_plain window)).bind ?_
    rintro σ _ m' _ _ - ⟨⟨rfl, rfl, going⟩, -⟩
    have closed : A.Going (m'.closed m.vm) := ⟨going.core, going.holds⟩
    refine .ok le_rfl ?_
    change A.erasure.Settled _ _ m'.vm.verdict _ m'.vm.verdict _
    cases m'.vm.verdict with
    | error e => exact .fault ⟨rfl, rfl, closed⟩
    | ok v => exact .ok ⟨rfl, rfl, closed⟩ (Value.alike_refl v)

/-! ### Talks -/

omit laws in
/-- Hosts whose functions do nothing: for what is asked of an engine, no more of the hosts is
needed than their callbacks. -/
def idle₁ (c : Callbacks H) : Host (Chronicled H) := ⟨callbacks c, fun _ _ => return ()⟩

@[inherit_doc idle₁]
def idle₂ (c : Callbacks H) : Host H := ⟨c, fun _ _ => return ()⟩

theorem driven (c : Callbacks H) : A.shadow.Driven (idle₁ c) (idle₂ c) where
  toLawful := (laws.nesting rfl rfl fun _ _ => LiveSim.pure (P := .same) rfl).toLawful
  fault_report going := fun _ => ⟨rfl, going.core, going.holds⟩
  setSlot going := fun _ _ => ⟨going.core, going.holds⟩

theorem lift_ended {act : Live H α} (gentle : Live.Gentle act) (going : A.Going m) :
    A.erasure.Ended .id (fun σ a m b n => A.erasure.going σ m n ∧ a = b) (lift act m)
      (act (plain m)) := by
  have rests := gentle (plain m)
  unfold lift
  revert rests
  cases act (plain m) with
  | ok a n => exact fun rests => .ok le_rfl ⟨⟨rfl, rfl, laws.rests going rests⟩, rfl⟩
  | error halt n => exact fun rests => .halt le_rfl ⟨rfl, rfl, laws.rests going rests⟩

omit laws in
theorem concluded_same {ρ : Renaming} {r s : Except InterpretError Unit} {n : Machine H}
    (concluded : A.erasure.Concluded ρ r m s n) : A.erasure.going ρ m n ∧ r = s := by
  cases concluded with
  | ok going | compile going => exact ⟨going, rfl⟩
  | runtime fault => exact ⟨fault, rfl⟩

/-- A talk with a chronicle and without do the same. -/
theorem talk_sim (engines : Engine.Alike A.erasure (idle₁ c) (idle₂ c) e₁ e₂) {talk : Talk H α}
    (gentle : talk.Gentle) :
    LiveSim A.erasure .id .same (talk.chronicled e₁) (talk.run e₂) := by
  have driven := (laws.driven c).simulates
  induction talk with
  | done a => exact .pure rfl
  | work act next ih =>
    rintro m _ ⟨-, rfl, going⟩
    refine (laws.lift_ended gentle.1 going).bind ?_
    rintro σ b m _ _ - ⟨⟨rfl, rfl, going⟩, rfl⟩
    exact ih b (gentle.2 b) m _ (going_plain going)
  | interpret moduleName source next ih =>
    rintro m _ ⟨-, rfl, going⟩
    have covers : A.erasure.Covers moduleName source := fun _ parsed => laws.covers parsed
    have ran := Engine.interpret_sim driven.toReporting engines covers (going_plain going)
      fun opened => ⟨rfl, rfl, opened.2.2.core, opened.2.2.holds⟩
    refine (ran.imp fun _ => concluded_same).bind ?_
    rintro σ r m _ _ - ⟨⟨rfl, rfl, going⟩, rfl⟩
    exact ih r (gentle r) m _ (going_plain going)
  | call signature next ih =>
    rintro m _ ⟨-, rfl, going⟩
    have called := Engine.call_sim driven engines signature (going_plain going)
    refine (called.imp fun _ => concluded_same).bind ?_
    rintro σ r m _ _ - ⟨⟨rfl, rfl, going⟩, rfl⟩
    exact ih r (gentle r) m _ (going_plain going)

omit laws in
theorem alike_idle {talk : HostFunction → Talk H Unit}
    (engines : Engine.Alike A.erasure (host c talk) (Talk.host c talk) e₁ e₂) :
    Engine.Alike A.erasure (idle₁ c) (idle₂ c) e₁ e₂ := { engines with }

/-! ### The interpreter -/

/-- An action on a machine where it is on record already. -/
theorem run_sim (nesting : A.shadow.Nesting host₁ host₂)
    (engines : Engine.Alike A.erasure host₁ host₂ e₁ e₂) (going : A.Going m) (action : Action) :
    A.erasure.Ended .id (A.erasure.Settled .alike) ((action.run host₁ e₁).run (noted action m))
      ((action.run host₂ e₂).run (plain m)) := by
  have noted : A.holds (Moment.after ⟨plain m, action⟩) (⟨plain m, action⟩ :: m.host.past) :=
    laws.note going.core going.holds
  have nothing (none : (plain m).adding? action = none) : A.Going (Chronicled.noted action m) :=
    ⟨going.core, Moment.after_eq (x := ⟨plain m, action⟩) none ▸ noted⟩
  cases action with
  | load name =>
    refine RunSim.bind_at (P := .same) ?_ fun _ _ => .pure .null
    exact loadModule_sim nesting.simulates.toLawful engines name _ _ (going_plain (nothing rfl))
  | send v signature args =>
    by_cases adds : m.method? v signature = some (.primitive .append)
    · change A.erasure.Ended _ _ ((invoke host₁ e₁ v signature args).run _)
        ((invoke host₂ e₂ v signature args).run _)
      rw [invoke_append (m := plain m) adds,
        invoke_append (m := Chronicled.noted (.send v signature args) m) adds]
      cases args with
      | nil => exact .ok le_rfl (.fault ⟨rfl, rfl, going.core, noted⟩)
      | cons item rest =>
        exact .ok le_rfl (.ok ⟨rfl, rfl, going.core, noted⟩ (Value.alike_refl item))
    · exact invoke_at nesting.simulates engines
        (going_plain (nothing (Machine.adding?_eq_none adds))) (Value.alike_refl v) signature
        (Value.allAlike_id.mpr rfl) fun found => absurd found adds

theorem talk_nesting {talk : HostFunction → Talk H Unit} (gentle : ∀ f, (talk f).Gentle) :
    A.shadow.Nesting (host c talk) (Talk.host c talk) :=
  laws.nesting rfl rfl fun engines f => laws.talk_sim (alike_idle engines) (gentle f)

/-- The interpreter with a chronicle and the plain one do the same, at every depth. -/
theorem engine_sim {talk : HostFunction → Talk H Unit} (gentle : ∀ f, (talk f).Gentle)
    (depth : Nat) :
    Engine.Alike A.erasure (host c talk) (Talk.host c talk) (engine (host c talk) depth)
      ((Talk.host c talk).engine depth) := by
  have nesting : A.shadow.Nesting (host c talk) (Talk.host c talk) := laws.talk_nesting gentle
  induction depth with
  | zero =>
    refine ⟨rfl, rfl, rfl, fun _ => .halt fun _ _ going => going, ?_, trivial⟩
    intro m id v m' writes answered
    cases answered
  | succ depth ih =>
    refine ⟨rfl, rfl, rfl, fun {ρ a b} hab => ?_, fun m id v m' writes answered => ?_, trivial⟩
    · rintro m _ ⟨rfl, rfl, going⟩
      have same : b = a := by
        cases hab with
        | load => rfl
        | send signature hv hvs =>
          rw [Value.alike_id.mp hv, Value.allAlike_id.mp hvs]
      rw [same]
      exact laws.run_sim nesting ih going a
    · have sent : (invoke (host c talk) (engine (host c talk) depth) (.list id) "toString" []).run
          (noted _ m) = .ok (.ok v) m' := answered
      rw [invoke_by] at sent
      exact invokeBy_listText (m := noted (.send (.list id) "toString" []) m) _ _ _ _ writes sent

/-! ### What a talk comes to -/

/-- Every talk, held with a chronicle that was blank: without the chronicle it is the plain one, and
annals that held before it hold after it. -/
theorem talk_chronicled {talks : HostFunction → Talk H Unit} (gentles : ∀ f, (talks f).Gentle)
    {talk : Talk H α} (gentle : talk.Gentle) (depth : Nat) {m : Machine H}
    (core : m.vm.core = A.core) (start : A.holds m.heap []) :
    let told := talk.chronicled (engine (host c talks) depth) (Chronicled.beside m [])
    forget told = talk.run ((Talk.host c talks).engine depth) m ∧
      A.Going (Live.machine told) := by
  have engines := alike_idle (laws.engine_sim (c := c) gentles depth)
  have ended := laws.talk_sim engines gentle _ _
    (going_plain (m := Chronicled.beside m []) ⟨core, start⟩)
  change A.erasure.Ended .id _ _ (talk.run ((Talk.host c talks).engine depth) m) at ended
  revert ended
  generalize talk.chronicled (engine (host c talks) depth) (Chronicled.beside m []) = r,
    talk.run ((Talk.host c talks).engine depth) m = s
  rintro (⟨-, ⟨⟨rfl, rfl, going⟩, rfl⟩⟩ | ⟨-, rfl, rfl, going⟩ | stopped)
  · exact ⟨rfl, going⟩
  · exact ⟨rfl, going⟩
  · cases stopped

end Lawful
end Annals

/-! ### Programs -/

namespace Chronicled

/-- A dialogue held from the outside, with a chronicle that is blank. -/
def hold (c : Conduct) (depth : Nat) (d : Dialogue) (m : Machine Desk) :
    EStateM.Result Halt (Machine (Chronicled Desk)) Unit :=
  (d.talk (c.host.engine 0)).chronicled (engine (host c.callbacks c.talk) depth) (beside m [])

/-- What a step of a session runs, with a chronicle that is blank. -/
def work (p : Program) (j : Job) :
    EStateM.Result Halt (Machine (Chronicled Surroundings)) (Except BoundaryFault j.α) :=
  j.talk.chronicled (engine (host Surroundings.callbacks Surroundings.talk) programDepth)
    (beside (p.started j.vm j.record) [])

theorem machine_forget (r : EStateM.Result Halt (Machine (Chronicled H)) α) :
    Live.machine (forget r) = plain (Live.machine r) := by
  cases r <;> rfl

end Chronicled

namespace Annals.Lawful

open Chronicled

theorem hold {A : Annals Desk} (laws : A.Lawful) (c : Conduct) (depth : Nat) (d : Dialogue)
    {m : Machine Desk} (core : m.vm.core = A.core) (start : A.holds m.heap []) :
    forget (Chronicled.hold c depth d m) = d.hold (Desk.serve (c.host.engine depth)) m ∧
      A.Going (Live.machine (Chronicled.hold c depth d m)) := by
  have gentles : ∀ f, (c.talk f).Gentle := fun f => (c.dialogue f).talk_gentle _
  obtain ⟨same, going⟩ := laws.talk_chronicled (c := c.callbacks) gentles
    (d.talk_gentle (c.host.engine 0)) depth core start
  rw [c.talk_host, Dialogue.talk_run] at same
  exact ⟨same, going⟩

theorem work {A : Annals Surroundings} (laws : A.Lawful) {p : Program} {s : Step} {j : Job}
    (job : p.job? s = some j) (core : j.vm.core = A.core) (start : A.holds p.heap []) :
    (p.step s).2 = p.leave j.name (plain (Live.machine (Chronicled.work p j))) ∧
      A.Going (Live.machine (Chronicled.work p j)) := by
  have step := p.step_job s
  rw [job] at step
  obtain ⟨-, -, gentle, step⟩ := step
  obtain ⟨same, going⟩ := laws.talk_chronicled (c := Surroundings.callbacks)
    Surroundings.talk_gentle gentle programDepth (m := p.started j.vm j.record) core start
  rw [Surroundings.talk_host] at same
  refine ⟨?_, going⟩
  rw [step, ← machine_forget]
  change (p.work j.name j.vm j.record _).2 = _
  rw [Program.work_ended, Program.ended_snd]
  exact congrArg (fun r => p.leave j.name (Live.machine r)) same.symm

end Annals.Lawful

namespace Program

/-- The second program has the lists and classes of the first, and no others. -/
structure Rests (p q : Program) : Prop where
  lists : q.heap.lists = p.heap.lists
  classes : q.heap.classes = p.heap.classes

namespace Rests

variable {p q : Program} {name : String} {vm : Vm} {record : VmRecord}

theorem of_eq (same : q.heap = p.heap) : p.Rests q := ⟨congrArg _ same, congrArg _ same⟩

theorem registering {x : Except BoundaryFault Program} (ok : ∀ q, x = .ok q → p.Rests q) :
    p.Rests (p.registering x).2 := by
  cases x with
  | ok q => exact ok q rfl
  | error f => exact of_eq rfl

theorem register {e : Entry} {enter : HostFunction → VmRecord → VmRecord}
    (registered : p.register name e enter = .ok q) : q.heap = p.heap := by
  unfold Program.register at registered
  cases entered : p.registry.register e with
  | error f =>
    rw [entered] at registered
    cases registered
  | ok result =>
    rw [entered] at registered
    cases registered
    rfl

theorem registerMany (p : Program) (name stem : String) (indices : List Nat) :
    (p.registerMany name stem indices).2.heap = p.heap := by
  induction indices generalizing p with
  | nil => rfl
  | cons i rest ih =>
    unfold Program.registerMany
    cases registered : p.registerMethod name (stem ++ i.repr ++ "()") (numbered i) with
    | error f => rfl
    | ok q => exact (ih q).trans (register registered)

theorem work {β : Type} {act : Client β} (gentle : Live.Gentle act) :
    p.Rests (p.work name vm record act).2 := by
  rw [work_ended, ended_snd]
  have rests := gentle (p.started vm record)
  exact ⟨rests.lists, rests.classes⟩

end Rests

/-- A step that runs nothing makes a machine, with its core classes, or leaves all lists and classes
as they are. -/
theorem step_quiet {p : Program} {s : Step} (quiet : p.job? s = none) :
    p.Rests (p.step s).2 ∨ (p.step s).2.heap = p.heap.addCore.2 := by
  unfold step stepOn
  cases s with
  | machine name modules => exact .inr rfl
  | on name errand =>
    left
    unfold job? at quiet
    dsimp only at quiet ⊢
    cases found : p.machines.get? name with
    | none => exact .of_eq rfl
    | some there =>
      obtain ⟨vm, record⟩ := there
      rw [found] at quiet
      unfold runErrand
      cases errand with
      | register member r => exact .registering fun q ok => .of_eq (Rests.register ok)
      | registerClass className maker => exact .registering fun q ok => .of_eq (Rests.register ok)
      | registerMany stem count =>
        have many := Rests.registerMany p name stem (List.range count)
        dsimp only
        revert many
        generalize p.registerMany name stem (List.range count) = result
        obtain ⟨_ | ⟨i, f⟩, q⟩ := result <;> exact fun same => .of_eq same
      | lookup variableName keep =>
        have worked : p.Rests (p.work name vm record (Client.lookup variableName)).2 :=
          .work (Client.lookup_gentle variableName)
        dsimp only
        revert worked
        generalize p.work name vm record (Client.lookup variableName) = result
        obtain ⟨⟨_ | _ | _, _⟩, _⟩ := result <;> exact fun rests => ⟨rests.lists, rests.classes⟩
      | call value signature params =>
        dsimp only at quiet ⊢
        cases held : p.values.get? value with
        | none => exact .of_eq rfl
        | some v =>
          rw [held] at quiet
          cases quiet
      | interpret source => cases quiet
      | interpretBytes bytes =>
        dsimp only [Step.text?] at quiet ⊢
        cases read : Files.readText (fun _ => .ok bytes) "" with
        | error f => exact .of_eq rfl
        | ok source =>
          rw [read] at quiet
          cases quiet
      | interpretFile path =>
        dsimp only [Step.text?] at quiet ⊢
        cases read : p.files.readText path with
        | error f => exact .of_eq rfl
        | ok source =>
          rw [read] at quiet
          cases quiet
      | setModulesDir path => exact .of_eq rfl
      | breakWriter channel => exact .of_eq rfl
  | _ => exact .inl (.of_eq rfl)

/-- What holds of the heap at the start of a session holds for good, if steps keep it: those that
run nothing, and those that do. -/
theorem heap_after {P : Heap → Prop} (start : P .empty)
    (rests : ∀ {p q : Program}, P p.heap → p.Rests q → P q.heap)
    (addCore : ∀ {h : Heap}, P h → P h.addCore.2)
    (jobs : ∀ {p : Program} {s j}, p.job? s = some j → P p.heap → P (p.step s).2.heap)
    (files : Files) (ss : List Step) : P (after files ss).heap := by
  induction ss using List.reverseRecOn with
  | nil => exact start
  | append_singleton ss s ih =>
    rw [after_snoc]
    cases job : (after files ss).job? s with
    | some j => exact jobs job ih
    | none =>
      obtain quiet | made := step_quiet job
      · exact rests ih quiet
      · rw [made]
        exact addCore ih

end Program
end ScriptHost
