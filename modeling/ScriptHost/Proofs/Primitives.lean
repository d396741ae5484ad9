import ScriptHost.Proofs.Primitives.Keeping
import ScriptHost.Proofs.Primitives.Misuse

/-! Primitives stay at home. On a grounded machine the guarded interpreter, which lets no primitive
run away from home, does what the plain one does, and leaves the machine grounded. So the answers
that primitives have for other receivers are never given, and no argument is ever missing. -/

namespace ScriptHost

theorem Action.Alike.eq_of_own {h : Heap} {a b : Action} (alike : a.Alike h.own b) : a = b := by
  cases alike with
  | load name => rfl
  | send signature hv hvs => rw [hv.eq_of_own, hvs.eq_of_own]

namespace Guarded

variable (alarm : Halt)

theorem send_run {H : Type} {host : Host H} {engine : Engine H} {m : Machine H} (receiver : Value)
    (signature : String) (args : List Value) :
    (send alarm host engine receiver signature args).run m =
      (match m.method? receiver signature with
        | none => Primitive.answer (answerAnyway m receiver signature args)
        | some (.primitive p) =>
          if p.AtHome m.vm receiver signature args then apply alarm engine p receiver args
          else throwThe Halt alarm
        | some (.foreign f) => callForeign host engine f receiver args
        | some (.script decl) => nested (callScript engine decl receiver args)
        | some (.constructor decl) =>
          match receiver with
          | .classObject id => nested (construct host engine id decl args)
          | _ => throwThe Halt alarm : Run H Value).run m := rfl

/-- On a grounded machine an action whose message fits lets no primitive run away from home. -/
theorem run_eq {m : Machine Desk} (grounded : m.Grounded) (host : Host Desk) (engine : Engine Desk)
    {action : Action} (made : action.Alike m.heap.own action) (fits : action.Fits) :
    (run alarm host engine action).run m = (action.run host engine).run m := by
  cases made with
  | load name => rfl
  | @send receiver _ args _ signature hv _ =>
    change (send alarm host engine receiver signature args).run m =
      (invoke host engine receiver signature args).run m
    rw [send_run, invoke_run]
    cases found : m.method? receiver signature with
    | none => rfl
    | some x =>
      cases x with
      | primitive p =>
        have atHome : p.AtHome m.vm receiver signature args := grounded.atHome hv found fits
        dsimp only
        rw [if_pos atHome, atHome.apply_eq]
      | constructor decl =>
        obtain ⟨id, rfl, -⟩ := grounded.constructs hv found
        rfl
      | _ => rfl

variable {c : Conduct} (honest : c.Honest)
include honest

/-- An action whose message fits, with engines that do the same. -/
theorem run_sim {e₁ e₂ : Engine Desk}
    (engines : Engine.Alike groundedTwice c.host c.host (e₁.strict alarm) e₂) {ρ : Renaming}
    {a b : Action} (alike : a.Alike ρ b) (fits : a.Fits) :
    RunSim groundedTwice ρ .alike (a.run c.host e₁) (run alarm c.host e₂ b) := by
  rintro m _ ⟨rfl, rfl, grounded⟩
  obtain rfl := alike.eq_of_own
  rw [← Action.run_strict alarm c e₁ grounded.orderly, run_eq alarm grounded c.host e₂ alike fits]
  exact ScriptHost.run_sim (Machine.Grounded.conduct_nesting honest) engines alike trivial _ _
    grounded.going

/-- The two interpreters do the same on a grounded machine. -/
theorem engine_sim (depth : Nat) :
    Engine.Alike groundedTwice c.host c.host ((c.host.engine depth).strict alarm)
      (engine alarm c.host depth) :=
  Strict.engines_alike alarm c (fun there => there) (fun there => there) (fun _ _ => trivial) rfl
    (fun _ ih => run_sim alarm honest ih) depth

/-- The same engines, beside a host whose functions are never run. -/
theorem idle_sim (depth : Nat) :
    Engine.Alike groundedTwice (Audit.idle c.callbacks) (Audit.idle c.callbacks)
      ((c.host.engine depth).strict alarm) (engine alarm c.host depth) :=
  { engine_sim alarm honest depth with }

end Guarded

/-! ### Runs -/

/-- Two runs that came to the same, and left the machine grounded. -/
inductive SameGrounded {α : Type} : EStateM.Result Halt (Machine Desk) α →
    EStateM.Result Halt (Machine Desk) α → Prop
  | ok {a m} : m.Grounded → SameGrounded (.ok a m) (.ok a m)
  | halt {h m} : m.Grounded → SameGrounded (.error h m) (.error h m)

namespace SameGrounded

variable {α : Type} {x y : EStateM.Result Halt (Machine Desk) α}

theorem eq (same : SameGrounded x y) : x = y := by
  cases same <;> rfl

theorem of_ended {Q : Renaming → α → Machine Desk → α → Machine Desk → Prop} {ρ : Renaming}
    (ended : groundedTwice.Ended ρ Q x y)
    (same : ∀ {σ a m b n}, Q σ a m b n → b = a ∧ n = m ∧ m.Grounded) : SameGrounded y x := by
  obtain ⟨-, hQ⟩ | ⟨-, rfl, rfl, grounded⟩ | stopped := ended
  · obtain ⟨rfl, rfl, grounded⟩ := same hQ
    exact .ok grounded
  · exact .halt grounded
  · exact stopped.elim

theorem of_concluded {x y : EStateM.Result Halt (Machine Desk) (Except InterpretError Unit)}
    {ρ : Renaming} (ended : groundedTwice.Ended ρ groundedTwice.Concluded x y) :
    SameGrounded y x := by
  refine .of_ended ended ?_
  rintro σ _ m _ n (⟨rfl, rfl, grounded⟩ | ⟨rfl, rfl, grounded⟩ | ⟨rfl, rfl, grounded⟩) <;>
    exact ⟨rfl, rfl, grounded⟩

end SameGrounded

namespace Guarded

variable (alarm : Halt) {c : Conduct} (honest : c.Honest) (depth : Nat) {m : Machine Desk}
  (grounded : m.Grounded)
include honest grounded

theorem perform_same {action : Action} (fits : action.Fits)
    (made : action.Alike m.heap.own action) :
    SameGrounded (((engine alarm c.host depth).perform action).run m)
      (((c.host.engine depth).perform action).run m) := by
  rw [← (c.host.engine depth).strict_perform alarm _ fits]
  refine .of_ended ((engine_sim alarm honest depth).perform made m m grounded.going) ?_
  rintro σ _ m _ n (⟨⟨rfl, rfl, grounded⟩, hvw⟩ | ⟨rfl, rfl, grounded⟩)
  · exact ⟨congrArg Except.ok hvw.eq_of_own.symm, rfl, grounded⟩
  · exact ⟨rfl, rfl, grounded⟩

theorem interpret_same (moduleName source : String) :
    SameGrounded ((engine alarm c.host depth).interpret moduleName source m)
      ((c.host.engine depth).interpret moduleName source m) := by
  rw [← (c.host.engine depth).strict_interpret alarm]
  exact .of_concluded (Engine.interpret_sim (Machine.Grounded.driven honest.callbacks).toReporting
    (idle_sim alarm honest depth) (Machine.Grounded.covers moduleName source) grounded.going
    (Machine.Grounded.rewound moduleName))

theorem call_same (signature : String) :
    SameGrounded ((engine alarm c.host depth).call signature m)
      ((c.host.engine depth).call signature m) := by
  rw [← (c.host.engine depth).strict_call alarm]
  exact .of_concluded (Engine.call_sim (Machine.Grounded.driven honest.callbacks)
    (idle_sim alarm honest depth) signature grounded.going)

theorem hold_same (d : Dialogue) (fair : d.Honest) :
    SameGrounded (d.hold (Desk.serve (engine alarm c.host depth)) m)
      (d.hold (Desk.serve (c.host.engine depth)) m) := by
  rw [← Desk.hold_strict alarm (c.host.engine depth)]
  refine .of_ended (Machine.Grounded.hold_sim honest.callbacks (idle_sim alarm honest depth) d fair
    m m grounded.going) ?_
  rintro σ _ m _ n ⟨⟨rfl, rfl, grounded⟩, rfl⟩
  exact ⟨rfl, rfl, grounded⟩

end Guarded

/-- Whatever it stops with where a primitive would run away from home, for a receiver that is not of
the class it was made for or with arguments too many or too few, and where a constructor would run
for an object: for a host that makes up no values, the guarded interpreter does on a grounded
machine what the plain one does, in every message that fits, every script, every call by any
signature, and all that a program of the host goes on to ask for. No fault that these come to is
that of a missing argument, or of a constructor on an object. They leave the machine grounded, which
a fresh one is; and whatever is found for a value of a grounded machine is a primitive at home, or a
constructor only if the value is a class. -/
theorem primitives_at_home {c : Conduct} (honest : c.Honest) (alarm : Halt) (depth : Nat)
    {m : Machine Desk} (grounded : m.Grounded) :
    (∀ action : Action, action.Fits → action.Alike m.heap.own action →
      SameGrounded (((Guarded.engine alarm c.host depth).perform action).run m)
        (((c.host.engine depth).perform action).run m) ∧
      ∀ e m', ((c.host.engine depth).perform action).run m = .ok (.error e) m' →
        e.fault.isMisuse = false) ∧
    (∀ moduleName source,
      SameGrounded ((Guarded.engine alarm c.host depth).interpret moduleName source m)
        ((c.host.engine depth).interpret moduleName source m) ∧
      ∀ e m', (c.host.engine depth).interpret moduleName source m = .ok (.error (.runtime e)) m' →
        e.fault.isMisuse = false) ∧
    (∀ signature,
      SameGrounded ((Guarded.engine alarm c.host depth).call signature m)
        ((c.host.engine depth).call signature m) ∧
      ∀ e m', (c.host.engine depth).call signature m = .ok (.error (.runtime e)) m' →
        e.fault.isMisuse = false) ∧
    (∀ d : Dialogue, d.Honest →
      SameGrounded (d.hold (Desk.serve (Guarded.engine alarm c.host depth)) m)
        (d.hold (Desk.serve (c.host.engine depth)) m)) ∧
    (∀ desk : Desk, (∀ v, ¬desk.Offers v) → (Machine.fresh desk).Grounded) ∧
    (∀ v : Value, v.Alike m.heap.own v → ∀ signature args,
      args.length = signatureArity signature →
      (∀ p, m.method? v signature = some (.primitive p) → p.AtHome m.vm v signature args) ∧
      ∀ decl, m.method? v signature = some (.constructor decl) → v.isClass) := by
  have performs := Guarded.perform_ordinary alarm c.host depth
  have runs := Course.ordinary.runs performs
  refine ⟨fun action fits made => ?_, fun moduleName source => ?_, fun signature => ?_,
    fun d fair => Guarded.hold_same alarm honest depth grounded d fair,
    fun desk empty => .fresh empty, fun v hv signature args fits =>
      ⟨fun p found => grounded.atHome hv found fits, fun decl found => ?_⟩⟩
  · have same := Guarded.perform_same alarm honest depth grounded fits made
    exact ⟨same, fun e m' failed =>
      Course.ordinary.fault (performs action) (same.eq.trans failed)⟩
  · have same := Guarded.interpret_same alarm honest depth grounded moduleName source
    exact ⟨same, fun e m' failed => Course.ordinary.interpret runs (same.eq.trans failed)⟩
  · have same := Guarded.call_same alarm honest depth grounded signature
    exact ⟨same, fun e m' failed => Course.ordinary.call runs (same.eq.trans failed)⟩
  · obtain ⟨id, rfl, -⟩ := grounded.constructs hv found
    rfl

/-- A script with classes of its own under the names of core classes, whose primitives it uses. -/
def namesakes : String :=
  "class Num \x7b\n  construct new() \x7b\x7d\n  toString \x7b return \"mine\" \x7d\n\x7d\n" ++
    "class List \x7b\x7d\nvar all = [true, \"a\" + \"b\", -1 + 2 * 3, Num.new()]\n" ++
    "all.add(\"ab\".contains(\"b\") == null)\nSystem.print(all)\nSystem.print(List)"

/-- The guarded interpreter comes to the end of such a script. -/
theorem primitives_at_home_namesakes :
    obliging.conduct.Honest ∧ (Machine.fresh Desk.empty).Grounded ∧
    ∃ m', (Guarded.engine (.panic "away") obliging.conduct.host unreachedDepth).interpret "main"
        namesakes (.fresh .empty) = .ok (.ok ()) m' ∧ m'.Grounded := by
  obtain ⟨m', ran, -⟩ := ended_of_check
    (r := (obliging.conduct.host.engine unreachedDepth).interpret "main" namesakes (.fresh .empty))
    (P := fun _ => True) (by decide +kernel)
  have honest : obliging.conduct.Honest := obliging.conduct_honest
  have grounded : (Machine.fresh Desk.empty).Grounded :=
    .fresh fun v ⟨handle, offered⟩ => nomatch offered
  obtain ⟨-, scripts, -⟩ := primitives_at_home honest (.panic "away") unreachedDepth grounded
  have same := (scripts "main" namesakes).1
  rw [ran] at same
  refine ⟨honest, grounded, m', ?_⟩
  revert same
  generalize (Guarded.engine _ _ _).interpret _ _ _ = r
  rintro ⟨there⟩
  exact ⟨rfl, there⟩

end ScriptHost
