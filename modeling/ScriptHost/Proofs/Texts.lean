import ScriptHost.Proofs.Lists

/-! The text of a value. What is written, printed, put into a string or shown as an element of a
list is asked of the value in the same way: its `toString` is sent, a string that comes back is the
text, and anything else makes it what the machine calls the value. That numbers and strings are not
asked makes no difference. -/

namespace ScriptHost

variable {H α β γ : Type}

/-! ### What comes of `toString` -/

/-- The text of a value from what its `toString` came to: a string is the text, and with anything
else it is what the machine calls the value. -/
def Heap.textBy (h : Heap) (v : Value) : Value → String
  | .string s => s
  | _ => h.describe v

/-- What comes of a use of a value's text, from what came of its `toString`: the text is used, or
there is none and nothing else happens. -/
inductive GivesText (v : Value) (use : String → Machine H → EStateM.Result Halt (Machine H) γ)
    (fail : RuntimeError → γ) : EStateM.Result Halt (Machine H) (Except RuntimeError Value) →
    EStateM.Result Halt (Machine H) γ → Prop
  | text {w : Value} {m : Machine H} :
    GivesText v use fail (.ok (.ok w) m) (use (m.heap.textBy v w) m)
  | fault {e : RuntimeError} {m : Machine H} :
    GivesText v use fail (.ok (.error e) m) (.ok (fail e) m)
  | halt {h : Halt} {m : Machine H} : GivesText v use fail (.error h m) (.error h m)

/-- What is asked of an engine that comes to a text. -/
abbrev Engine.GivesText (engine : Engine H) (v : Value) (m : Machine H) (x : Run H String) : Prop :=
  ScriptHost.GivesText v (fun s n => .ok (.ok s) n) .error ((engine.send v "toString" []).run m)
    (x.run m)

/-- The text goes on into what it is used for. -/
theorem Engine.GivesText.bind {engine : Engine H} {v : Value} {m : Machine H} {x : Run H String}
    (gives : engine.GivesText v m x) (f : String → Run H α) :
    ScriptHost.GivesText v (fun s n => (f s).run n) .error ((engine.send v "toString" []).run m)
      ((x >>= f).run m) := by
  have whole : (x >>= f).run m = EStateM.bind x.run (ExceptT.bindCont f) m := rfl
  rw [whole]
  unfold EStateM.bind
  revert gives
  unfold Engine.GivesText
  generalize (engine.send v "toString" []).run m = asked, x.run m = text
  rintro (_ | _ | _)
  · exact .text
  · exact .fault
  · exact .halt

/-- The same inside an activation. -/
theorem Engine.GivesText.bind_script {engine : Engine H} {v : Value} {m : Machine H}
    {x : Run H String} (gives : engine.GivesText v m x) (f : String → Script H α) (g : Frame) :
    ScriptHost.GivesText v (fun s n => (f s).run.run g n) (fun e => (.error e, g))
      ((engine.send v "toString" []).run m) ((Script.ofRun x >>= f).run.run g m) := by
  have whole : (Script.ofRun x >>= f).run.run g m =
      EStateM.bind (EStateM.bind x.run fun r => pure (r, g))
        (fun r => (ExceptT.bindCont f r.1).run r.2) m := rfl
  rw [whole]
  unfold EStateM.bind
  revert gives
  unfold Engine.GivesText
  generalize (engine.send v "toString" []).run m = asked, x.run m = text
  rintro (_ | _ | _)
  · exact .text
  · exact .fault
  · exact .halt

/-- The text of a value that is asked for it. -/
theorem Engine.givesText_asked (engine : Engine H) (v : Value) (m : Machine H) :
    engine.GivesText v m (do
      let w ← engine.send v "toString" []
      return (← get).heap.textBy v w) := by
  change ScriptHost.GivesText v _ _ _ (EStateM.bind (engine.send v "toString" []).run
    (ExceptT.bindCont fun w => do return (← get).heap.textBy v w) m)
  unfold EStateM.bind
  generalize (engine.send v "toString" []).run m = answer
  obtain ⟨e | w, n⟩ | ⟨h, n⟩ := answer
  · exact .fault
  · exact .text
  · exact .halt

namespace Machine.HasCore

variable {m : Machine H} (core : m.HasCore)
include core

/-- A string and a number answer `toString` by themselves. -/
theorem send_toString (host : Host H) (depth : Nat) :
    (∀ s, ((host.engine (depth + 1)).send (.string s) "toString" []).run m =
      .ok (.ok (.string s)) m) ∧
    ∀ x, ((host.engine (depth + 1)).send (.number x) "toString" []).run m =
      .ok (.ok (.string (numberText x))) m := by
  refine ⟨fun s => ?_, fun x => ?_⟩
  · change (invoke host (host.engine depth) (.string s) "toString" []).run m = _
    rw [invoke_run, core.method?_core rfl]
    rfl
  · change (invoke host (host.engine depth) (.number x) "toString" []).run m = _
    rw [invoke_run, core.method?_core rfl]
    rfl

/-- The text of a value is what its `toString` comes to, whether or not it is sent. -/
theorem textOf_givesText (host : Host H) (depth : Nat) (v : Value) :
    (host.engine (depth + 1)).GivesText v m ((host.engine (depth + 1)).textOf v) := by
  obtain ⟨strings, numbers⟩ := core.send_toString host depth
  cases v with
  | string s =>
    unfold Engine.GivesText
    rw [strings s]
    exact .text
  | number x =>
    unfold Engine.GivesText
    rw [numbers x]
    exact .text
  | _ =>
    refine (congrArg (Engine.GivesText _ _ m) (bind_congr fun w => ?_)).mpr
      (Engine.givesText_asked _ _ m)
    cases w <;> rfl

/-! ### Uses of a text -/

theorem write_givesText (host : Host H) (depth : Nat) (v : Value) :
    let engine := host.engine (depth + 1)
    let system := Value.classObject (m.vm.coreClass .system)
    let wrote (s : String) (n : Machine H) : EStateM.Result Halt (Machine H) _ :=
      .ok (.ok v) (n.onHost (host.callbacks.write s)).2
    GivesText v wrote .error ((engine.send v "toString" []).run m)
        ((invoke host engine system "write(_)" [v]).run m) ∧
      GivesText v (fun s => wrote (s ++ "\n")) .error ((engine.send v "toString" []).run m)
        ((invoke host engine system "print(_)" [v]).run m) := by
  have own (signature : String) :
      m.method? (.classObject (m.vm.coreClass .system)) signature =
        CoreClass.system.object.statics.get? signature := by
    unfold Machine.method?
    dsimp only
    rw [core .system]
    rfl
  have text := core.textOf_givesText host depth v
  constructor
  · have written := text.bind fun s => do
      (host.engine (depth + 1)).write s
      return v
    rw [invoke_run, own]
    exact written
  · have printed := text.bind fun s => do
      (host.engine (depth + 1)).write (s ++ "\n")
      return v
    rw [invoke_run, own]
    exact printed

/-- A part of an interpolated string. -/
theorem fragment_givesText {host : Host H} (depth : Nat) {x : Expr} {f g : Frame} {k : Machine H}
    {v : Value} (rest : List Fragment)
    (evaluated : (eval (host.engine (depth + 1)) x).run.run f k = .ok (.ok v, g) m) :
    let engine := host.engine (depth + 1)
    GivesText v (fun s n => ((s ++ ·) <$> evalFragments engine rest).run.run g n)
      (fun e => (.error e, g)) ((engine.send v "toString" []).run m)
      ((evalFragments engine (.code x :: rest)).run.run f k) := by
  have text := (core.textOf_givesText host depth v).bind_script (fun s =>
    (s ++ ·) <$> evalFragments (host.engine (depth + 1)) rest) g
  have part : (evalFragments (host.engine (depth + 1)) (.code x :: rest)).run.run f k =
      (Script.ofRun ((host.engine (depth + 1)).textOf v) >>= fun s =>
        (s ++ ·) <$> evalFragments (host.engine (depth + 1)) rest).run.run g m := by
    conv_lhs => unfold evalFragments
    rw [Script.bind_run evaluated]
    rfl
  dsimp only
  rw [part]
  exact text

/-- An element of a list that is printed. -/
theorem element_givesText (host : Host H) (depth : Nat) (v : Value) (rest : List Value) :
    let engine := host.engine (depth + 1)
    GivesText v (fun s n => ((s :: ·) <$> engine.textsOf rest).run n) .error
      ((engine.send v "toString" []).run m) ((engine.textsOf (v :: rest)).run m) :=
  (core.textOf_givesText host depth v).bind fun s =>
    (s :: ·) <$> (host.engine (depth + 1)).textsOf rest

end Machine.HasCore

/-- The expression `x.toString`. -/
theorem Script.toString_run {engine : Engine H} {x : Expr} {f g : Frame} {m n : Machine H}
    {v : Value} (span : Span) (evaluated : (eval engine x).run.run f m = .ok (.ok v, g) n) :
    (eval engine (.getter span x "toString")).run.run f m =
      (Script.ofRun (engine.send v "toString" [])).run.run g n := by
  unfold eval
  rw [bind_run evaluated]
  rfl

/-! ### Machines of programs -/

/-- An engine that leaves the core classes where they are, whatever it runs. -/
structure Engine.KeepsCore (engine : Engine H) : Prop where
  perform : ∀ {action : Action} {m n : Machine H} {r : Except RuntimeError Value}, m.HasCore →
    (engine.perform action).run m = .ok r n → n.HasCore
  eval : ∀ {e : Expr} {f g : Frame} {m n : Machine H} {r : Except RuntimeError Value}, m.HasCore →
    (eval engine e).run.run f m = .ok (r, g) n → n.HasCore
  exec : ∀ {s : Stmt} {f g : Frame} {m n : Machine H} {r : Except RuntimeError Flow}, m.HasCore →
    (exec engine s).run.run f m = .ok (r, g) n → n.HasCore

theorem hasCore_of_settled {core : ClassId} {start : Heap} {Q : Results α β} {ρ : Renaming}
    {r : Except RuntimeError α} {s : Except RuntimeError β} {m : Machine (Chronicled H)}
    {n : Machine H} (settled : (Annals.growth H core start).erasure.Settled Q ρ r m s n) :
    n.HasCore := by
  have going : n = Chronicled.plain m ∧ (Annals.growth H core start).Going m := by
    cases settled with
    | ok going => exact going.2
    | fault going => exact going.2
  obtain ⟨rfl, kept, -, there⟩ := going
  rw [Machine.hasCore_iff]
  exact kept.symm ▸ there

section

variable {c : Callbacks H} {talks : HostFunction → Talk H Unit} {m n : Machine H}

/-- A part of an activation that does the same with a chronicle keeps the core classes. -/
theorem hasCore_of_script {Q : Results α α} {x : Script (Chronicled H) α} {y : Script H α}
    {f g : Frame} {r : Except RuntimeError α}
    (alike : ScriptSim (Annals.growth H m.vm.core m.heap).erasure .id f.moduleName Q x y)
    (core : m.HasCore) (ran : y.run.run f m = .ok (r, g) n) : n.HasCore := by
  have ended := alike f f _ _ f.alike_refl (Annals.going_plain (m := Chronicled.beside m [])
    ⟨rfl, .blank (.refl _), Machine.hasCore_iff.mp core⟩)
  change Simulation.Ended _ _ _ _ (y.run.run f m) at ended
  rw [ran] at ended
  generalize x.run.run f _ = told at ended
  obtain ⟨-, -, settled⟩ := ended
  exact hasCore_of_settled settled

theorem Talk.host_keepsCore (gentle : ∀ f, (talks f).Gentle) (depth : Nat) :
    ((Talk.host c talks).engine depth).KeepsCore where
  perform {action m n r} core ran := by
    have laws := Annals.growth_lawful H m.vm.core m.heap
    have ended := (laws.engine_sim (c := c) gentle depth).perform (Action.alike_refl action) _ _
      (Annals.going_plain (m := Chronicled.beside m [])
        ⟨rfl, .blank (.refl _), Machine.hasCore_iff.mp core⟩)
    change Simulation.Ended _ _ _ _ ((((Talk.host c talks).engine depth).perform action).run m)
      at ended
    rw [ran] at ended
    generalize ((Chronicled.engine (Chronicled.host c talks) depth).perform action).run _ = told
      at ended
    obtain ⟨-, settled⟩ := ended
    exact hasCore_of_settled settled
  eval {e f g m n r} core ran := by
    have laws := Annals.growth_lawful H m.vm.core m.heap
    exact hasCore_of_script (eval_sim (laws.talk_nesting gentle).simulates.toLawful
      (laws.engine_sim (c := c) gentle depth) e) core ran
  exec {s f g m n r} core ran := by
    have laws := Annals.growth_lawful H m.vm.core m.heap
    exact hasCore_of_script (exec_sim (laws.talk_nesting gentle).simulates.toLawful
      (laws.engine_sim (c := c) gentle depth) s fun _ _ => trivial) core ran

end

theorem Conduct.engine_keepsCore (c : Conduct) (depth : Nat) :
    (c.host.engine depth).KeepsCore := by
  rw [← c.talk_host]
  exact Talk.host_keepsCore (fun f => (c.dialogue f).talk_gentle _) depth

theorem Surroundings.engine_keepsCore (depth : Nat) :
    (Surroundings.host.engine depth).KeepsCore := by
  rw [← Surroundings.talk_host]
  exact Talk.host_keepsCore Surroundings.talk_gentle depth

open Chronicled (plain)

/-- The text of a value does not depend on what it is for. On every machine with its core classes,
whatever the host and wherever in a run: what `System.write` and `System.print` write, what stands
for the value in a string and what stands for it in a list is what the value's `toString` comes to,
if that is a string, and else what the machine calls the value; if `toString` fails or halts, each
of them does, in the same way and on the same machine, so that nothing is written. Strings and
numbers are not asked, and answer the same when they are. Every machine has its core classes: those
that are made, those that a program has, and at each moment of a run; and no message, expression or
statement takes them away, so that all this holds for one element of a list after the other. -/
theorem texts_agree :
    (∀ {H : Type} (host : Host H) (depth : Nat) (m : Machine H) (v : Value), m.HasCore →
      let engine := host.engine (depth + 1)
      let asked := (engine.send v "toString" []).run m
      let system := Value.classObject (m.vm.coreClass .system)
      let wrote (s : String) (n : Machine H) : EStateM.Result Halt (Machine H) _ :=
        .ok (.ok v) (n.onHost (host.callbacks.write s)).2
      GivesText v wrote .error asked ((invoke host engine system "write(_)" [v]).run m) ∧
      GivesText v (fun s => wrote (s ++ "\n")) .error asked
        ((invoke host engine system "print(_)" [v]).run m) ∧
      (∀ rest, GivesText v (fun s n => ((s :: ·) <$> engine.textsOf rest).run n) .error asked
        ((engine.textsOf (v :: rest)).run m)) ∧
      ∀ (x : Expr) (f g : Frame) (k : Machine H),
        (eval engine x).run.run f k = .ok (.ok v, g) m →
        (∀ span, (eval engine (.getter span x "toString")).run.run f k =
          (Script.ofRun (engine.send v "toString" [])).run.run g m) ∧
        ∀ rest, GivesText v (fun s n => ((s ++ ·) <$> evalFragments engine rest).run.run g n)
          (fun e => (.error e, g)) asked
          ((evalFragments engine (.code x :: rest)).run.run f k)) ∧
    (∀ {H : Type} (host : Host H) (engine : Engine H) (m : Machine H) (id : ListId), m.HasCore →
      (invoke host engine (.list id) "toString" []).run m =
        (do
          let texts ← engine.textsOf (m.heap.list id).toList
          return .string ("[" ++ String.intercalate ", " texts ++ "]") : Run H Value).run m) ∧
    (∀ {H : Type} (host : Host H) (depth : Nat) (m : Machine H), m.HasCore →
      let engine := host.engine (depth + 1)
      (∀ s, (engine.send (.string s) "toString" []).run m = .ok (.ok (.string s)) m ∧
        (engine.textOf (.string s)).run m = .ok (.ok s) m) ∧
      ∀ x, (engine.send (.number x) "toString" []).run m = .ok (.ok (.string (numberText x))) m ∧
        (engine.textOf (.number x)).run m = .ok (.ok (numberText x)) m) ∧
    (∀ desk : Desk, (Machine.fresh desk).HasCore) ∧
    (∀ (c : Conduct) (depth : Nat), (c.host.engine depth).KeepsCore) ∧
    (∀ (c : Conduct) (depth : Nat) (d : Dialogue) (m : Machine Desk), m.HasCore →
      let told := Chronicled.hold c depth d m
      Chronicled.forget told = d.hold (Desk.serve (c.host.engine depth)) m ∧
      (Live.machine told).HasCore ∧ ∀ x ∈ (Live.machine told).host.past, x.machine.HasCore) ∧
    (∀ depth : Nat, (Surroundings.host.engine depth).KeepsCore) ∧
    (∀ files ss, (Program.after files ss).HasCores) ∧
    (∀ files ss s j, (Program.after files ss).job? s = some j →
      ((Program.after files ss).step s).2 = (Program.after files ss).leave j.name
        (plain (Live.machine (Chronicled.work (Program.after files ss) j)))) ∧
    ∀ files ss ts, ∀ x ∈ (Program.after files ss).past ts, x.machine.HasCore := by
  refine ⟨fun host depth m v core => ?_,
    fun host engine m id core => core.sequences.text host engine id, fun host depth m core => ?_,
    fun desk => Machine.fresh_hasCore desk, fun c depth => c.engine_keepsCore depth,
    fun c depth d m core => ?_,
    Surroundings.engine_keepsCore, Program.hasCores_after,
    fun files ss s j job => (Program.leads_work (Program.hasCores_after files ss) job).1,
    fun files ss ts x among => ?_⟩
  · obtain ⟨written, printed⟩ := core.write_givesText host depth v
    exact ⟨written, printed, core.element_givesText host depth v, fun x f g k evaluated =>
      ⟨fun span => Script.toString_run span evaluated,
        fun rest => core.fragment_givesText depth rest evaluated⟩⟩
  · obtain ⟨strings, numbers⟩ := core.send_toString host depth
    exact ⟨fun s => ⟨strings s, rfl⟩, fun x => ⟨numbers x, rfl⟩⟩
  · obtain ⟨same, leads, core⟩ := leads_hold c depth d core
    exact ⟨same, core, fun x among => leads.hasCore among⟩
  · exact (Program.leads_steps (Program.hasCores_after files ss) ts).1.hasCore among

/-- What was written, in order. -/
def Desk.written (d : Desk) : List String :=
  d.events.reverse.filterMap fun
    | .write text => some text
    | _ => none

/-- A script that makes texts of values of all sorts: an object whose `toString` is a number, a
class with a `toString` of its own, an object with another, a number and a string. -/
def speaking : String :=
  "class Odd \x7b\n  construct new() \x7b\x7d\n  toString \x7b return 7 \x7d\n" ++
    "  static toString \x7b return \"the class\" \x7d\n\x7d\n" ++
    "class Own \x7b\n  construct new(name) \x7b _name = name \x7d\n" ++
    "  toString \x7b return _name \x7d\n\x7d\nvar odd = Odd.new()\n" ++
    "for (v in [odd, Odd, Own.new(\"own\"), 1.5, \"s\"]) \x7b\n" ++
    "  System.write(v)\n  System.print(v)\n  System.write(\"%(v)\")\n  System.write([v])\n\x7d"

/-- The script run by an embedding program, and as a step of a session. On the machine that it
leaves behind, what is written and what an interpolated string holds is what `toString` comes to,
for the object that does not come to a string. -/
theorem texts_agree_speaking :
    let visit := Dialogue.ofRequests [.interpret "main" speaking]
    let told := Chronicled.hold obliging.conduct unreachedDepth visit (.fresh .empty)
    let m := plain (Live.machine told)
    let host := obliging.conduct.host
    let engine := host.engine unreachedDepth
    let p := Program.after noFiles [.machine "a" false]
    m.host.written = ["instance of Odd", "the class", "own", "1.5", "s"].flatMap (fun text =>
      [text, text ++ "\n", text, "[" ++ text ++ "]"]) ∧
    (∃ v, m.vm.binding? "main" "odd" = some v ∧
      GivesText v (fun s n => .ok (.ok v) (n.onHost (host.callbacks.write s)).2) .error
        ((engine.send v "toString" []).run m)
        ((invoke host engine (.classObject (m.vm.coreClass .system)) "write(_)" [v]).run m) ∧
      let f : Frame := ⟨"main", v, [], 0, ""⟩
      GivesText v (fun s n => ((s ++ ·) <$> evalFragments engine []).run.run f n)
        (fun e => (.error e, f)) ((engine.send v "toString" []).run m)
        ((evalFragments engine [.code (.this default)]).run.run f m)) ∧
    (invoke host engine (.list 0) "toString" []).run m =
      (do
        let texts ← engine.textsOf (m.heap.list 0).toList
        return .string ("[" ++ String.intercalate ", " texts ++ "]") : Run Desk Value).run m ∧
    (engine.send (.number 1.5) "toString" []).run m =
      .ok (.ok (.string (numberText 1.5))) m ∧
    ∃ j, p.job? (.on "a" (.interpret speaking)) = some j ∧
      (p.step (.on "a" (.interpret speaking))).2 =
        p.leave j.name (plain (Live.machine (Chronicled.work p j))) := by
  obtain ⟨uses, lists, own, fresh, -, dialogues, -, -, steps, -⟩ := texts_agree
  have ran : let m := Live.machine (Chronicled.hold obliging.conduct unreachedDepth
      (.ofRequests [.interpret "main" speaking]) (.fresh .empty))
    (plain m).host.written = ["instance of Odd", "the class", "own", "1.5", "s"].flatMap (fun
      text => [text, text ++ "\n", text, "[" ++ text ++ "]"]) ∧
    (m.vm.binding? "main" "odd").isSome = true := by decide +kernel
  obtain ⟨written, bound⟩ := ran
  obtain ⟨-, core, -⟩ := dialogues obliging.conduct unreachedDepth
    (.ofRequests [.interpret "main" speaking]) (.fresh .empty) (fresh .empty)
  obtain ⟨v, found⟩ := Option.isSome_iff_exists.mp bound
  refine ⟨written, ⟨v, found, ?_, ?_⟩, ?_, ?_, ?_⟩
  · exact (uses obliging.conduct.host _ _ v core).1
  · exact ((uses obliging.conduct.host _ _ v core).2.2.2 (.this default) _ _ _ rfl).2 []
  · exact lists _ _ _ _ core
  · exact ((own obliging.conduct.host _ _ core).2 1.5).1
  · have there :
        ((Program.after noFiles [.machine "a" false]).machines.get? "a").isSome = true := by
      decide +kernel
    obtain ⟨j, job⟩ := Program.exists_job?_interpret there speaking
    exact ⟨j, job, steps noFiles _ _ j job⟩

end ScriptHost
