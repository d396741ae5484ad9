import ScriptHost.Proofs.Homes.Dialogues
import ScriptHost.Proofs.Homes.Machines
import ScriptHost.Proofs.Homes.Objects

/-! Where bodies look for free names. A class has the name of the module that its declaration was
executed in, and nothing else of it. A body of the class finds the module again by that name, in the
machine that runs the body: in the machine that executed the declaration this is the very module,
and in another one it is that machine's own module of the name. -/

namespace ScriptHost

/-- Whoever runs a body of a class, it goes for free names to the module that the declaration of the
class was executed in. -/
def OwnModules (notes : List Note) : Prop :=
  ∀ classId home home' name assigned, .declared classId home ∈ notes →
    .free classId home' name assigned ∈ notes → home' = home

/-- Bodies of a class go for free names to the module, of the machine that runs them, that has the
name of the one that the declaration of the class was executed in. -/
def ModulesByName (notes : List Note) : Prop :=
  ∀ classId home home' name assigned, .declared classId home ∈ notes →
    .free classId home' name assigned ∈ notes →
    home'.moduleName = home.moduleName ∧ (home'.core = home.core → home' = home)

theorem modulesByName_of_named {notes : List Note} {h : Heap}
    (named : ∀ note ∈ notes, h.InModule note.classId note.home.moduleName) :
    ModulesByName notes := by
  intro classId home home' name assigned declared free
  have same : home'.moduleName = home.moduleName := (named _ free).unique (named _ declared)
  refine ⟨same, fun core => ?_⟩
  obtain ⟨core', moduleName'⟩ := home'
  cases core
  cases same
  rfl

namespace Diaried

/-- A dialogue held from the outside, with a diary that is blank. -/
def hold (c : Conduct) (depth : Nat) (d : Dialogue) (m : Machine Desk) :
    EStateM.Result Halt (Machine (Diaried Desk)) Unit :=
  (d.talk (c.host.engine 0)).noted (engine (Talk.notedHost c.callbacks c.talk) depth)
    (beside m [])

/-- On one machine, all bodies go to their own modules, whatever the host functions do, and those of
classes that were there before to the modules that these have. -/
theorem hold_told (c : Conduct) (depth : Nat) (d : Dialogue) (m : Machine Desk) :
    let told := hold c depth d m
    let notes := (Live.machine told).host.diary
    forget told = d.hold (Desk.serve (c.host.engine depth)) m ∧ OwnModules notes ∧
    ∀ note ∈ notes, note.home.core = m.vm.core ∧
      ∀ k, m.heap.class? note.classId = some k → note.home.moduleName = k.moduleName := by
  intro told notes
  obtain ⟨same, -, known, true⟩ := talk_noted (fun f => ((c.dialogue f).talk_gentle _).mild)
    (d.talk_gentle (c.host.engine 0)).mild depth m
  have byName : ModulesByName notes :=
    modulesByName_of_named fun note listed => (true note listed).2
  refine ⟨?_, fun k home home' name assigned declared free => ?_, fun note listed => ?_⟩
  · have plain : Talk.host c.callbacks (fun f => (c.dialogue f).talk (c.host.engine 0)) = c.host :=
      c.talk_host
    rw [plain, Dialogue.talk_run] at same
    exact same
  · exact (byName k home home' name assigned declared free).2
      ((true _ free).1.trans (true _ declared).1.symm)
  · refine ⟨(true note listed).1, fun k found => ?_⟩
    exact (true note listed).2.unique (known _ _ ⟨k, found, rfl⟩)

end Diaried

namespace Program

/-- Whatever a session does on however many machines, whoever calls: its diary leaves all as it is,
and every body of a class goes for free names to the module of the machine that runs it that has the
name of the module in which the declaration of the class was executed. In the machine that executed
the declaration this is the very module. Machines are told apart by their core classes, which each
keeps for as long as it is there; what a step notes is about the machine of the step, and only steps
that run no scripts are left without a diary; and no constructor is left out, for its object is of
its class. The same holds of one machine that host functions of any sort run scripts and call
methods on, where all bodies go to their own modules. -/
theorem bodies_use_modules_by_name (files : Files) (ss : List Step) :
    ((start files).stepsNoted ss).1 = (start files).steps ss ∧
    ModulesByName (diary files ss) ∧
    (after files ss).Told (diary files ss) ∧
    (∀ s, (∀ name modules, s ≠ .machine name modules) →
      (after files ss).Continues (after files (ss ++ [s]))) ∧
    (∀ s, diary files (ss ++ [s]) = ((after files ss).stepNoted s).2 ++ diary files ss ∧
      ∀ note ∈ ((after files ss).stepNoted s).2, ∃ name errand vm record,
        s = .on name errand ∧ (after files ss).machines.get? name = some (vm, record) ∧
        note.home.core = vm.core) ∧
    (∀ s, (after files ss).job? s = none →
      ∀ engine, (after files ss).stepOn engine s = (after files ss).step s) ∧
    (∀ engine classId c args object, ∀ m n : Machine (Diaried Surroundings),
      (newObject Job.host engine classId c args).run m = .ok (.ok object) n →
      n.classOf object = classId) ∧
    ∀ (c : Conduct) (depth : Nat) (d : Dialogue) (m : Machine Desk),
      let told := Diaried.hold c depth d m
      let notes := (Live.machine told).host.diary
      Diaried.forget told = d.hold (Desk.serve (c.host.engine depth)) m ∧ OwnModules notes ∧
      ∀ note ∈ notes, note.home.core = m.vm.core ∧
        ∀ k, m.heap.class? note.classId = some k → note.home.moduleName = k.moduleName := by
  have told := told_after files ss
  refine ⟨stepsNoted_steps (start files) ss, modulesByName_of_named told.named, told,
    fun s other => ?_, fun s => ⟨diary_append files ss s, fun note noted => ?_⟩,
    fun s none => ?_, fun engine classId c args object m n made => Job.newObject_class made,
    Diaried.hold_told⟩
  · rw [after_snoc]
    exact .step (after files ss) other
  · obtain ⟨name, errand, vm, record, about, found, core, -⟩ := step_notes noted
    exact ⟨name, errand, vm, record, about, found, core⟩
  · have silent := step_job (after files ss) s
    rw [none] at silent
    exact silent

/-- A class that one machine declares is called through another, which has a variable of the same
name in a module of the same name, and then through its own. -/
def crossing : List Step := [
  .machine "a" false,
  .machine "b" false,
  .on "a" (.interpret
    "var Name = \"a\"\nclass Teller \x7b\n  static tell() \x7b Name \x7d\n\x7d"),
  .on "b" (.interpret "var Name = \"b\""),
  .on "a" (.lookup "Teller" "teller"),
  .on "b" (.call "teller" "tell()" []),
  .on "a" (.call "teller" "tell()" [])]

theorem diary_crossing : diary noFiles crossing =
    [.free 12 ⟨0, "main"⟩ "Name" false, .free 12 ⟨6, "main"⟩ "Name" false,
      .declared 12 ⟨0, "main"⟩] := by
  decide +kernel

/-- The body called through the other machine reads the variable of that machine's module. -/
theorem crossing_reads_other_module :
    ((start noFiles).steps crossing).1.map StepReport.text? =
      [none, none, none, none, none, some "b", some "a"] ∧
    ¬OwnModules (diary noFiles crossing) := by
  refine ⟨by decide +kernel, fun own => ?_⟩
  rw [diary_crossing] at own
  have same := own 12 ⟨0, "main"⟩ ⟨6, "main"⟩ "Name" false (by decide) (by decide)
  exact absurd same (by decide)

/-- A host function that calls what it is given. -/
def callingBack : Plan where
  modules :=
    [("bank", "var Name = \"bank\"\nclass Teller \x7b\n  static tell() \x7b Name \x7d\n\x7d")]
  methods := [("static Visitor.ask(_)", .requests
    [.takeHandle 1 "teller", .putHandle 0 "teller", .prepareCall "tell()" "tell", .call "tell"])]
  classes := []
  hearing := ⟨true, true, true, true, true⟩

/-- A script that has it call a class of another module. -/
def visit : Dialogue := .ofRequests [.interpret "main"
  ("import \"bank\" for Teller\nvar Name = \"main\"\n" ++
    "class Visitor \x7b\n  foreign static ask(teller)\n\x7d\nVisitor.ask(Teller)")]

/-- What is noted of the visit. -/
def visitNotes : List Note :=
  (Live.machine (Diaried.hold callingBack.conduct unreachedDepth visit (.fresh .empty))).host.diary

theorem visitNotes_eq : visitNotes =
    [.free 6 ⟨0, "bank"⟩ "Name" false, .declared 7 ⟨0, "main"⟩, .declared 6 ⟨0, "bank"⟩] := by
  decide +kernel

/-- Of the two calls, the one through the machine of the class goes to the very module; and so does
the one from a host function. -/
theorem bodies_use_modules_by_name_crossing :
    (∃ home other own : Home, .declared 12 home ∈ diary noFiles crossing ∧
      .free 12 other "Name" false ∈ diary noFiles crossing ∧ other.core ≠ home.core ∧
      .free 12 own "Name" false ∈ diary noFiles crossing ∧ own.core = home.core ∧
      other.moduleName = home.moduleName ∧ own = home) ∧
    ∃ home home' : Home, .declared 6 home ∈ visitNotes ∧ .free 6 home' "Name" false ∈ visitNotes ∧
      home' = home := by
  obtain ⟨-, byName, -, -, -, -, -, embedded⟩ := bodies_use_modules_by_name noFiles crossing
  obtain ⟨-, own, -⟩ := embedded callingBack.conduct unreachedDepth visit (.fresh .empty)
  have declared : .declared 12 ⟨0, "main"⟩ ∈ diary noFiles crossing := by
    rw [diary_crossing]
    decide
  have elsewhere : .free 12 ⟨6, "main"⟩ "Name" false ∈ diary noFiles crossing := by
    rw [diary_crossing]
    decide
  have here : .free 12 ⟨0, "main"⟩ "Name" false ∈ diary noFiles crossing := by
    rw [diary_crossing]
    decide
  have visited : .declared 6 ⟨0, "bank"⟩ ∈ visitNotes := by
    rw [visitNotes_eq]
    decide
  have asked : .free 6 ⟨0, "bank"⟩ "Name" false ∈ visitNotes := by
    rw [visitNotes_eq]
    decide
  exact ⟨⟨⟨0, "main"⟩, ⟨6, "main"⟩, ⟨0, "main"⟩, declared, elsewhere, by decide, here, rfl,
      (byName _ _ _ _ _ declared elsewhere).1, (byName _ _ _ _ _ declared here).2 rfl⟩,
    ⟨0, "bank"⟩, ⟨0, "bank"⟩, visited, asked, own _ _ _ _ _ visited asked⟩

end Program
end ScriptHost
