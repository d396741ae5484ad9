import Mathlib.Data.List.Induction
import ScriptHost.Proofs.Binding.Moment

/-! What was registered for a machine, read off the history of a session, and that the machine's
names lead there: under each name to what was registered under it last. -/

namespace ScriptHost

/-- What happened in a session: each step with its result, the latest first. -/
abbrev History := List (Step × StepResult)

namespace History

/-- The registrations of `stem0()`, `stem1()`, …, the latest first. -/
def numbered (stem : String) (count : Nat) : Table Routine :=
  ((List.range count).map fun i => (stem ++ i.repr ++ "()", Program.numbered i)).reverse

/-- The methods that a step registered for a machine, the latest first. -/
def stepMethods (name : String) : Step → StepResult → Table Routine
  | .on n (.register member r), .done => if n = name then [(member, r)] else []
  | .on n (.registerMany stem count), .done => if n = name then numbered stem count else []
  | .on n (.registerMany stem _), .failedAt i _ => if n = name then numbered stem i else []
  | _, _ => []

def stepClasses (name : String) : Step → StepResult → Table Maker
  | .on n (.registerClass className maker), .done => if n = name then [(className, maker)] else []
  | _, _ => []

/-- Whether a machine of a name is made or dropped by a step. -/
def restarts (name : String) : Step → Bool
  | .machine n _ | .dropMachine n => n = name
  | _ => false

/-- The methods registered for a machine since it was made, the latest first. -/
def methods (name : String) : History → Table Routine
  | [] => []
  | (s, r) :: before =>
    if restarts name s then [] else stepMethods name s r ++ methods name before

def classes (name : String) : History → Table Maker
  | [] => []
  | (s, r) :: before =>
    if restarts name s then [] else stepClasses name s r ++ classes name before

variable {name : String} {s : Step} {r : StepResult} {h : History}

theorem restarted (again : restarts name s = true) :
    methods name ((s, r) :: h) = [] ∧ classes name ((s, r) :: h) = [] :=
  ⟨if_pos again, if_pos again⟩

theorem wentOn (goesOn : restarts name s = false) :
    methods name ((s, r) :: h) = stepMethods name s r ++ methods name h ∧
      classes name ((s, r) :: h) = stepClasses name s r ++ classes name h := by
  have goes : ¬restarts name s = true := by
    rw [goesOn]
    exact Bool.false_ne_true
  exact ⟨if_neg goes, if_neg goes⟩

end History

/-! ### Tables that follow a list of registrations -/

namespace Table

variable {α β : Type} {R S : α → β → Prop} {t : Table α} {u : Table β}

/-- Each name leads to the first entry that a list has for it. -/
def Follows (R : α → β → Prop) (t : Table α) (u : Table β) : Prop :=
  ∀ name, Option.Rel R (t.get? name) (u.get? name)

theorem Follows.mono (h : Follows R t u) (le : ∀ {a b}, R a b → S a b) : Follows S t u :=
  fun name => optionRel_imp (h name) le

theorem Follows.of_right (h : Follows R t u) {name : String} {b : β}
    (found : u.get? name = some b) :
    ∃ a, t.get? name = some a ∧ R a b := by
  obtain ⟨-, missing⟩ | ⟨a, _, ha, hb, hab⟩ := optionRel_cases (h name)
  · cases found.symm.trans missing
  · cases found.symm.trans hb
    exact ⟨a, ha, hab⟩

theorem Follows.none_iff (h : Follows R t u) {name : String} :
    t.get? name = none ↔ u.get? name = none := by
  obtain ⟨ha, hb⟩ | ⟨a, b, ha, hb, -⟩ := optionRel_cases (h name)
  · exact iff_of_true ha hb
  · rw [ha, hb]
    exact iff_of_false nofun nofun

theorem Follows.set (h : Follows R t u) {a : α} {b : β} (hab : R a b) (name : String) :
    Follows R (t.set name a) ((name, b) :: u) := by
  intro other
  rw [get?_set, get?_cons]
  split
  · exact .some hab
  · exact h other

end Table

namespace Program

variable {p q : Program} {h : History}

def names (p : Program) (name : String) :
    Option (Table HostFunction × Table ForeignBinding) :=
  (p.machines.get? name).map fun entry => (entry.2.methods, entry.2.classes)

/-- The names of a machine lead to routines, each to the first of a list. -/
def Methods (p : Program) : Table HostFunction → Table Routine → Prop :=
  Table.Follows fun f r => p.registry.Leads f (.routine r)

def Classes (p : Program) : Table ForeignBinding → Table Maker → Prop :=
  Table.Follows fun b maker => b.MadeBy p.registry maker

/-- The names of every machine lead to what the history says. -/
def Recalls (p : Program) (h : History) : Prop :=
  ∀ name methods classes, p.names name = some (methods, classes) →
    p.Methods methods (h.methods name) ∧ p.Classes classes (h.classes name)

theorem Methods.mono {methods : Table HostFunction} {routines : Table Routine}
    (known : p.Methods methods routines) (le : p.registry ≤ q.registry) :
    q.Methods methods routines := Table.Follows.mono known fun leads => leads.mono le

theorem Classes.mono {classes : Table ForeignBinding} {makers : Table Maker}
    (known : p.Classes classes makers) (le : p.registry ≤ q.registry) :
    q.Classes classes makers := Table.Follows.mono known fun made => made.mono le

/-- A step that registers nothing, makes no machine and drops none. -/
theorem Recalls.unchanged (known : p.Recalls h) {s : Step} {r : StepResult}
    (names : ∀ name, q.names name = p.names name) (le : p.registry ≤ q.registry)
    (nothing : ∀ name, History.restarts name s = false ∧ History.stepMethods name s r = [] ∧
      History.stepClasses name s r = []) : q.Recalls ((s, r) :: h) := by
  intro name methods classes found
  rw [names] at found
  obtain ⟨knownMethods, knownClasses⟩ := known name methods classes found
  obtain ⟨goesOn, noMethods, noClasses⟩ := nothing name
  obtain ⟨methodsEq, classesEq⟩ := History.wentOn (r := r) (h := h) goesOn
  rw [methodsEq, classesEq, noMethods, noClasses]
  exact ⟨knownMethods.mono le, knownClasses.mono le⟩

/-! ### Machines made and dropped -/

theorem Recalls.addMachine (known : p.Recalls h) (name : String) (modules : Bool)
    (modulesDir : Option String) :
    (p.addMachine name modulesDir).Recalls ((.machine name modules, .done) :: h) := by
  intro other methods classes found
  unfold names at found
  change (Table.get? (p.machines.set name (_, .fresh modulesDir)) other).map _ = _ at found
  rw [Table.get?_set] at found
  by_cases same : name = other
  · rw [if_pos same.symm] at found
    cases found
    obtain ⟨methodsEq, classesEq⟩ := History.restarted (s := .machine name modules) (r := .done)
      (h := h) (decide_eq_true same)
    rw [methodsEq, classesEq]
    exact ⟨fun _ => .none, fun _ => .none⟩
  · rw [if_neg (Ne.symm same)] at found
    obtain ⟨methodsEq, classesEq⟩ := History.wentOn (s := .machine name modules) (r := .done)
      (h := h) (decide_eq_false same)
    rw [methodsEq, classesEq]
    exact known other methods classes found

theorem Recalls.dropMachine (known : p.Recalls h) (name : String) (r : StepResult) :
    Recalls { p with machines := p.machines.erase name } ((.dropMachine name, r) :: h) := by
  intro other methods classes found
  unfold names at found
  dsimp only at found
  rw [Table.get?_erase] at found
  by_cases same : name = other
  · rw [if_pos same.symm] at found
    cases found
  · rw [if_neg (Ne.symm same)] at found
    obtain ⟨methodsEq, classesEq⟩ := History.wentOn (s := .dropMachine name) (r := r) (h := h)
      (decide_eq_false same)
    rw [methodsEq, classesEq]
    exact known other methods classes found

/-! ### Registrations -/

theorem names_register {name : String} {e : Entry} {enter : HostFunction → VmRecord → VmRecord}
    (registered : p.register name e enter = .ok q) :
    p.registry ≤ q.registry ∧ ∃ f, q.registry.Leads f e ∧
      q.machines = p.machines.update name fun (vm, record) => (vm, enter f record) := by
  unfold register at registered
  cases result : p.registry.register e with
  | error f =>
    rw [result] at registered
    cases registered
  | ok found =>
    rw [result] at registered
    cases registered
    obtain ⟨le, leads, -⟩ := Registry.register_ok result
    exact ⟨le, _, leads, rfl⟩

theorem names_registerMethod {name member : String} {r : Routine}
    (registered : p.registerMethod name member r = .ok q) :
    p.registry ≤ q.registry ∧ ∃ f, q.registry.Leads f (.routine r) ∧ ∀ other, q.names other =
      if other = name then (p.names name).map fun known => (known.1.set member f, known.2)
      else p.names other := by
  obtain ⟨le, f, leads, machines⟩ := names_register registered
  refine ⟨le, f, leads, fun other => ?_⟩
  unfold names
  rw [machines, Table.get?_update]
  split
  · rename_i same
    rw [same, Option.map_map, Option.map_map]
    rfl
  · rfl

theorem names_registerClass {name className : String} {maker : Maker}
    (registered : p.registerClass name className maker = .ok q) :
    p.registry ≤ q.registry ∧ ∃ b, b.MadeBy q.registry maker ∧ ∀ other, q.names other =
      if other = name then (p.names name).map fun known => (known.1, known.2.set className b)
      else p.names other := by
  obtain ⟨le, f, leads, machines⟩ := names_register registered
  refine ⟨le, _, ⟨f, rfl, leads⟩, fun other => ?_⟩
  unfold names
  rw [machines, Table.get?_update]
  split
  · rename_i same
    rw [same, Option.map_map, Option.map_map]
    rfl
  · rfl

theorem Recalls.registerMethod (known : p.Recalls h) {name member : String} {r : Routine}
    (registered : p.registerMethod name member r = .ok q) :
    q.Recalls ((.on name (.register member r), .done) :: h) := by
  obtain ⟨le, f, leads, names⟩ := names_registerMethod registered
  intro other methods classes found
  have goesOn : History.restarts other (.on name (.register member r)) = false := rfl
  obtain ⟨methodsEq, classesEq⟩ := History.wentOn (r := .done) (h := h) goesOn
  rw [names] at found
  rw [methodsEq, classesEq]
  unfold History.stepMethods History.stepClasses
  dsimp only
  by_cases same : name = other
  · subst same
    rw [if_pos rfl] at found
    obtain ⟨⟨methods', classes'⟩, there, entered⟩ := Option.map_eq_some_iff.mp found
    cases entered
    obtain ⟨knownMethods, knownClasses⟩ := known name methods' classes' there
    rw [if_pos rfl]
    exact ⟨(knownMethods.mono le).set leads member, knownClasses.mono le⟩
  · rw [if_neg (Ne.symm same)] at found
    obtain ⟨knownMethods, knownClasses⟩ := known other methods classes found
    rw [if_neg same]
    exact ⟨knownMethods.mono le, knownClasses.mono le⟩

theorem Recalls.registerClass (known : p.Recalls h) {name className : String} {maker : Maker}
    (registered : p.registerClass name className maker = .ok q) :
    q.Recalls ((.on name (.registerClass className maker), .done) :: h) := by
  obtain ⟨le, b, made, names⟩ := names_registerClass registered
  intro other methods classes found
  have goesOn : History.restarts other (.on name (.registerClass className maker)) = false := rfl
  obtain ⟨methodsEq, classesEq⟩ := History.wentOn (r := .done) (h := h) goesOn
  rw [names] at found
  rw [methodsEq, classesEq]
  unfold History.stepMethods History.stepClasses
  dsimp only
  by_cases same : name = other
  · subst same
    rw [if_pos rfl] at found
    obtain ⟨⟨methods', classes'⟩, there, entered⟩ := Option.map_eq_some_iff.mp found
    cases entered
    obtain ⟨knownMethods, knownClasses⟩ := known name methods' classes' there
    rw [if_pos rfl]
    exact ⟨knownMethods.mono le, (knownClasses.mono le).set made className⟩
  · rw [if_neg (Ne.symm same)] at found
    obtain ⟨knownMethods, knownClasses⟩ := known other methods classes found
    rw [if_neg same]
    exact ⟨knownMethods.mono le, knownClasses.mono le⟩

/-- Methods registered one after the other, up to the first that fails. -/
theorem registerMany_known {name stem : String} {indices : List Nat}
    {failure : Option (Nat × BoundaryFault)}
    (registered : p.registerMany name stem indices = (failure, q)) :
    p.registry ≤ q.registry ∧
      ∃ done, (match failure with
        | none => indices = done
        | some (i, _) => ∃ rest, indices = done ++ i :: rest) ∧
      (∀ other ≠ name, q.names other = p.names other) ∧
      ∀ methods classes, q.names name = some (methods, classes) →
        ∃ before, p.names name = some (before, classes) ∧
          ∀ routines, p.Methods before routines →
            q.Methods methods ((done.map fun i =>
              (stem ++ i.repr ++ "()", numbered i)).reverse ++ routines) := by
  induction indices generalizing p with
  | nil =>
    cases registered
    exact ⟨le_rfl, [], rfl, fun _ _ => rfl, fun methods _ found => ⟨methods, found, fun _ h => h⟩⟩
  | cons i rest ih =>
    unfold registerMany at registered
    cases first : p.registerMethod name (stem ++ i.repr ++ "()") (numbered i) with
    | error f =>
      rw [first] at registered
      cases registered
      exact ⟨le_rfl, [], ⟨rest, rfl⟩, fun _ _ => rfl,
        fun methods _ found => ⟨methods, found, fun _ h => h⟩⟩
    | ok p' =>
      rw [first] at registered
      obtain ⟨le, f, leads, names⟩ := names_registerMethod first
      obtain ⟨le', done, ends, others, known⟩ := ih registered
      refine ⟨le.trans le', i :: done, ?_, fun other ne => ?_, fun methods classes found => ?_⟩
      · cases failure with
        | none => exact congrArg (i :: ·) ends
        | some failed =>
          obtain ⟨later, same⟩ := ends
          exact ⟨later, congrArg (i :: ·) same⟩
      · rw [others other ne, names, if_neg ne]
      · obtain ⟨between, there, follows⟩ := known methods classes found
        rw [names, if_pos rfl] at there
        obtain ⟨⟨before, classes'⟩, start, entered⟩ := Option.map_eq_some_iff.mp there
        cases entered
        refine ⟨before, start, fun routines knownBefore => ?_⟩
        rw [List.map_cons, List.reverse_cons, List.append_assoc]
        exact follows _ ((Methods.mono knownBefore le).set leads _)

def manyResult : Option (Nat × BoundaryFault) → StepResult
  | none => .done
  | some (i, f) => .failedAt i f

/-- The methods that were registered are those before the one that failed. -/
theorem prefix_range {count i : Nat} {done rest : List Nat}
    (same : List.range count = done ++ i :: rest) : done = List.range i := by
  have there : (List.range count)[done.length]? = some i := by
    rw [same]
    simp
  obtain ⟨below, at_⟩ := List.getElem?_eq_some_iff.mp there
  rw [List.getElem_range] at at_
  rw [List.length_range] at below
  have taken := congrArg (List.take done.length) same
  rw [List.take_left, List.take_range, Nat.min_eq_left (Nat.le_of_lt below), at_] at taken
  exact taken.symm

theorem Recalls.registerMany (known : p.Recalls h) {name stem : String} {count : Nat}
    {failure : Option (Nat × BoundaryFault)}
    (registered : p.registerMany name stem (List.range count) = (failure, q)) :
    q.Recalls ((.on name (.registerMany stem count), manyResult failure) :: h) := by
  obtain ⟨le, done, ends, others, follows⟩ := registerMany_known registered
  have entered (other : String) : History.stepMethods other (.on name (.registerMany stem count))
      (manyResult failure) = if name = other then
        (done.map fun i => (stem ++ i.repr ++ "()", numbered i)).reverse else [] := by
    cases failure with
    | none =>
      subst ends
      rfl
    | some failed =>
      obtain ⟨rest, same⟩ := ends
      rw [prefix_range same]
      rfl
  have noClasses (other : String) : History.stepClasses other
      (.on name (.registerMany stem count)) (manyResult failure) = [] := by
    cases failure <;> rfl
  intro other methods classes found
  have goesOn : History.restarts other (.on name (.registerMany stem count)) = false := rfl
  obtain ⟨methodsEq, classesEq⟩ := History.wentOn (r := manyResult failure) (h := h) goesOn
  rw [methodsEq, classesEq, entered, noClasses, List.nil_append]
  by_cases same : name = other
  · subst same
    obtain ⟨before, there, knownMethods⟩ := follows methods classes found
    obtain ⟨knownBefore, knownClasses⟩ := known name before classes there
    rw [if_pos rfl]
    exact ⟨knownMethods _ knownBefore, knownClasses.mono le⟩
  · rw [others other (Ne.symm same)] at found
    obtain ⟨knownMethods, knownClasses⟩ := known other methods classes found
    rw [if_neg same, List.nil_append]
    exact ⟨knownMethods.mono le, knownClasses.mono le⟩

/-! ### Steps -/

variable {texts : Texts} {name : String} {vm : Vm} {record : VmRecord}

theorem names_leave (found : p.machines.get? name = some (vm, record)) {m : Machine Surroundings}
    (methods : m.host.record.methods = record.methods)
    (classes : m.host.record.classes = record.classes) (other : String) :
    (p.leave name m).names other = p.names other := by
  unfold names
  change (Table.get? (p.machines.set name (m.vm, m.host.record)) other).map _ = _
  rw [Table.get?_set]
  split
  · rename_i same
    rw [same, found]
    exact congrArg some (Prod.ext methods classes)
  · rfl

theorem Sound.names_work {α : Type} (sound : p.Sound texts)
    (found : p.machines.get? name = some (vm, record)) {R : Results α α} {act : Client α}
    (same : ∀ {a b}, R .id a b → a = b)
    (twice : LiveSim ((sound.paired False.elim).twin found).simulation .id R act act)
    (other : String) : (p.work name vm record act).2.names other = p.names other := by
  obtain ⟨w, m, ran, -, holds, -⟩ := (sound.paired False.elim).worked found same twice
  rw [ran]
  exact names_leave found holds.methods holds.classes other

theorem Sound.names_runSource (sound : p.Sound fun _ _ => True)
    (found : p.machines.get? name = some (vm, record)) (source other : String) :
    (p.runSource engine name vm record source).2.names other = p.names other :=
  sound.names_work found (R := .same) id (Client.interpret_sim
    ((sound.paired False.elim).twin found).attended (serves_engine p _ le_rfl (.refl _))
    fun _ parsed _ inside => .text trivial parsed inside) other

theorem Sound.names_runRead (sound : p.Sound fun _ _ => True)
    (found : p.machines.get? name = some (vm, record)) (read : Except FileFault String)
    (other : String) :
    (p.runRead engine name vm record read).2.names other = p.names other := by
  cases read with
  | ok source => exact sound.names_runSource found source other
  | error f => rfl

theorem Sound.names_lookup (sound : p.Sound texts)
    (found : p.machines.get? name = some (vm, record)) (variableName keep other : String) :
    (p.runErrand engine name vm record (.lookup variableName keep)).2.names other =
      p.names other := by
  have worked := sound.names_work found (fun alike => ?_) (Client.lookup_sim
    ((sound.paired False.elim).twin found).attended variableName) other
  · rw [← worked, runErrand_lookup]
    rcases p.work name vm record (Client.lookup variableName) with ⟨⟨_ | _ | _, _⟩, _⟩ <;> rfl
  · obtain ⟨rfl, rfl⟩ | ⟨v, w, rfl, rfl, hvw⟩ := optionRel_cases alike
    · rfl
    · rw [Value.alike_id.mp hvw]

theorem Sound.names_call (sound : p.Sound texts)
    (found : p.machines.get? name = some (vm, record)) (value signature other : String)
    (params : List HostValue) :
    (p.runErrand engine name vm record (.call value signature params)).2.names other =
      p.names other := by
  unfold runErrand
  dsimp only
  cases p.values.get? value with
  | none => rfl
  | some v =>
    exact sound.names_work found (R := .same) id (Client.call_sim
      ((sound.paired False.elim).twin found).attended (serves_engine p _ le_rfl (.refl _))
      (Value.alike_refl v) signature params) other

theorem names_setRecord {f : VmRecord → VmRecord}
    (kept : ∀ record, (f record).methods = record.methods ∧ (f record).classes = record.classes)
    (other : String) : (p.setRecord name f).names other = p.names other := by
  unfold names setRecord
  dsimp only
  rw [Table.get?_update]
  split
  · rw [Option.map_map]
    congr 1
    funext entry
    exact Prod.ext (kept entry.2).1 (kept entry.2).2
  · rfl

/-- An errand that leaves the names alone and whose result tells of no registration. -/
theorem Recalls.quiet (known : p.Recalls h) {errand : Errand} {r : StepResult}
    (names : ∀ other, q.names other = p.names other) (le : p.registry ≤ q.registry)
    (nothing : ∀ other, History.stepMethods other (.on name errand) r = [] ∧
      History.stepClasses other (.on name errand) r = []) :
    q.Recalls ((.on name errand, r) :: h) :=
  known.unchanged names le fun other => ⟨rfl, nothing other⟩

theorem Recalls.runErrand (known : p.Recalls h) (sound : p.Sound fun _ _ => True)
    (found : p.machines.get? name = some (vm, record)) (errand : Errand) :
    (p.runErrand engine name vm record errand).2.Recalls
      ((.on name errand, (p.runErrand engine name vm record errand).1.result) :: h) := by
  have le : p.registry ≤ (p.runErrand engine name vm record errand).2.registry :=
    ((sound.paired False.elim).runErrand (serves_engine p) found errand (fun _ _ => trivial)
      False.elim).leads.registry
  cases errand with
  | setModulesDir path =>
    exact known.quiet (names_setRecord fun _ => ⟨rfl, rfl⟩) le fun _ => ⟨rfl, rfl⟩
  | breakWriter channel =>
    exact known.quiet (names_setRecord fun _ => ⟨rfl, rfl⟩) le fun _ => ⟨rfl, rfl⟩
  | register member r =>
    unfold Program.runErrand registering
    dsimp only
    cases registered : p.registerMethod name member r with
    | ok q => exact known.registerMethod registered
    | error f => exact known.quiet (fun _ => rfl) le_rfl fun _ => ⟨rfl, rfl⟩
  | registerClass className maker =>
    unfold Program.runErrand registering
    dsimp only
    cases registered : p.registerClass name className maker with
    | ok q => exact known.registerClass registered
    | error f => exact known.quiet (fun _ => rfl) le_rfl fun _ => ⟨rfl, rfl⟩
  | registerMany stem count =>
    unfold Program.runErrand
    dsimp only
    cases registered : p.registerMany name stem (List.range count) with
    | mk failure q =>
      have recalled := known.registerMany registered
      cases failure <;> exact recalled
  | interpret source =>
    exact known.quiet (sound.names_runSource found source) le fun _ => ⟨rfl, rfl⟩
  | interpretBytes bytes =>
    exact known.quiet (sound.names_runRead found _) le fun _ => ⟨rfl, rfl⟩
  | interpretFile path =>
    exact known.quiet (sound.names_runRead found _) le fun _ => ⟨rfl, rfl⟩
  | lookup variableName keep =>
    exact known.quiet (sound.names_lookup found variableName keep) le fun _ => ⟨rfl, rfl⟩
  | call value signature params =>
    exact known.quiet (fun other => sound.names_call found value signature other params) le
      fun _ => ⟨rfl, rfl⟩

theorem Recalls.stepOn (known : p.Recalls h) (sound : p.Sound fun _ _ => True) (s : Step) :
    (p.stepOn engine s).2.Recalls ((s, (p.stepOn engine s).1.result) :: h) := by
  cases s with
  | machine name modules => exact known.addMachine name modules _
  | on name errand =>
    unfold Program.stepOn
    dsimp only
    cases found : p.machines.get? name with
    | none =>
      refine known.quiet (fun _ => rfl) le_rfl fun _ => ?_
      cases errand <;> exact ⟨rfl, rfl⟩
    | some there => exact known.runErrand sound found errand
  | dropMachine name => exact known.dropMachine name _
  | dropValue | registered | kept | dropKept | dropped | unknown =>
    exact known.unchanged (fun _ => rfl) le_rfl fun _ => ⟨rfl, rfl, rfl⟩

/-! ### Sessions -/

def history (files : Files) (ss : List Step) : History :=
  (ss.zip (((start files).steps ss).1.map StepReport.result)).reverse

theorem length_stepsOn (engine : Engine Surroundings) (p : Program) (ss : List Step) :
    (p.stepsOn engine ss).1.length = ss.length := by
  induction ss generalizing p with
  | nil => rfl
  | cons s rest ih => exact congrArg Nat.succ (ih _)

theorem history_append (files : Files) (ss : List Step) (s : Step) :
    history files (ss ++ [s]) =
      (s, ((after files ss).stepOn engine s).1.result) :: history files ss := by
  have lengths :
      ss.length = (((start files).stepsOn engine ss).1.map StepReport.result).length := by
    rw [List.length_map, length_stepsOn]
  unfold history steps
  rw [stepsOn_append, List.map_append, List.zip_append lengths, List.reverse_append]
  rfl

/-- At any time of a session the names of its machines are those that its history tells of. -/
theorem recalls_after (files : Files) (ss : List Step) :
    (after files ss).Recalls (history files ss) := by
  induction ss using List.reverseRecOn with
  | nil =>
    intro name methods classes found
    cases found
  | append_singleton ss s ih =>
    rw [history_append, after_append]
    exact ih.stepOn (sound_after fun _ _ _ => trivial) s

end Program
end ScriptHost
