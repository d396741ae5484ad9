import ScriptHost.Proofs.Course.Tally

/-! Modules are loaded once. From the moment at which a module is registered, nothing asks the host
for it, reads a text for it or starts its statements again; its place in the table is never given to
another, and an import takes the values of its variables from there. -/

namespace ScriptHost

variable {H : Type}

/-! ### Imports of a module that is there -/

theorem Vm.binding?_define (vm : Vm) (into name : String) (v : Value) (home x : String) :
    (vm.define into name v).binding? home x =
      if home = into ∧ x = name then (vm.modules.get? into).map fun _ => v
      else vm.binding? home x := by
  unfold Vm.define Vm.binding?
  dsimp only
  rw [Table.get?_update]
  by_cases same : home = into
  · subst same
    rw [if_pos rfl]
    cases vm.modules.get? home with
    | none => by_cases x = name <;> simp [*]
    | some vars => simp only [Option.map_some, Option.bind_some, Table.get?_set, true_and]
  · rw [if_neg same, if_neg fun h => same h.1]

/-- The second machine is the first after some names were imported from a module that was there:
nothing but these variables of the importer is touched. -/
structure Machine.Imports (source into : String) (names : List String) (m m' : Machine H) : Prop
    where
  heap : m'.heap = m.heap
  host : m'.host = m.host
  vm : m'.vm = { m.vm with modules := m'.vm.modules }
  elsewhere : ∀ home, home ≠ into → m'.vm.modules.get? home = m.vm.modules.get? home
  others : ∀ name, name ∉ names → m'.vm.binding? into name = m.vm.binding? into name
  taken : ∀ name ∈ names, ∃ v, m.vm.binding? source name = some v ∧
    (m.vm.hasModule into = true → m'.vm.binding? into name = some v)

namespace Machine.Imports

variable {source into name : String} {names : List String} {m m' : Machine H} {v : Value}

theorem nil (source into : String) (m : Machine H) : Imports source into [] m m :=
  ⟨rfl, rfl, rfl, fun _ _ => rfl, fun _ _ => rfl, nofun⟩

/-- A variable copied does not change those of the module it is from, even if that is the importer
itself. -/
theorem source_same (found : m.vm.binding? source name = some v) (x : String) :
    (m.vm.define into name v).binding? source x = m.vm.binding? source x := by
  rw [Vm.binding?_define]
  split
  · obtain ⟨rfl, rfl⟩ := ‹_ ∧ _›
    rw [found]
    cases there : m.vm.modules.get? source with
    | none =>
      unfold Vm.binding? at found
      rw [there] at found
      cases found
    | some vars => rfl
  · rfl

theorem cons (found : m.vm.binding? source name = some v)
    (h : Imports source into names (m.onVm (·.define into name v)) m') :
    Imports source into (name :: names) m m' where
  heap := h.heap
  host := h.host
  vm := h.vm
  elsewhere home ne := by
    rw [h.elsewhere home ne]
    exact Table.get?_update_of_ne _ _ ne
  others x absent := by
    obtain ⟨ne, absent⟩ := List.ne_and_not_mem_of_not_mem_cons absent
    rw [h.others x absent]
    change (m.vm.define into name v).binding? into x = _
    rw [Vm.binding?_define, if_neg fun same => ne same.2]
  taken x listed := by
    by_cases later : x ∈ names
    · obtain ⟨w, found', copied⟩ := h.taken x later
      refine ⟨w, (source_same found x).symm.trans found', fun known => copied ?_⟩
      exact (Table.has_update _ _ _ _).trans known
    · obtain rfl := (List.mem_cons.mp listed).resolve_right later
      refine ⟨v, found, fun known => ?_⟩
      rw [h.others x later]
      change (m.vm.define into x v).binding? into x = _
      obtain ⟨vars, there⟩ := Table.has_iff.mp known
      rw [Vm.binding?_define, if_pos ⟨rfl, rfl⟩, there]
      rfl

end Machine.Imports

/-- What an import from a module that is there comes to: all names are taken, or those before the
first that the module does not have, about which there is a fault. -/
inductive Machine.Imported (source into : String) (names : List String) (m : Machine H) :
    EStateM.Result Halt (Machine H) (Except RuntimeError Unit) → Prop
  | all {m'} : m.Imports source into names m' → Imported source into names m (.ok (.ok ()) m')
  | missing {before name after m'} : names = before ++ name :: after →
    m.vm.binding? source name = none → m.Imports source into before m' →
    Imported source into names m (.ok (.error ⟨.variableNotExported name source, []⟩) m')

theorem copyNames_run (source into name : String) (rest : List String) (m : Machine H) :
    (copyNames source into (name :: rest)).run m =
      (match m.vm.binding? source name with
      | some v => do
        modify fun m => m.onVm (·.define into name v)
        copyNames source into rest
      | none => fault (.variableNotExported name source) : Run H Unit).run m :=
  rfl

theorem copyNames_imported (source into : String) (names : List String) (m : Machine H) :
    m.Imported source into names ((copyNames source into names).run m) := by
  induction names generalizing m with
  | nil => exact .all (.nil source into m)
  | cons name rest ih =>
    rw [copyNames_run]
    cases found : m.vm.binding? source name with
    | none =>
      have first : name :: rest = [] ++ name :: rest := rfl
      exact .missing first found (.nil source into m)
    | some v =>
      have copied := ih (m.onVm (·.define into name v))
      change m.Imported source into _ ((copyNames source into rest).run (m.onVm _))
      revert copied
      generalize (copyNames source into rest).run (m.onVm _) = r
      rintro (imports | @⟨before, other, after, _, rfl, absent, imports⟩)
      · exact .all (imports.cons found)
      · have later : name :: (before ++ other :: after) = (name :: before) ++ other :: after := rfl
        refine .missing later ?_ (imports.cons found)
        exact (Machine.Imports.source_same found _).symm.trans absent

/-- An import of a module that is there runs nothing, in any surroundings. -/
theorem importNames_imported (engine : Engine H) (source into : String) (names : List String)
    {m : Machine H} (known : m.vm.hasModule source = true) :
    m.Imported source into names ((importNames engine source into names).run m) := by
  have copied : (importNames engine source into names).run m =
      (copyNames source into names).run m := by
    change (do
      unless m.vm.hasModule source do
        let _ ← engine.perform (.load source)
      copyNames source into names : Run H Unit).run m = _
    rw [known]
    rfl
  rw [copied]
  exact copyNames_imported source into names m

/-! ### Whole programs -/

namespace Logged

/-- Where a run ended. -/
def machine {α : Type} : EStateM.Result Halt (Machine Logged) α → Machine Logged
  | .ok _ m | .error _ m => m

/-- What was said of a run that ended well or stopped is said of where it ended. -/
theorem hold_tallies (c : Conduct) (depth : Nat) (d : Dialogue) (m : Machine Desk) :
    Tallies c m.vm.modules
      (machine (hold (serve c (engine c depth)) d (beside m .blank))).vm.modules
      (machine (hold (serve c (engine c depth)) d (beside m .blank))).host.book := by
  have ended := hold_keeps (engine_runs c m.vm.modules depth) rfl d (beside m .blank)
    (⟨rfl, .blank c m.vm.modules⟩ : (course c m.vm.modules []).going _ _)
  revert ended
  cases hold (serve c (engine c depth)) d (beside m .blank) with
  | ok a n => exact fun going => going.2
  | error halt n => exact id

end Logged

/-- Whatever scripts and calls a program asks for, whatever its callbacks and host functions do, and
whether or not all goes well: the run is as the logbook has it. By that, the host is asked only for
modules that are not registered by then, the statements of each are started at most once and of none
that was registered before, all modules keep their places and their variables, and no more modules
are started than the host has sources for. An import of a registered module, inside whatever body,
takes the values of variables from it and does nothing else. -/
theorem modules_run_once (c : Conduct) (depth : Nat) (d : Dialogue) (m : Machine Desk) :
    let logged := Logged.hold (Logged.serve c (Logged.engine c depth)) d (Logged.beside m .blank)
    let book := (Logged.machine logged).host.book
    Logged.forget logged = d.hold (Desk.serve (c.host.engine depth)) m ∧
    Logged.Tallies c m.vm.modules (Logged.machine logged).vm.modules book ∧
    (∀ names : List String, (∀ name, c.Offers name → name ∈ names) →
      book.begun.length ≤ names.length) ∧
    ∀ (engine : Engine Desk) (source into : String) (names : List String) (n : Machine Desk),
      n.vm.hasModule source = true →
      n.Imported source into names ((importNames engine source into names).run n) :=
  have tallies := Logged.hold_tallies c depth d m
  ⟨Logged.hold_forget c depth d (Logged.beside m .blank), tallies,
    fun _ offers => tallies.begun_le offers,
    fun engine source into names _ known => importNames_imported engine source into names known⟩

/-- Two modules that import each other. -/
def circle : Plan where
  modules := [("a", "import \"b\"\nvar A = null"), ("b", "import \"a\"\nvar B = null")]
  methods := []
  classes := []
  hearing := ⟨true, true, true, true, true⟩

/-- One script imports the first module, which leads to the second and back; another script imports
both. -/
def goingRound : Dialogue :=
  .ofRequests [.interpret "main" "import \"a\"",
    .interpret "main" "import \"b\" for B\nimport \"a\""]

theorem circle_offers {name : String} (offers : circle.conduct.Offers name) :
    name ∈ ["a", "b"] := by
  obtain ⟨desk, found⟩ := offers
  change (Table.get? circle.modules name).isSome = true at found
  obtain ⟨source, found⟩ := Option.isSome_iff_exists.mp found
  have listed := List.mem_map_of_mem (f := Prod.fst) (Table.mem_of_get? found)
  exact listed

/-- Each module of the circle was started once, and is not asked for again. -/
theorem modules_run_once_circle :
    let logged := Logged.hold (Logged.serve circle.conduct (Logged.engine circle.conduct
      unreachedDepth)) goingRound (Logged.beside (.fresh .empty) .blank)
    let ended := Logged.machine logged
    ended.host.book.begun = ["b", "a"] ∧ ended.host.book.begun.length ≤ 2 ∧
    (Logged.plain ended).Imported "b" "main" ["B"]
      ((importNames (circle.conduct.host.engine unreachedDepth) "b" "main" ["B"]).run
        (Logged.plain ended)) := by
  intro logged ended
  have once := modules_run_once circle.conduct unreachedDepth goingRound (.fresh .empty)
  exact ⟨by decide +kernel, once.2.2.1 ["a", "b"] fun _ => circle_offers,
    once.2.2.2 _ "b" "main" ["B"] _ (by decide +kernel)⟩

end ScriptHost
