import ScriptHost.Machine.Execution
import ScriptHost.Proofs.Simulation.Logic
import ScriptHost.Proofs.Loading

/-! What a part of an activation does to the activation and to the machine, as a relation of the two
before and after, however the part ends. Each operation of the run monads has one rule, and the
relations about names are chains of what the operations do. -/

namespace ScriptHost

variable {H α β : Type}

/-! ### Before and after -/

/-- An activation with the machine that it runs on. -/
abbrev Situation (H : Type) := Frame × Machine H

/-- What can be said of any number of steps in a row. -/
class Chains {S : Type} (R : S → S → Prop) : Prop where
  refl : ∀ s, R s s
  trans : ∀ {s t u}, R s t → R t u → R s u

/-- A run that leads from machines to machines as a relation has it. -/
def Run.Does (R : Machine H → Machine H → Prop) (x : Run H α) : Prop :=
  ∀ m r m', x.run m = .ok r m' → R m m'

/-- A part of an activation that does as a relation has it. -/
def Script.Does (R : Situation H → Situation H → Prop) (x : Script H α) : Prop :=
  ∀ f m r f' m', x.run.run f m = .ok (r, f') m' → R (f, m) (f', m')

/-- A part of an activation that leaves a value and a situation of some kind if it goes well. -/
def Script.Leaves (Q : α → Situation H → Prop) (x : Script H α) : Prop :=
  ∀ f m a f' m', x.run.run f m = .ok (.ok a, f') m' → Q a (f', m')

namespace Run.Does

variable {R : Machine H → Machine H → Prop}

protected theorem pure [Chains R] (a : α) : Run.Does R (Pure.pure a) := by
  intro m r m' ran
  cases ran
  exact Chains.refl m

protected theorem bind [Chains R] {x : Run H α} {f : α → Run H β} (h : Run.Does R x)
    (hf : ∀ a, Run.Does R (f a)) : Run.Does R (x >>= f) := by
  intro m r m' ran
  obtain ⟨e, -, first⟩ | ⟨a, n, first, later⟩ := Run.bind_inv ran
  · exact h m _ m' first
  · exact Chains.trans (h m _ n first) (hf a n _ m' later)

theorem get_bind {f : Machine H → Run H β} (h : ∀ m, Run.Does R (f m)) :
    Run.Does R (get >>= f) :=
  fun m r m' ran => h m m r m' ran

protected theorem modifyGet {f : Machine H → α × Machine H} (h : ∀ m, R m (f m).2) :
    Run.Does R (modifyGet f) := by
  intro m r m' ran
  cases ran
  exact h m

protected theorem modify {f : Machine H → Machine H} (h : ∀ m, R m (f m)) :
    Run.Does R (modify f) := by
  intro m r m' ran
  cases ran
  exact h m

protected theorem fault [Chains R] (f : RuntimeFault) :
    Run.Does R (fault f : Run H α) := by
  intro m r m' ran
  cases ran
  exact Chains.refl m

protected theorem halt (h : Halt) : Run.Does R (throwThe Halt h : Run H α) := by
  intro m r m' ran
  cases ran

theorem imp {R' : Machine H → Machine H → Prop} {x : Run H α} (h : Run.Does R x)
    (weaker : ∀ {m m'}, R m m' → R' m m') : Run.Does R' x :=
  fun m r m' ran => weaker (h m r m' ran)

end Run.Does

namespace Script.Does

variable {R : Situation H → Situation H → Prop}

protected theorem pure [Chains R] (a : α) : Script.Does R (Pure.pure a) := by
  intro f m r f' m' ran
  cases ran
  exact Chains.refl (f, m)

protected theorem bind [Chains R] {x : Script H α} {g : α → Script H β}
    (h : Script.Does R x) (hg : ∀ a, Script.Does R (g a)) : Script.Does R (x >>= g) := by
  intro f m r f' m' ran
  obtain ⟨e, -, first⟩ | ⟨a, k, n, first, later⟩ := Script.bind_inv ran
  · exact h f m _ f' m' first
  · exact Chains.trans (h f m _ k n first) (hg a k n _ f' m' later)

/-- A part that starts by looking at its activation. -/
theorem getFrame_bind {g : Frame → Script H β}
    (h : ∀ f m r f' m', (g f).run.run f m = .ok (r, f') m' → R (f, m) (f', m')) :
    Script.Does R (getThe Frame >>= g) :=
  fun f m r f' m' ran => h f m r f' m' ran

theorem get_bind {g : Machine H → Script H β} (h : ∀ m, Script.Does R (g m)) :
    Script.Does R (getThe (Machine H) >>= g) :=
  fun f m r f' m' ran => h m f m r f' m' ran

theorem modifyFrame {g : Frame → Frame} (h : ∀ f m, R (f, m) (g f, m)) :
    Script.Does R (modifyThe Frame g : Script H Unit) := by
  intro f m r f' m' ran
  cases ran
  exact h f m

theorem modifyGet {g : Machine H → α × Machine H} (h : ∀ f m, R (f, m) (f, (g m).2)) :
    Script.Does R (modifyGetThe (Machine H) g) := by
  intro f m r f' m' ran
  cases ran
  exact h f m

protected theorem fault [Chains R] (e : RuntimeFault) :
    Script.Does R (fault e : Script H α) := by
  intro f m r f' m' ran
  cases ran
  exact Chains.refl (f, m)

protected theorem halt (h : Halt) : Script.Does R (throwThe Halt h : Script H α) := by
  intro f m r f' m' ran
  cases ran

theorem ofRun {x : Run H α} (h : ∀ f, Run.Does (fun m m' => R (f, m) (f, m')) x) :
    Script.Does R (Script.ofRun x) := by
  intro f m r f' m' ran
  obtain ⟨worked, rfl⟩ := Script.ofRun_inv ran
  exact h f' m r m' worked

/-- Further code that depends on the activation, and what follows it. -/
theorem getFrame_ofRun [Chains R] {x : Frame → Run H α} {g : α → Script H β}
    (h : ∀ f, Run.Does (fun m m' => R (f, m) (f, m')) (x f)) (hg : ∀ a, Script.Does R (g a)) :
    Script.Does R (getThe Frame >>= fun f => Script.ofRun (x f) >>= g) := by
  intro f m r f' m' ran
  obtain ⟨e, -, first⟩ | ⟨a, k, n, first, later⟩ :=
    Script.bind_inv (x := Script.ofRun (x f)) (g := g) ran
  · obtain ⟨worked, rfl⟩ := Script.ofRun_inv first
    exact h f' m _ m' worked
  · obtain ⟨worked, rfl⟩ := Script.ofRun_inv first
    exact Chains.trans (h k m _ n worked) (hg a k n _ f' m' later)

theorem inScope {R' : Situation H → Situation H → Prop} (scope : Bindings) {x : Script H α}
    (h : Script.Does R x)
    (ends : ∀ {f m f' m'}, R ({ f with scopes := scope :: f.scopes }, m) (f', m') →
      R' (f, m) ({ f' with scopes := f'.scopes.tail }, m')) :
    Script.Does R' (Script.inScope scope x) := by
  intro f m r f' m' ran
  obtain ⟨⟨r, inner⟩, n, worked, left⟩ := Live.bind_inv
    (x := x.run.run { f with scopes := scope :: f.scopes })
    (f := fun r => (Pure.pure (r.1, { r.2 with scopes := r.2.scopes.tail }) :
      Live H (Except RuntimeError α × Frame))) ran
  cases left
  exact ends (h _ m r inner m' worked)

theorem imp {R' : Situation H → Situation H → Prop} {x : Script H α} (h : Script.Does R x)
    (weaker : ∀ {s t}, R s t → R' s t) : Script.Does R' x :=
  fun f m r f' m' ran => weaker (h f m r f' m' ran)

end Script.Does

namespace Script.Leaves

variable {Q : β → Situation H → Prop}

/-- The last part counts. -/
theorem bind {x : Script H α} {g : α → Script H β} (h : ∀ a, Script.Leaves Q (g a)) :
    Script.Leaves Q (x >>= g) := by
  intro f m b f' m' ran
  obtain ⟨_, failed, -⟩ | ⟨a, k, n, -, later⟩ := Script.bind_inv ran
  · cases failed
  · exact h a k n b f' m' later

end Script.Leaves

/-! ### The names in scope -/

/-- The names in each scope of an activation, the innermost scope first. -/
def Frame.names (f : Frame) : List (List String) := f.scopes.map Table.names

/-- Names added to the innermost scope, if there is one. -/
def widen (gained : List String) : List (List String) → List (List String)
  | [] => []
  | scope :: outer => (scope ++ gained) :: outer

@[simp] theorem widen_nil (names : List (List String)) : widen [] names = names := by
  cases names with
  | nil => rfl
  | cons scope outer => simp [widen]

theorem widen_widen (gained later : List String) (names : List (List String)) :
    widen later (widen gained names) = widen (gained ++ later) names := by
  cases names with
  | nil => rfl
  | cons scope outer => simp [widen]

theorem length_widen (gained : List String) (names : List (List String)) :
    (widen gained names).length = names.length := by
  cases names <;> rfl

/-- A name set in a table is at its end, unless it was there. -/
theorem Table.names_set_gains {α : Type} (t : Table α) (name : String) (v : α) :
    ∃ gained, gained ⊆ [name] ∧ (t.set name v).names = t.names ++ gained ∧
      (t.has name = true → gained = []) := by
  induction t with
  | nil => exact ⟨[name], List.Subset.refl _, rfl, nofun⟩
  | cons entry rest ih =>
    obtain ⟨n, w⟩ := entry
    unfold Table.set
    split
    · exact ⟨[], List.nil_subset _, (List.append_nil _).symm, fun _ => rfl⟩
    · obtain ⟨gained, within, eq, old⟩ := ih
      refine ⟨gained, within, congrArg (List.cons n) eq, fun had => old ?_⟩
      obtain ⟨v, found⟩ := Table.has_iff.mp had
      rw [Table.get?_cons, if_neg fun same => ‹¬_› (beq_iff_eq.mpr same.symm)] at found
      exact Table.has_iff.mpr ⟨v, found⟩

theorem Frame.assignLocal?_names {name : String} {v : Value} {scopes scopes' : List Bindings}
    (assigned : Frame.assignLocal? name v scopes = some scopes') :
    scopes'.map Table.names = scopes.map Table.names := by
  induction scopes generalizing scopes' with
  | nil => cases assigned
  | cons scope outer ih =>
    unfold Frame.assignLocal? at assigned
    split at assigned
    · cases assigned
      obtain ⟨gained, -, eq, old⟩ := Table.names_set_gains scope name v
      rw [old ‹_›, List.append_nil] at eq
      exact congrArg (· :: _) eq
    · obtain ⟨inner, found, rfl⟩ := Option.map_eq_some_iff.mp assigned
      exact congrArg (List.cons _) (ih found)

/-! ### The names in the modules -/

/-- The modules of a machine, each with the names of its variables. -/
def Vm.names (vm : Vm) : List (String × List String) :=
  vm.modules.map fun entry => (entry.1, entry.2.names)

theorem Table.map_update {α β : Type} {t : Table α} {name : String} {f : α → α} {g : α → β}
    (same : ∀ v, t.get? name = some v → g (f v) = g v) :
    (t.update name f).map (fun entry => (entry.1, g entry.2)) =
      t.map fun entry => (entry.1, g entry.2) := by
  induction t with
  | nil => rfl
  | cons entry rest ih =>
    obtain ⟨n, w⟩ := entry
    unfold Table.update
    split
    · have first : Table.get? ((n, w) :: rest) name = some w := by
        rw [Table.get?_cons, if_pos (beq_iff_eq.mp ‹_›).symm]
      rw [List.map_cons, List.map_cons, same w first]
    · refine congrArg (List.cons _) (ih fun v found => same v ?_)
      rw [Table.get?_cons, if_neg fun same => ‹¬_› (beq_iff_eq.mpr same.symm), found]

theorem Table.get?_map {α β : Type} (t : Table α) (g : α → β) (name : String) :
    Table.get? (t.map fun entry => (entry.1, g entry.2)) name = (t.get? name).map g := by
  induction t with
  | nil => rfl
  | cons entry rest ih =>
    rw [List.map_cons, Table.get?_cons, Table.get?_cons, ih]
    split <;> rfl

theorem Table.mem_names {α : Type} {t : Table α} {name : String} :
    name ∈ t.names ↔ t.has name = true := by
  induction t with
  | nil => exact ⟨nofun, nofun⟩
  | cons entry rest ih =>
    unfold Table.has
    rw [Table.names, List.map_cons, List.mem_cons, Table.get?_cons]
    split
    · exact iff_of_true (.inl ‹_›) rfl
    · exact (or_iff_right ‹_›).trans ih

/-- A variable that a module has is no new name of it. -/
theorem Vm.names_define {vm : Vm} {home name : String} (known : (vm.binding? home name).isSome)
    (v : Value) : (vm.define home name v).names = vm.names := by
  refine Table.map_update fun vars found => ?_
  obtain ⟨gained, -, eq, old⟩ := Table.names_set_gains vars name v
  have had : vars.has name = true := by
    unfold Vm.binding? at known
    rwa [found] at known
  rw [eq, old had, List.append_nil]

theorem Vm.binding?_isSome {vm : Vm} {home name : String} :
    (vm.binding? home name).isSome ↔
      ∃ names, Table.get? vm.names home = some names ∧ name ∈ names := by
  unfold Vm.binding? Vm.names
  rw [Table.get?_map]
  cases vm.modules.get? home with
  | none => simp
  | some vars => simp [Table.mem_names, Table.has]

/-- How a machine gets on while an activation of the module `home` runs: no module gains a name but
by further code that the engine runs, by what the activation declares at the top of its module, and
by what it imports. -/
inductive Engine.Leads (engine : Engine H) (home : String) (declared imported : List String) :
    Machine H → Machine H → Prop
  | still {m n} : n.vm.names = m.vm.names → Leads engine home declared imported m n
  | performed {m n action r} : (engine.perform action).run m = .ok r n →
    Leads engine home declared imported m n
  | declares {m name} (v : Value) : name ∈ declared →
    Leads engine home declared imported m (m.onVm (·.define home name v))
  | imports {m name} (v : Value) : name ∈ imported →
    Leads engine home declared imported m (m.onVm (·.define home name v))
  | trans {l m n} : Leads engine home declared imported l m →
    Leads engine home declared imported m n → Leads engine home declared imported l n

/-- Some further code that the engine can run gives a module a variable. -/
def Engine.Binds (engine : Engine H) (moduleName name : String) : Prop :=
  ∃ action m r n, (engine.perform action).run m = .ok r n ∧
    (m.vm.binding? moduleName name).isSome = false ∧ (n.vm.binding? moduleName name).isSome = true

namespace Engine.Leads

variable {engine : Engine H} {home : String} {declared imported : List String}

instance : Chains (engine.Leads home declared imported) := ⟨fun _ => .still rfl, .trans⟩

theorem mono {declared' imported' : List String} {m n : Machine H}
    (h : engine.Leads home declared imported m n) (more : declared ⊆ declared')
    (also : imported ⊆ imported') : engine.Leads home declared' imported' m n := by
  induction h with
  | still same => exact .still same
  | performed ran => exact .performed ran
  | declares v listed => exact .declares v (more listed)
  | imports v listed => exact .imports v (also listed)
  | trans _ _ first second => exact .trans first second

/-- Where a new variable of a module is from. -/
theorem gained {m n : Machine H} (h : engine.Leads home declared imported m n)
    {moduleName name : String} (new : (m.vm.binding? moduleName name).isSome = false)
    (there : (n.vm.binding? moduleName name).isSome = true) :
    moduleName = home ∧ (name ∈ declared ∨ name ∈ imported) ∨ engine.Binds moduleName name := by
  have defined : ∀ {m : Machine H} {x : String} {v : Value},
      (m.vm.binding? moduleName name).isSome = false →
      ((m.vm.define home x v).binding? moduleName name).isSome = true →
      moduleName = home ∧ name = x := by
    intro m x v new there
    rw [Vm.binding?_define] at there
    split at there
    · assumption
    · rw [new] at there
      cases there
  induction h with
  | still same =>
    rw [Vm.binding?_isSome, same, ← Vm.binding?_isSome] at there
    exact absurd (new.symm.trans there) Bool.false_ne_true
  | performed ran => exact .inr ⟨_, _, _, _, ran, new, there⟩
  | declares v listed =>
    obtain ⟨rfl, rfl⟩ := defined new there
    exact .inl ⟨rfl, .inl listed⟩
  | imports v listed =>
    obtain ⟨rfl, rfl⟩ := defined new there
    exact .inl ⟨rfl, .inr listed⟩
  | @trans l m n _ _ first second =>
    cases middle : (m.vm.binding? moduleName name).isSome with
    | false => exact second middle there
    | true => exact first new middle

end Engine.Leads

/-! ### What statements and expressions do -/

/-- The variable that a statement makes where it stands. -/
def Stmt.declares : Stmt → List String
  | .var _ name _ => [name]
  | .classDecl decl => [decl.name]
  | _ => []

mutual

/-- The names that a statement and those inside it import; methods have their own activations. -/
def Stmt.importedNames : Stmt → List String
  | .ifElse _ thenBranch none => thenBranch.importedNames
  | .ifElse _ thenBranch (some other) => thenBranch.importedNames ++ other.importedNames
  | .whileLoop _ body | .forLoop _ _ body => body.importedNames
  | .block body => importedNamesOf body
  | .importNames _ _ names => names
  | _ => []

def importedNamesOf : List Stmt → List String
  | [] => []
  | s :: rest => s.importedNames ++ importedNamesOf rest

end

/-- What statements do to their activation and the machine, given what they declare where they stand
and what they import. -/
structure Engine.Executes (engine : Engine H) (declared imported : List String)
    (s t : Situation H) : Prop where
  moduleName : t.1.moduleName = s.1.moduleName
  this : t.1.this = s.1.this
  function : t.1.function = s.1.function
  names : ∃ gained, gained ⊆ declared ∧ t.1.names = widen gained s.1.names
  leads : engine.Leads s.1.moduleName (if s.1.scopes.isEmpty then declared else []) imported s.2 t.2

/-- What expressions do: of the activation, they change the values of variables alone. -/
structure Engine.Evaluates (engine : Engine H) (s t : Situation H) : Prop where
  rest : t.1 = { s.1 with scopes := t.1.scopes }
  names : t.1.names = s.1.names
  leads : engine.Leads s.1.moduleName [] [] s.2 t.2

/-- A name means a local variable if one of the scopes has it. -/
theorem Frame.local?_isSome {f : Frame} {name : String} :
    (f.local? name).isSome ↔ ∃ names ∈ f.names, name ∈ names := by
  unfold Frame.local? Frame.names
  rw [List.findSome?_isSome_iff]
  simp only [List.mem_map, exists_exists_and_eq_and, Table.mem_names, Table.has]

theorem mem_widen {gained : List String} {name : String} (absent : name ∉ gained)
    (names : List (List String)) :
    (∃ scope ∈ widen gained names, name ∈ scope) ↔ ∃ scope ∈ names, name ∈ scope := by
  cases names with
  | nil => exact Iff.rfl
  | cons scope outer => simp [widen, absent]

/-- As many names, as many scopes. -/
theorem Frame.length_names (f : Frame) : f.names.length = f.scopes.length := List.length_map _

theorem Frame.isEmpty_scopes {f g : Frame} (same : f.names.length = g.names.length) :
    f.scopes.isEmpty = g.scopes.isEmpty := by
  rw [f.length_names, g.length_names] at same
  rw [Bool.eq_iff_iff, List.isEmpty_iff_length_eq_zero, List.isEmpty_iff_length_eq_zero, same]

namespace Engine.Evaluates

variable {engine : Engine H} {s t : Situation H}

instance : Chains engine.Evaluates where
  refl _ := ⟨rfl, rfl, .still rfl⟩
  trans first second := by
    refine ⟨?_, second.names.trans first.names, first.leads.trans ?_⟩
    · rw [second.rest, first.rest]
    · have home := congrArg Frame.moduleName first.rest
      exact home ▸ second.leads

theorem executes (h : engine.Evaluates s t) (declared imported : List String) :
    engine.Executes declared imported s t where
  moduleName := (congrArg Frame.moduleName h.rest :)
  this := (congrArg Frame.this h.rest :)
  function := (congrArg Frame.function h.rest :)
  names := ⟨[], List.nil_subset _, h.names.trans (widen_nil _).symm⟩
  leads := h.leads.mono (List.nil_subset _) (List.nil_subset _)

/-- Further code, which does not see the activation. -/
theorem ofRun {x : Run H α} (h : ∀ home, Run.Does (engine.Leads home [] []) x) :
    Script.Does engine.Evaluates (Script.ofRun x) :=
  .ofRun fun f => (h f.moduleName).imp fun leads => ⟨rfl, rfl, leads⟩

end Engine.Evaluates

namespace Engine.Executes

variable {engine : Engine H} {declared imported : List String} {s t u : Situation H}

instance : Chains (engine.Executes declared imported) where
  refl _ := ⟨rfl, rfl, rfl, ⟨[], List.nil_subset _, (widen_nil _).symm⟩, .still rfl⟩
  trans {s t u} first second := by
    obtain ⟨gained, within, eq⟩ := first.names
    obtain ⟨later, within', eq'⟩ := second.names
    have empty : t.1.scopes.isEmpty = s.1.scopes.isEmpty :=
      Frame.isEmpty_scopes (by rw [eq, length_widen])
    refine ⟨second.moduleName.trans first.moduleName, second.this.trans first.this,
      second.function.trans first.function,
      ⟨gained ++ later, List.append_subset.mpr ⟨within, within'⟩, ?_⟩, first.leads.trans ?_⟩
    · rw [eq', eq, widen_widen]
    · have leads := second.leads
      rwa [first.moduleName, empty] at leads

/-- Further code, which does not see the activation. -/
theorem ofLeads (f : Frame) {m m' : Machine H} (h : engine.Leads f.moduleName [] imported m m') :
    engine.Executes declared imported (f, m) (f, m') :=
  ⟨rfl, rfl, rfl, ⟨[], List.nil_subset _, (widen_nil _).symm⟩,
    h.mono (List.nil_subset _) (List.Subset.refl _)⟩

theorem mono {declared' imported' : List String} (h : engine.Executes declared imported s t)
    (more : declared ⊆ declared') (also : imported ⊆ imported') :
    engine.Executes declared' imported' s t := by
  obtain ⟨gained, within, eq⟩ := h.names
  refine ⟨h.moduleName, h.this, h.function, ⟨gained, fun _ listed => more (within listed), eq⟩,
    h.leads.mono ?_ also⟩
  split
  · exact more
  · exact List.Subset.refl _

/-- What a part declares in a scope of its own goes with the scope. -/
theorem inScope (scope : Bindings) {x : Script H α}
    (h : Script.Does (engine.Executes declared imported) x) :
    Script.Does (engine.Executes [] imported) (Script.inScope scope x) := by
  refine .inScope scope h fun {f m f' m'} inner => ?_
  obtain ⟨gained, -, eq⟩ := inner.names
  refine ⟨inner.moduleName, inner.this, inner.function, ⟨[], List.nil_subset _, ?_⟩, ?_⟩
  · rw [widen_nil]
    have outer := congrArg List.tail eq
    rwa [Frame.names, ← List.map_tail] at outer
  · exact inner.leads.mono (List.nil_subset _) (List.Subset.refl _)

end Engine.Executes
end ScriptHost
