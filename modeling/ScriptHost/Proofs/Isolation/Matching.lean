import ScriptHost.Proofs.Binding.Sound
import ScriptHost.Proofs.Simulation.Renaming

/-! Bindings up to entry points. The same machine may get other entry points in another process;
what it is bound to is the same as long as both entry points lead to one entry of their tables.
Class declarations of machines with matching names end the same way, and make matching classes. -/

namespace ScriptHost

/-- The same error, or related values. -/
inductive ExceptRel {ε α β : Type} (R : α → β → Prop) : Except ε α → Except ε β → Prop
  | ok {a b} : R a b → ExceptRel R (.ok a) (.ok b)
  | error (e : ε) : ExceptRel R (.error e) (.error e)

variable {r s r' s' : Registry}

/-- Host functions of two tables that lead to one routine. -/
def HostFunction.Matches (r s : Registry) (f g : HostFunction) : Prop :=
  ∃ routine, r.Leads f (.routine routine) ∧ s.Leads g (.routine routine)

/-- Methods that differ by entry points alone. -/
inductive Method.Matches (r s : Registry) : Method → Method → Prop
  | primitive (p : Primitive) : Matches r s (.primitive p) (.primitive p)
  | foreign {f g : HostFunction} : f.Matches r s g → Matches r s (.foreign f) (.foreign g)
  | script (decl : MethodDecl) : Matches r s (.script decl) (.script decl)
  | constructor (decl : MethodDecl) : Matches r s (.constructor decl) (.constructor decl)

/-- Bindings by one maker, or none at all. -/
def ForeignBinding.Matches (r s : Registry) (b c : ForeignBinding) : Prop :=
  (b = .none ∧ c = .none) ∨ ∃ maker, b.MadeBy r maker ∧ c.MadeBy s maker

/-- Classes that differ by entry points alone. -/
structure ClassObject.Matches (r s : Registry) (c d : ClassObject) : Prop where
  name : c.name = d.name
  moduleName : c.moduleName = d.moduleName
  isForeign : c.isForeign = d.isForeign
  methods : Table.Alike (Method.Matches r s) c.methods d.methods
  statics : Table.Alike (Method.Matches r s) c.statics d.statics
  binding : c.binding.Matches r s d.binding

structure VmRecord.Matches (r s : Registry) (x y : VmRecord) : Prop where
  methods : Table.Alike (HostFunction.Matches r s) x.methods y.methods
  classes : Table.Alike (fun b c => ∃ maker, b.MadeBy r maker ∧ c.MadeBy s maker) x.classes
    y.classes
  modulesDir : x.modulesDir = y.modulesDir
  pending : x.pending = y.pending
  broken : x.broken = y.broken

/-! ### Larger tables -/

theorem HostFunction.Matches.mono {f g : HostFunction} (h : f.Matches r s g) (le : r ≤ r')
    (le' : s ≤ s') : f.Matches r' s' g := by
  obtain ⟨routine, hf, hg⟩ := h
  exact ⟨routine, hf.mono le, hg.mono le'⟩

theorem Method.Matches.mono {x y : Method} (h : x.Matches r s y) (le : r ≤ r') (le' : s ≤ s') :
    x.Matches r' s' y := by
  cases h with
  | primitive p => exact .primitive p
  | foreign h => exact .foreign (h.mono le le')
  | script decl => exact .script decl
  | constructor decl => exact .constructor decl

theorem ForeignBinding.Matches.mono {b c : ForeignBinding} (h : b.Matches r s c) (le : r ≤ r')
    (le' : s ≤ s') : b.Matches r' s' c := by
  obtain none | ⟨maker, hb, hc⟩ := h
  · exact .inl none
  · exact .inr ⟨maker, hb.mono le, hc.mono le'⟩

theorem ClassObject.Matches.mono {c d : ClassObject} (h : c.Matches r s d) (le : r ≤ r')
    (le' : s ≤ s') : c.Matches r' s' d where
  name := h.name
  moduleName := h.moduleName
  isForeign := h.isForeign
  methods := h.methods.imp fun _ _ h => h.mono le le'
  statics := h.statics.imp fun _ _ h => h.mono le le'
  binding := h.binding.mono le le'

theorem VmRecord.Matches.mono {x y : VmRecord} (h : x.Matches r s y) (le : r ≤ r') (le' : s ≤ s') :
    x.Matches r' s' y where
  methods := h.methods.imp fun _ _ h => h.mono le le'
  classes := h.classes.imp fun _ _ ⟨maker, hb, hc⟩ => ⟨maker, hb.mono le, hc.mono le'⟩
  modulesDir := h.modulesDir
  pending := h.pending
  broken := h.broken

/-! ### Reading -/

theorem ForeignBinding.Matches.hostType {b c : ForeignBinding} (h : b.Matches r s c) :
    b.hostType = c.hostType := by
  obtain ⟨rfl, rfl⟩ | ⟨maker, ⟨f, rfl, -⟩, g, rfl, -⟩ := h <;> rfl

theorem ForeignBinding.Matches.isSome {b c : ForeignBinding} (h : b.Matches r s c) :
    b.allocate.isSome = c.allocate.isSome := by
  obtain ⟨rfl, rfl⟩ | ⟨maker, ⟨f, rfl, -⟩, g, rfl, -⟩ := h <;> rfl

theorem ForeignBinding.Matches.maker {b c : ForeignBinding} (h : b.Matches r s c)
    {f : HostFunction} (hf : b.allocate = some f) :
    ∃ maker, r.Leads f (.maker maker) ∧
      ∀ {g}, c.allocate = some g → s.Leads g (.maker maker) := by
  obtain ⟨rfl, rfl⟩ | ⟨maker, ⟨f', rfl, leads⟩, g', rfl, leads'⟩ := h
  · cases hf
  · cases hf
    refine ⟨maker, leads, fun hg => ?_⟩
    cases hg
    exact leads'

theorem ClassObject.Matches.table {c d : ClassObject} (h : c.Matches r s d) (onClass : Bool)
    (signature : String) :
    Option.Rel (Method.Matches r s) ((c.table onClass).get? signature)
      ((d.table onClass).get? signature) := by
  cases onClass with
  | false => exact h.methods.get? signature
  | true => exact h.statics.get? signature

theorem CoreClass.object_matches (core : CoreClass) : core.object.Matches r s core.object := by
  have same (ps : List (String × Primitive)) : Table.Alike (Method.Matches r s)
      (ps.map fun entry => (entry.1, .primitive entry.2))
      (ps.map fun entry => (entry.1, .primitive entry.2)) := by
    induction ps with
    | nil => exact .nil
    | cons entry rest ih => exact .cons ⟨rfl, .primitive entry.2⟩ ih
  exact ⟨rfl, rfl, rfl, same core.methods, same core.statics, .inl ⟨rfl, rfl⟩⟩

/-! ### Declarations -/

theorem ClassObject.Matches.enter {c d : ClassObject} (h : c.Matches r s d) (decl : MethodDecl)
    {m m' : Method} (hm : m.Matches r s m') : (c.enter decl m).Matches r s (d.enter decl m') := by
  unfold ClassObject.enter
  split
  · exact ⟨h.name, h.moduleName, h.isForeign, h.methods, h.statics.set decl.signature hm, h.binding⟩
  · exact ⟨h.name, h.moduleName, h.isForeign, h.methods.set decl.signature hm, h.statics, h.binding⟩

namespace VmRecord

variable {x y : VmRecord}

theorem Matches.method (h : x.Matches r s y) (moduleName className : String) (decl : MethodDecl) :
    ExceptRel (Method.Matches r s) (x.method moduleName className decl)
      (y.method moduleName className decl) := by
  unfold VmRecord.method
  split
  · split
    · obtain ⟨hx, hy⟩ | ⟨f, g, hx, hy, hfg⟩ :=
        optionRel_cases (h.methods.get? (decl.key className))
      · rw [hx, hy]
        exact .error _
      · rw [hx, hy]
        exact .ok (.foreign hfg)
    · exact .error _
  · split
    · exact .ok (.constructor decl)
    · exact .ok (.script decl)

theorem Matches.bound (h : x.Matches r s y) {c d : ClassObject} (hcd : c.Matches r s d)
    (decls : List MethodDecl) :
    ExceptRel (ClassObject.Matches r s) (x.bound c decls) (y.bound d decls) := by
  induction decls generalizing c d with
  | nil => exact .ok hcd
  | cons decl rest ih =>
    unfold VmRecord.bound
    rw [hcd.moduleName, hcd.name]
    have bound := h.method d.moduleName d.name decl
    revert bound
    generalize x.method d.moduleName d.name decl = a, y.method d.moduleName d.name decl = b
    rintro (hm | f)
    · exact ih (hcd.enter decl hm)
    · exact .error _

theorem Matches.classBinding (h : x.Matches r s y) (moduleName : String) (decl : ClassDecl) :
    ExceptRel (ForeignBinding.Matches r s) (x.classBinding moduleName decl)
      (y.classBinding moduleName decl) := by
  unfold VmRecord.classBinding
  split
  · split
    · obtain ⟨hx, hy⟩ | ⟨b, c, hx, hy, maker, made, made'⟩ :=
        optionRel_cases (h.classes.get? decl.name)
      · rw [hx, hy]
        exact .error _
      · have matching : b.Matches r s c := .inr ⟨maker, made, made'⟩
        rw [hx, hy]
        obtain ⟨f, rfl, -⟩ := made
        obtain ⟨g, rfl, -⟩ := made'
        exact .ok matching
    · exact .error _
  · exact .ok (.inl ⟨rfl, rfl⟩)

/-- A declaration makes matching classes, or is refused in both processes for the same reason. -/
theorem Matches.declared (h : x.Matches r s y) (moduleName : String) (decl : ClassDecl) :
    ExceptRel (ClassObject.Matches r s) (x.declared moduleName decl)
      (y.declared moduleName decl) := by
  have binding := h.classBinding moduleName decl
  unfold VmRecord.declared
  revert binding
  generalize x.classBinding moduleName decl = a, y.classBinding moduleName decl = b
  rintro (@⟨b, c, hbc⟩ | refusal)
  · have fresh : ClassObject.Matches r s ⟨decl.name, moduleName, decl.isForeign, [], [], b⟩
        ⟨decl.name, moduleName, decl.isForeign, [], [], c⟩ :=
      ⟨rfl, rfl, rfl, .nil, .nil, hbc⟩
    have bound := h.bound fresh decl.methods
    dsimp only
    revert bound
    generalize x.bound _ _ = a, y.bound _ _ = b
    rintro (hcd | refused)
    · exact .ok hcd
    · exact .error _
  · cases refusal <;> exact .error _

end VmRecord
end ScriptHost
