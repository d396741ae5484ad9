import ScriptHost.Proofs.Binding.Sound
import ScriptHost.Proofs.Simulation.Laws

/-! Where classes come from. A class object is one of the machine's own or was made by a declaration
that is written in a text of its module, in the open or inside a method of another class there. So
the module that a method runs in, which is that of its receiver's class, is the module that the
method is written in. -/

namespace ScriptHost

abbrev Texts := String → String → Prop

/-- The class declarations written in a module: those that its texts come upon, and those that the
methods of others come upon. -/
inductive Written (texts : Texts) : String → ClassDecl → Prop
  | text {moduleName source body decl} : texts moduleName source → parseModule source = .ok body →
    decl ∈ declarationsOf body → Written texts moduleName decl
  | inside {moduleName outer d decl} : Written texts moduleName outer → d ∈ outer.methods →
    decl ∈ d.declarations → Written texts moduleName decl

/-- Whether a method is what a declaration stands for. -/
def Method.Of (d : MethodDecl) : Method → Prop
  | .primitive _ => False
  | .foreign _ => d.isForeign
  | .script e | .constructor e => e = d ∧ ¬d.isForeign

/-- The class object has the name of the declaration, and no method but those declared. -/
structure ClassDecl.Makes (decl : ClassDecl) (c : ClassObject) : Prop where
  name : c.name = decl.name
  isForeign : c.isForeign = decl.isForeign
  member : ∀ {onClass signature x}, (c.table onClass).get? signature = some x →
    ∃ d, decl.member? onClass signature = some d ∧ x.Of d

/-- A class of the machine itself, or one that a declaration written in its module makes. -/
def ClassObject.Placed (texts : Texts) (c : ClassObject) : Prop :=
  (∃ core : CoreClass, c = core.object) ∨ ∃ decl, Written texts c.moduleName decl ∧ decl.Makes c

def Heap.Placed (texts : Texts) (h : Heap) : Prop :=
  ∀ id c, h.class? id = some c → c.Placed texts

variable {texts : Texts}

namespace CoreClass

theorem table_primitive {core : CoreClass} {onClass : Bool} {signature : String} {x : Method}
    (found : (core.object.table onClass).get? signature = some x) : ∃ p, x = .primitive p := by
  have looked (ps : List (String × Primitive))
      (found : Table.get? (ps.map fun entry => (entry.1, Method.primitive entry.2)) signature =
        some x) : ∃ p, x = .primitive p := by
    induction ps with
    | nil => cases found
    | cons entry rest ih =>
      rw [List.map_cons, Table.get?_cons] at found
      split at found
      · cases found
        exact ⟨_, rfl⟩
      · exact ih found
  cases onClass with
  | false => exact looked core.methods found
  | true => exact looked core.statics found

end CoreClass

namespace VmRecord

variable {record : VmRecord} {moduleName : String}

theorem method_of {className : String} {d : MethodDecl} {x : Method}
    (h : record.method moduleName className d = .ok x) : x.Of d := by
  unfold method at h
  split at h
  · split at h
    · cases found : record.methods.get? (d.key className) <;> rw [found] at h <;> cases h
      assumption
    · cases h
  · split at h <;> cases h <;> exact ⟨rfl, ‹_›⟩

theorem declared_makes {decl : ClassDecl} {c : ClassObject}
    (h : record.declared moduleName decl = .ok c) : decl.Makes c := by
  obtain ⟨name, -, isForeign, -, members⟩ := declared_ok h
  refine ⟨name, isForeign, fun {onClass signature x} found => ?_⟩
  have stands := members onClass signature
  cases hd : decl.member? onClass signature with
  | none =>
    rw [hd, found] at stands
    cases stands
  | some d =>
    rw [hd] at stands
    obtain ⟨method, bound, entered⟩ := stands
    rw [found] at entered
    cases entered
    exact ⟨d, rfl, method_of bound⟩

end VmRecord

/-- The bodies of a class come upon declarations that are written in its module. -/
theorem ClassObject.Placed.bodies {c : ClassObject} (placed : c.Placed texts) {onClass : Bool}
    {signature : String} {x : Method} (found : (c.table onClass).get? signature = some x)
    {d : MethodDecl} (hd : x.decl? = some d) :
    ∀ decl ∈ d.declarations, Written texts c.moduleName decl := by
  obtain ⟨core, rfl⟩ | ⟨outer, written, makes⟩ := placed
  · obtain ⟨p, rfl⟩ := CoreClass.table_primitive found
    cases hd
  · obtain ⟨e, declared, of⟩ := makes.member found
    have same : d = e := by
      cases x <;> cases hd <;> exact of.1
    subst same
    intro decl inside
    exact .inside written (List.mem_reverse.mp (List.mem_of_find?_eq_some declared)) inside

theorem Machine.method?_of_table {H : Type} {m : Machine H} {v : Value} {c : ClassObject}
    (found : m.heap.class? (m.classOf v) = some c) (signature : String) :
    m.method? v signature = (c.table v.isClass).get? signature := by
  unfold method?
  cases v with
  | classObject id =>
    dsimp only
    rw [show m.heap.class? id = some c from found]
    rfl
  | _ =>
    dsimp only
    rw [found]
    rfl

theorem Machine.method?_table {H : Type} {m : Machine H} {v : Value} {signature : String}
    {x : Method} (found : m.method? v signature = some x) :
    ∃ c onClass, m.heap.class? (m.classOf v) = some c ∧
      (c.table onClass).get? signature = some x := by
  cases v with
  | classObject id =>
    obtain ⟨c, hc, hx⟩ := Option.bind_eq_some_iff.mp found
    exact ⟨c, true, hc, hx⟩
  | _ =>
    obtain ⟨c, hc, hx⟩ := Option.bind_eq_some_iff.mp found
    exact ⟨c, false, hc, hx⟩

namespace Heap

variable {h h' : Heap}

theorem Placed.bodies {H : Type} {m : Machine H} (placed : m.heap.Placed texts) {v : Value}
    {signature : String} {x : Method} (found : m.method? v signature = some x) {d : MethodDecl}
    (hd : x.decl? = some d) : ∀ decl ∈ d.declarations, Written texts (m.moduleOf v) decl := by
  obtain ⟨c, onClass, hc, hx⟩ := Machine.method?_table found
  unfold Machine.moduleOf
  rw [hc]
  exact (placed _ _ hc).bodies hx hd

theorem Placed.of_eq (placed : h.Placed texts) (classes : h'.classes = h.classes) :
    h'.Placed texts := by
  intro id c found
  unfold Heap.class? at found
  rw [classes] at found
  exact placed id c found

theorem setPayloads_classes (h : Heap) (writes : List (ForeignId × Payload)) :
    (h.setPayloads writes).classes = h.classes := by
  induction writes generalizing h with
  | nil => rfl
  | cons write rest ih => exact ih _

theorem setPayloads_lists (h : Heap) (writes : List (ForeignId × Payload)) :
    (h.setPayloads writes).lists = h.lists := by
  induction writes generalizing h with
  | nil => rfl
  | cons write rest ih => exact ih _

theorem Placed.addClass (placed : h.Placed texts) {c : ClassObject} (hc : c.Placed texts) :
    (h.addClass c).2.Placed texts := by
  intro id d found
  rw [class?_addClass] at found
  split at found
  · cases found
    exact hc
  · exact placed id d found

end Heap
end ScriptHost
