import Mathlib.Data.List.Forall2
import ScriptHost.Machine.Invocation
import ScriptHost.Proofs.Reading.Displacement
import ScriptHost.Proofs.Tables

/-! Code that stands further down in a text. What is made of it is the same as what is made of the
code where it stood, but for its places: a class holds the moved declarations of its methods, and a
trace names moved lines. -/

namespace ScriptHost

/-! ### Code moved to where it is -/

mutual

theorem Expr.origin_rebase (e : Expr) : e.rebase .origin = e := by
  cases e with
  | interpolation _ parts => rw [Expr.rebase, Span.origin_rebase, Fragment.origin_rebaseAll parts]
  | list _ elements => rw [Expr.rebase, Span.origin_rebase, Expr.origin_rebaseAll elements]
  | unary _ _ operand => rw [Expr.rebase, Span.origin_rebase, Expr.origin_rebase operand]
  | binary _ _ lhs rhs =>
    rw [Expr.rebase, Span.origin_rebase, Expr.origin_rebase lhs, Expr.origin_rebase rhs]
  | logical _ _ lhs rhs =>
    rw [Expr.rebase, Span.origin_rebase, Expr.origin_rebase lhs, Expr.origin_rebase rhs]
  | assign _ _ value => rw [Expr.rebase, Span.origin_rebase, Expr.origin_rebase value]
  | getter _ receiver _ => rw [Expr.rebase, Span.origin_rebase, Expr.origin_rebase receiver]
  | call _ receiver _ args =>
    rw [Expr.rebase, Span.origin_rebase, Expr.origin_rebase receiver, Expr.origin_rebaseAll args]
  | subscript _ receiver index =>
    rw [Expr.rebase, Span.origin_rebase, Expr.origin_rebase receiver, Expr.origin_rebase index]
  | _ => rw [Expr.rebase, Span.origin_rebase]
termination_by structural e

theorem Expr.origin_rebaseAll (es : List Expr) : Expr.rebaseAll .origin es = es := by
  cases es with
  | nil => rfl
  | cons e es => rw [Expr.rebaseAll, Expr.origin_rebase e, Expr.origin_rebaseAll es]
termination_by structural es

theorem Fragment.origin_rebase (f : Fragment) : f.rebase .origin = f := by
  cases f with
  | literal text => rfl
  | code e => rw [Fragment.rebase, Expr.origin_rebase e]
termination_by structural f

theorem Fragment.origin_rebaseAll (fs : List Fragment) : Fragment.rebaseAll .origin fs = fs := by
  cases fs with
  | nil => rfl
  | cons f fs => rw [Fragment.rebaseAll, Fragment.origin_rebase f, Fragment.origin_rebaseAll fs]
termination_by structural fs

end

private theorem Expr.origin_rebaseOption (e : Option Expr) : e.map (Expr.rebase .origin) = e := by
  cases e with
  | none => rfl
  | some e => rw [Option.map_some, Expr.origin_rebase]

mutual

theorem Stmt.origin_rebase (s : Stmt) : s.rebase .origin = s := by
  cases s with
  | expr e => rw [Stmt.rebase, Expr.origin_rebase]
  | var _ _ init => rw [Stmt.rebase, Span.origin_rebase, Expr.origin_rebaseOption]
  | ifElse _ thenBranch elseBranch =>
    rw [Stmt.rebase, Expr.origin_rebase, Stmt.origin_rebase thenBranch,
      Stmt.origin_rebaseOption elseBranch]
  | whileLoop _ body => rw [Stmt.rebase, Expr.origin_rebase, Stmt.origin_rebase body]
  | forLoop _ _ body => rw [Stmt.rebase, Expr.origin_rebase, Stmt.origin_rebase body]
  | block body => rw [Stmt.rebase, Stmt.origin_rebaseAll body]
  | returnValue _ value => rw [Stmt.rebase, Span.origin_rebase, Expr.origin_rebaseOption]
  | breakLoop => rw [Stmt.rebase, Span.origin_rebase]
  | classDecl decl => rw [Stmt.rebase, ClassDecl.origin_rebase decl]
  | importNames => rw [Stmt.rebase, Span.origin_rebase]
termination_by structural s

theorem Stmt.origin_rebaseOption (s : Option Stmt) : Stmt.rebaseOption .origin s = s := by
  cases s with
  | none => rfl
  | some s => rw [Stmt.rebaseOption, Stmt.origin_rebase s]
termination_by structural s

theorem Stmt.origin_rebaseAll (ss : List Stmt) : Stmt.rebaseAll .origin ss = ss := by
  cases ss with
  | nil => rfl
  | cons s ss => rw [Stmt.rebaseAll, Stmt.origin_rebase s, Stmt.origin_rebaseAll ss]
termination_by structural ss

theorem Stmt.origin_rebaseBody (body : Option (List Stmt)) :
    Stmt.rebaseBody .origin body = body := by
  cases body with
  | none => rfl
  | some ss => rw [Stmt.rebaseBody, Stmt.origin_rebaseAll ss]
termination_by structural body

theorem MethodDecl.origin_rebase (decl : MethodDecl) : decl.rebase .origin = decl := by
  cases decl with
  | mk name kind params isStatic isForeign span body =>
    rw [MethodDecl.rebase, Span.origin_rebase, Stmt.origin_rebaseBody body]
termination_by structural decl

theorem MethodDecl.origin_rebaseAll (ms : List MethodDecl) :
    MethodDecl.rebaseAll .origin ms = ms := by
  cases ms with
  | nil => rfl
  | cons m ms =>
    rw [MethodDecl.rebaseAll, MethodDecl.origin_rebase m, MethodDecl.origin_rebaseAll ms]
termination_by structural ms

theorem ClassDecl.origin_rebase (decl : ClassDecl) : decl.rebase .origin = decl := by
  cases decl with
  | mk name isForeign span methods =>
    rw [ClassDecl.rebase, Span.origin_rebase, MethodDecl.origin_rebaseAll methods]
termination_by structural decl

end

/-! ### What a declaration says apart from its places -/

section

variable (b : Position) (decl : MethodDecl)

@[simp] theorem MethodDecl.rebase_kind : (decl.rebase b).kind = decl.kind := by
  cases decl; rfl

@[simp] theorem MethodDecl.rebase_params : (decl.rebase b).params = decl.params := by
  cases decl; rfl

@[simp] theorem MethodDecl.rebase_isStatic : (decl.rebase b).isStatic = decl.isStatic := by
  cases decl; rfl

@[simp] theorem MethodDecl.rebase_isForeign : (decl.rebase b).isForeign = decl.isForeign := by
  cases decl; rfl

@[simp] theorem MethodDecl.rebase_signature : (decl.rebase b).signature = decl.signature := by
  cases decl; rfl

@[simp] theorem MethodDecl.rebase_onClass : (decl.rebase b).onClass = decl.onClass := by
  cases decl; rfl

theorem MethodDecl.rebase_span : (decl.rebase b).span = decl.span.rebase b := by
  cases decl; rfl

theorem MethodDecl.rebase_body :
    (decl.rebase b).body.getD [] = (decl.body.getD []).map (Stmt.rebase b) := by
  cases decl with
  | mk name kind params isStatic isForeign span body =>
    rw [MethodDecl.rebase, Stmt.rebaseBody_eq]
    cases body <;> rfl

@[simp] theorem ClassDecl.rebase_name (decl : ClassDecl) : (decl.rebase b).name = decl.name := by
  cases decl; rfl

@[simp] theorem ClassDecl.rebase_isForeign (decl : ClassDecl) :
    (decl.rebase b).isForeign = decl.isForeign := by
  cases decl; rfl

end

/-- The line of a place that was moved onto a text. -/
theorem Span.rebase_line (b : Position) (s : Span) :
    (s.rebase b).line = b.line + s.line - 1 := by
  simp only [Span.line, Span.rebase, Position.rebase]
  split
  · dsimp only
    omega
  · rfl

theorem Stmt.rebase_line? (b : Position) (t : Stmt) :
    (t.rebase b).line? = t.line?.map fun line => b.line + line - 1 := by
  have moved (span : Span) :
      some (span.rebase b).line = (some span.line).map fun line => b.line + line - 1 :=
    congrArg some (Span.rebase_line b span)
  cases t with
  | block body => rw [Stmt.rebase]; rfl
  | classDecl decl => cases decl; exact moved _
  | _ =>
    rw [Stmt.rebase]
    simp only [Stmt.line?, Expr.rebase_span]
    exact moved _

/-! ### Tables -/

namespace Table

variable {α β : Type}

/-- The values of a table changed, under their names. -/
def mapValues (f : α → β) (t : Table α) : Table β := t.map fun x => (x.1, f x.2)

theorem get?_mapValues (f : α → β) (t : Table α) (name : String) :
    (t.mapValues f).get? name = (t.get? name).map f := by
  induction t with
  | nil => rfl
  | cons x rest ih =>
    obtain ⟨n, v⟩ := x
    have tail : Table.get? (Table.mapValues f rest) name = (Table.get? rest name).map f := ih
    simp only [mapValues, List.map_cons] at tail ⊢
    rw [get?_cons, get?_cons, tail]
    split <;> rfl

theorem set_mapValues (f : α → β) (t : Table α) (name : String) (v : α) :
    (t.mapValues f).set name (f v) = (t.set name v).mapValues f := by
  induction t with
  | nil => rfl
  | cons x rest ih =>
    obtain ⟨n, w⟩ := x
    have tail : Table.set (Table.mapValues f rest) name (f v) =
      Table.mapValues f (Table.set rest name v) := ih
    simp only [mapValues, List.map_cons, Table.set] at tail ⊢
    split
    · rfl
    · rw [List.map_cons, tail]

end Table

/-! ### Classes -/

def Method.rebase (b : Position) : Method → Method
  | .script decl => .script (decl.rebase b)
  | .constructor decl => .constructor (decl.rebase b)
  | other => other

/-- A class as it is when its code was moved. -/
def ClassObject.rebase (b : Position) (c : ClassObject) : ClassObject :=
  { c with methods := c.methods.mapValues (Method.rebase b)
           statics := c.statics.mapValues (Method.rebase b) }

theorem Method.origin_rebase (m : Method) : m.rebase .origin = m := by
  cases m with
  | script decl => rw [Method.rebase, MethodDecl.origin_rebase]
  | constructor decl => rw [Method.rebase, MethodDecl.origin_rebase]
  | _ => rfl

theorem ClassObject.origin_rebase (c : ClassObject) : c.rebase .origin = c := by
  have same : Method.rebase .origin = id := funext Method.origin_rebase
  simp [ClassObject.rebase, Table.mapValues, same]

/-! ### Where code stands -/

/-- Where code of the first text, or of the second, stands in the text that has the second one at
`base`. -/
inductive Landing (base : Position) : Position → Prop
  | here : Landing base .origin
  | moved : Landing base base

variable {base : Position} {old : Nat}

/-- A trace entry of moved code. -/
def TraceEntry.rebase (b : Position) (t : TraceEntry) : TraceEntry :=
  { t with line := b.line + t.line - 1 }

/-- Faults that passed through the same activations, some of them of moved code. -/
structure RuntimeError.Moved (base : Position) (e e' : RuntimeError) : Prop where
  fault : e'.fault = e.fault
  trace : List.Forall₂ (fun t t' => ∃ b, Landing base b ∧ t' = t.rebase b) e.trace e'.trace

/-- What scripts or calls came to, up to the lines of moved code. -/
inductive Concluded (base : Position) :
    Except InterpretError Unit → Except InterpretError Unit → Prop
  | ok : Concluded base (.ok ()) (.ok ())
  | compile (errors : List SyntaxError) :
    Concluded base (.error (.compile errors)) (.error (.compile errors))
  | runtime {e e' : RuntimeError} : e.Moved base e' →
    Concluded base (.error (.runtime e)) (.error (.runtime e'))

/-- What the host is told, up to the lines of moved code. -/
inductive Report.Moved (base : Position) : Report → Report → Prop
  | same (r : Report) : Moved base r r
  | trace {b : Position} (moduleName : String) (line : Nat) (function : String) : Landing base b →
    Moved base ⟨.trace, moduleName, line, function⟩
      ⟨.trace, moduleName, b.line + line - 1, function⟩

theorem RuntimeError.Moved.raised (f : RuntimeFault) :
    RuntimeError.Moved base ⟨f, []⟩ ⟨f, []⟩ := ⟨rfl, .nil⟩

theorem RuntimeError.Moved.leave {e e' : RuntimeError} (h : e.Moved base e') {b : Position}
    (landing : Landing base b) (t : TraceEntry) :
    (e.leave t).Moved base (e'.leave (t.rebase b)) where
  fault := h.fault
  trace := List.rel_append h.trace (.cons ⟨b, landing, rfl⟩ .nil)

theorem RuntimeError.Moved.reports {e e' : RuntimeError} (h : e.Moved base e') :
    List.Forall₂ (Report.Moved base) e.reports e'.reports := by
  have message : e'.message = e.message := congrArg RuntimeFault.message h.fault
  rw [RuntimeError.reports, RuntimeError.reports, message]
  refine .cons (.same _) ?_
  rw [List.forall₂_map_left_iff, List.forall₂_map_right_iff]
  refine h.trace.imp ?_
  rintro t _ ⟨b, landing, rfl⟩
  exact .trace _ _ _ landing

/-! ### Heaps -/

/-- Heaps of the same objects. The classes are those of moved code, or have stayed as they are; the
first `old` of them have. -/
structure Heap.Moved (base : Position) (old : Nat) (h k : Heap) : Prop where
  lists : k.lists = h.lists
  instances : k.instances = h.instances
  foreigns : k.foreigns = h.foreigns
  classes : ∀ id, ∃ b, Landing base b ∧ (id < old → b = .origin) ∧
    k.class? id = (h.class? id).map (·.rebase b)

namespace Heap

theorem moved_refl (base : Position) (old : Nat) (h : Heap) : h.Moved base old h where
  lists := rfl
  instances := rfl
  foreigns := rfl
  classes classId := by
    have same : ClassObject.rebase .origin = id := funext ClassObject.origin_rebase
    refine ⟨.origin, .here, fun _ => rfl, ?_⟩
    rw [same, Option.map_id]
    rfl

namespace Moved

variable {h k : Heap}

/-- What is the same of a class and of the class that was moved is the same in both heaps. -/
theorem ofClass (hk : h.Moved base old k) {α : Type} {f : ClassObject → α}
    (same : ∀ b c, f (ClassObject.rebase b c) = f c) (id : ClassId) :
    (k.class? id).map f = (h.class? id).map f := by
  obtain ⟨b, -, -, there⟩ := hk.classes id
  rw [there, Option.map_map]
  exact congrArg (fun g => (h.class? id).map g) (funext (same b))

theorem className (hk : h.Moved base old k) (id : ClassId) : k.className id = h.className id := by
  rw [Heap.className, Heap.className, hk.ofClass fun _ _ => rfl]

theorem list (hk : h.Moved base old k) (id : ListId) : k.list id = h.list id := by
  rw [Heap.list, Heap.list, hk.lists]

theorem instance? (hk : h.Moved base old k) (id : InstanceId) :
    k.instance? id = h.instance? id := by
  rw [Heap.instance?, Heap.instance?, hk.instances]

theorem foreign? (hk : h.Moved base old k) (id : ForeignId) : k.foreign? id = h.foreign? id := by
  rw [Heap.foreign?, Heap.foreign?, hk.foreigns]

theorem field (hk : h.Moved base old k) (id : InstanceId) (name : String) :
    k.field id name = h.field id name := by
  rw [Heap.field, Heap.field, hk.instance?]

theorem instanceClassName (hk : h.Moved base old k) (id : InstanceId) :
    k.instanceClassName id = h.instanceClassName id := by
  rw [Heap.instanceClassName, Heap.instanceClassName, hk.instance?]
  simp only [hk.className]

/-- What is the same of classes that were moved is the same of the class of a foreign object. -/
theorem ofForeignClass (hk : h.Moved base old k) {α : Type} {f : ClassObject → α}
    (same : ∀ b c, f (ClassObject.rebase b c) = f c) (id : ForeignId) :
    (k.foreignClass? id).map f = (h.foreignClass? id).map f := by
  rw [Heap.foreignClass?, Heap.foreignClass?, hk.foreign?, Option.map_bind, Option.map_bind]
  exact congrArg _ (funext fun o => hk.ofClass same o.classId)

theorem foreignClassName (hk : h.Moved base old k) (id : ForeignId) :
    k.foreignClassName id = h.foreignClassName id := by
  rw [Heap.foreignClassName, Heap.foreignClassName, hk.ofForeignClass fun _ _ => rfl]

theorem displayUpTo (hk : h.Moved base old k) (depth : Nat) (v : Value) :
    k.displayUpTo depth v = h.displayUpTo depth v := by
  induction depth generalizing v with
  | zero =>
    cases v <;>
      simp only [Heap.displayUpTo, hk.className, hk.instanceClassName, hk.foreignClassName]
  | succ depth ih =>
    have same : k.displayUpTo depth = h.displayUpTo depth := funext ih
    cases v <;>
      simp only [Heap.displayUpTo, hk.className, hk.instanceClassName, hk.foreignClassName, hk.list,
        same]

theorem display (hk : h.Moved base old k) (v : Value) : k.display v = h.display v := by
  rw [Heap.display, Heap.display, hk.lists, hk.displayUpTo]

theorem describe (hk : h.Moved base old k) (v : Value) : k.describe v = h.describe v := by
  cases v <;> simp only [Heap.describe, hk.display, hk.foreignClassName]

/-! Objects made and changed. -/

theorem append (hk : h.Moved base old k) (id : ListId) (v : Value) :
    (h.append id v).Moved base old (k.append id v) :=
  ⟨by rw [Heap.append, Heap.append, hk.lists], hk.instances, hk.foreigns, hk.classes⟩

theorem setField (hk : h.Moved base old k) (id : InstanceId) (name : String) (v : Value) :
    (h.setField id name v).Moved base old (k.setField id name v) :=
  ⟨hk.lists, by rw [Heap.setField, Heap.setField, hk.instances], hk.foreigns, hk.classes⟩

theorem addList (hk : h.Moved base old k) (items : Array Value) :
    (k.addList items).1 = (h.addList items).1 ∧
      (h.addList items).2.Moved base old (k.addList items).2 :=
  ⟨congrArg Array.size hk.lists,
    congrArg (Array.push · items) hk.lists, hk.instances, hk.foreigns, hk.classes⟩

theorem addInstance (hk : h.Moved base old k) (classId : ClassId) :
    (k.addInstance classId).1 = (h.addInstance classId).1 ∧
      (h.addInstance classId).2.Moved base old (k.addInstance classId).2 :=
  ⟨congrArg Array.size hk.instances,
    hk.lists, congrArg (Array.push · _) hk.instances, hk.foreigns, hk.classes⟩

theorem addForeign (hk : h.Moved base old k) (classId : ClassId) (payload : Payload) :
    (k.addForeign classId payload).1 = (h.addForeign classId payload).1 ∧
      (h.addForeign classId payload).2.Moved base old (k.addForeign classId payload).2 :=
  ⟨congrArg Array.size hk.foreigns,
    hk.lists, hk.instances, congrArg (Array.push · _) hk.foreigns, hk.classes⟩

theorem size (hk : h.Moved base old k) : k.classes.size = h.classes.size := by
  have none_iff (id : ClassId) : k.classes.size ≤ id ↔ h.classes.size ≤ id := by
    obtain ⟨b, -, -, there⟩ := hk.classes id
    rw [← Array.getElem?_eq_none_iff, ← Array.getElem?_eq_none_iff]
    change k.class? id = none ↔ h.class? id = none
    rw [there, Option.map_eq_none_iff]
  exact Nat.le_antisymm ((none_iff _).mpr (Nat.le_refl _)) ((none_iff _).mp (Nat.le_refl _))

/-- A class made of moved code, beside the class made of the code where it was. -/
theorem addClass (hk : h.Moved base old k) (known : old ≤ h.classes.size) {b : Position}
    (landing : Landing base b) (c : ClassObject) :
    (k.addClass (c.rebase b)).1 = (h.addClass c).1 ∧
      (h.addClass c).2.Moved base old (k.addClass (c.rebase b)).2 := by
  refine ⟨hk.size, hk.lists, hk.instances, hk.foreigns, fun id => ?_⟩
  change ∃ b', Landing base b' ∧ _ ∧
    (k.classes.push (c.rebase b))[id]? = ((h.classes.push c)[id]?).map _
  rw [Array.getElem?_push, Array.getElem?_push, hk.size]
  by_cases new : id = h.classes.size
  · refine ⟨b, landing, fun before => ?_, ?_⟩
    · omega
    · rw [if_pos new, if_pos new]
      rfl
  · rw [if_neg new, if_neg new]
    exact hk.classes id

end Moved
end Heap
end ScriptHost
