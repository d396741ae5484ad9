import ScriptHost.Proofs.Chronicle
import ScriptHost.Proofs.Construction

/-! Equality. The machine tells values apart by itself: the signatures of `==` and `!=` are spelled
with signs that no name of a text has, core classes have no methods of theirs, and there is no other
way for a method to get into a class. So whatever programs do, a comparison finds no method, runs
nothing and changes nothing. What it comes to is symmetric and transitive, and fails to be reflexive
at NaN alone. -/

namespace ScriptHost

variable {H : Type}

/-! ### Equality of numbers -/

section Numbers

open Float.Model

/-- What a number is compared by: the two zeros are one, and what is not a number has nothing. -/
def comparedBy : UnpackedFloat → Option UnpackedFloat
  | .notANumber => none
  | .zero _ => some (.zero .positive)
  | x => some x

theorem magnitude_eq_iff {e f : Int} {m n : Nat} :
    (compare e f).then (compare m n) = .eq ↔ e = f ∧ m = n := by
  rw [Ordering.then_eq_eq, compare_eq_iff_eq, compare_eq_iff_eq]

theorem comparedBy_of_beq {a b : UnpackedFloat} (same : a.beq b) :
    (comparedBy a).isSome ∧ comparedBy a = comparedBy b := by
  replace same : a.compare b = some .eq := beq_iff_eq.mp same
  cases a with
  | notANumber => cases same
  | infinity s =>
    cases b with
    | infinity t => cases s <;> cases t <;> first | exact ⟨rfl, rfl⟩ | cases same
    | _ => cases s <;> cases same
  | zero s =>
    cases b with
    | notANumber => cases same
    | zero t => exact ⟨rfl, rfl⟩
    | infinity t | finite t => cases t <;> cases same
  | finite s m e =>
    cases b with
    | notANumber => cases same
    | zero => cases s <;> cases same
    | infinity t => cases t <;> cases same
    | finite t n f =>
      cases s with
      | positive =>
        cases t with
        | positive =>
          obtain ⟨rfl, rfl⟩ := magnitude_eq_iff.mp (Option.some.inj same)
          exact ⟨rfl, rfl⟩
        | negative => cases same
      | negative =>
        cases t with
        | positive => cases same
        | negative =>
          obtain ⟨rfl, rfl⟩ := magnitude_eq_iff.mp (Ordering.swap_eq_eq.mp (Option.some.inj same))
          exact ⟨rfl, rfl⟩

theorem beq_of_comparedBy {a b : UnpackedFloat} (there : (comparedBy a).isSome)
    (same : comparedBy a = comparedBy b) : a.beq b := by
  refine beq_iff_eq.mpr ?_
  cases a with
  | notANumber => cases there
  | infinity s =>
    cases b <;> cases same
    cases s <;> rfl
  | zero =>
    cases b <;> cases same
    rfl
  | finite s =>
    cases b <;> cases same
    cases s with
    | positive => exact congrArg some (magnitude_eq_iff.mpr ⟨rfl, rfl⟩)
    | negative => exact congrArg some (Ordering.swap_eq_eq.mpr (magnitude_eq_iff.mpr ⟨rfl, rfl⟩))

theorem number_beq_symm {x y : Float} (same : x == y) : y == x := by
  obtain ⟨there, same⟩ := comparedBy_of_beq same
  exact beq_of_comparedBy (same ▸ there) same.symm

theorem number_beq_trans {x y z : Float} (first : x == y) (second : y == z) : x == z := by
  obtain ⟨there, first⟩ := comparedBy_of_beq first
  obtain ⟨-, second⟩ := comparedBy_of_beq second
  exact beq_of_comparedBy there (first.trans second)

theorem number_beq_self_iff (x : Float) : x == x ↔ ¬x.isNaN := by
  have compared : (comparedBy x.toModel.unpack).isSome ↔ ¬x.toModel.unpack.isNaN := by
    cases x.toModel.unpack with
    | notANumber => exact iff_of_false Bool.false_ne_true fun number => number rfl
    | _ => exact iff_of_true rfl Bool.false_ne_true
  exact ⟨fun same => compared.mp (comparedBy_of_beq same).1,
    fun number => beq_of_comparedBy (compared.mpr number) rfl⟩

end Numbers

/-! ### Equality of values -/

/-- What a value is, apart from which one. -/
inductive ValueSort where
  | null | bool | number | string | list | classObject | object | foreign
deriving DecidableEq

namespace Value

def sort : Value → ValueSort
  | null => .null
  | bool _ => .bool
  | number _ => .number
  | string _ => .string
  | list _ => .list
  | classObject _ => .classObject
  | object _ => .object
  | foreign _ => .foreign

def IsNaN (v : Value) : Prop := ∃ x, v = .number x ∧ x.isNaN

/-- Values of different sorts are different. -/
theorem sort_eq {a b : Value} (same : a.same b) : a.sort = b.sort := by
  cases a <;> cases b <;> first | rfl | cases same

theorem same_symm (a b : Value) : a.same b = b.same a := by
  cases a <;> cases b
  case number.number => exact Bool.eq_iff_iff.mpr ⟨number_beq_symm, number_beq_symm⟩
  all_goals first | rfl | exact BEq.comm

theorem same_trans {a b c : Value} (first : a.same b) (second : b.same c) : a.same c := by
  have one := sort_eq first
  have two := sort_eq second
  cases a <;> cases b <;> cases one <;> cases c <;> cases two
  case null => rfl
  case number => exact number_beq_trans first second
  all_goals exact PartialEquivBEq.trans first second

/-- A value equals itself, unless it is not a number. -/
theorem same_self_iff (v : Value) : v.same v ↔ ¬v.IsNaN := by
  cases v with
  | number x =>
    refine (number_beq_self_iff x).trans (not_congr ⟨fun nan => ⟨x, rfl, nan⟩, ?_⟩)
    rintro ⟨_, ⟨⟩, nan⟩
    exact nan
  | null =>
    refine iff_of_true rfl ?_
    rintro ⟨_, other, -⟩
    cases other
  | _ =>
    refine iff_of_true (beq_self_eq_true _) ?_
    rintro ⟨_, other, -⟩
    cases other

end Value

/-! ### Signatures of equality -/

/-- The signatures that `==` and `!=` are sent under. -/
def equalitySignatures : List String := ["==(_)", "!=(_)"]

/-- A word is no operator, and no part of one. -/
theorem IsWord.callSignature_notMem {name : String} (isWord : IsWord name)
    (arity : Option Nat) : callSignature name arity ∉ equalitySignatures := by
  have equals : '=' ∉ name.toList := isWord.notMem (by decide) (by decide)
  have bang : '!' ∉ name.toList := isWord.notMem (by decide) (by decide)
  have opens {c : Char} {rest : List Char} (bracket : c ≠ '(') (free : c ∉ name.toList) :
      (callSignature name arity).toList ≠ c :: rest := by
    intro same
    cases arity with
    | none =>
      change name.toList = _ at same
      exact free (same ▸ List.mem_cons_self)
    | some n =>
      rw [callSignature_toList] at same
      cases letters : name.toList with
      | nil =>
        rw [letters] at same
        exact bracket (List.head_eq_of_cons_eq same).symm
      | cons d more =>
        rw [letters] at same
        rw [letters, ← List.head_eq_of_cons_eq same] at free
        exact free List.mem_cons_self
  intro among
  rcases List.mem_cons.mp among with same | among
  · exact opens (by decide) equals (congrArg String.toList same)
  · exact opens (by decide) bang (congrArg String.toList (List.mem_singleton.mp among))

/-- The names in a declaration are words, in the bodies of methods too. -/
def MethodDecl.Worded (decl : MethodDecl) : Prop := ∀ text, .name text ∈ decl.leaves → IsWord text

@[inherit_doc MethodDecl.Worded]
def ClassDecl.Worded (decl : ClassDecl) : Prop := ∀ text, .name text ∈ decl.leaves → IsWord text

theorem MethodDecl.Worded.signature_notMem {decl : MethodDecl} (worded : decl.Worded) :
    decl.signature ∉ equalitySignatures := by
  have isWord : IsWord decl.name := worded _ decl.name_leaf
  unfold MethodDecl.signature
  cases decl.kind with
  | getter => exact isWord.callSignature_notMem none
  | method | constructor => exact isWord.callSignature_notMem _

/-! ### Classes -/

/-- A class that leaves equality to the machine, with methods that are named by words. -/
structure ClassObject.LeavesEquality (c : ClassObject) : Prop where
  free : ∀ onClass, ∀ signature ∈ equalitySignatures, (c.table onClass).get? signature = none
  worded : ∀ {onClass signature x decl}, (c.table onClass).get? signature = some x →
    x.decl? = some decl → decl.Worded

def Heap.LeavesEquality (h : Heap) : Prop := ∀ id c, h.class? id = some c → c.LeavesEquality

theorem CoreClass.object_leavesEquality (core : CoreClass) : core.object.LeavesEquality where
  free onClass := by
    refine List.forall_mem_cons.mpr ⟨?_, List.forall_mem_singleton.mpr ?_⟩ <;>
      cases core <;> cases onClass <;> rfl
  worded {onClass signature x decl} found read := by
    have primitive : ∃ p, x = .primitive p := by
      cases onClass <;>
        obtain ⟨⟨_, p⟩, -, same⟩ := List.mem_map.mp (Table.mem_of_get? found) <;>
        exact ⟨p, (congrArg Prod.snd same).symm⟩
    obtain ⟨p, rfl⟩ := primitive
    cases read

namespace ClassObject.LeavesEquality

variable {c : ClassObject}

theorem blank (name moduleName : String) (isForeign : Bool) (binding : ForeignBinding) :
    LeavesEquality ⟨name, moduleName, isForeign, [], [], binding⟩ where
  free onClass _ _ := by cases onClass <;> rfl
  worded {onClass _ _ _} found := by cases onClass <;> cases found

theorem enter (leaves : c.LeavesEquality) {decl : MethodDecl} (worded : decl.Worded) {x : Method}
    (makes : decl.Makes x) : (c.enter decl x).LeavesEquality where
  free onClass signature among := by
    have other : ¬(decl.onClass = onClass ∧ decl.signature = signature) := fun same =>
      worded.signature_notMem (same.2 ▸ among)
    rw [ClassObject.enter_table, if_neg other]
    exact leaves.free onClass signature among
  worded {onClass signature y d} found read := by
    rw [ClassObject.enter_table] at found
    split at found
    · cases found
      exact makes.own d read ▸ worded
    · exact leaves.worded found read

end ClassObject.LeavesEquality

namespace Heap.LeavesEquality

variable {h h' : Heap}

theorem of_eq (leaves : h.LeavesEquality) (classes : h'.classes = h.classes) :
    h'.LeavesEquality := by
  intro id c found
  unfold class? at found
  rw [classes] at found
  exact leaves id c found

theorem addClass (leaves : h.LeavesEquality) {c : ClassObject} (fits : c.LeavesEquality) :
    (h.addClass c).2.LeavesEquality := by
  intro id d found
  rw [class?_addClass] at found
  split at found
  · cases found
    exact fits
  · exact leaves id d found

theorem addCore (leaves : h.LeavesEquality) : h.addCore.2.LeavesEquality := by
  intro id c found
  obtain found | ⟨core, rfl⟩ := class?_addCore_cases found
  · exact leaves id c found
  · exact core.object_leavesEquality

theorem empty : Heap.empty.LeavesEquality := fun _ _ found => by cases found

/-- No value has a method for equality. -/
theorem method?_eq_none {m : Machine H} (leaves : m.heap.LeavesEquality) (v : Value)
    {signature : String} (among : signature ∈ equalitySignatures) :
    m.method? v signature = none := by
  cases found : m.method? v signature with
  | none => rfl
  | some x =>
    obtain ⟨c, onClass, there, found⟩ := Machine.method?_table found
    rw [(leaves _ c there).free onClass signature among] at found
    cases found

/-- What a method that is found comes upon. -/
theorem bodies {m : Machine H} (leaves : m.heap.LeavesEquality) {v : Value} {signature : String}
    {x : Method} (found : m.method? v signature = some x) {decl : MethodDecl}
    (read : x.decl? = some decl) : ∀ d ∈ decl.declarations, d.Worded := by
  obtain ⟨c, onClass, there, found⟩ := Machine.method?_table found
  have worded := (leaves _ c there).worded found read
  exact fun d among text leaf =>
    worded text (decl.body_leaves (declarationsOf_leaves d among leaf))

end Heap.LeavesEquality

theorem Machine.fresh_leavesEquality (host : H) : (Machine.fresh host).heap.LeavesEquality :=
  Heap.LeavesEquality.empty.addCore

/-! ### Comparisons -/

/-- A machine where a comparison of any two values is answered at once: whatever the host and
whatever else would be run, nothing is run and nothing changes. -/
def Machine.ComparesAtOnce (m : Machine H) : Prop :=
  ∀ (host : Host H) (engine : Engine H) (a b : Value),
    (invoke host engine a "==(_)" [b]).run m = .ok (.ok (.bool (a.same b))) m ∧
    (invoke host engine a "!=(_)" [b]).run m = .ok (.ok (.bool (!a.same b))) m

theorem Heap.LeavesEquality.comparesAtOnce {m : Machine H} (leaves : m.heap.LeavesEquality) :
    m.ComparesAtOnce := by
  intro host engine a b
  rw [invoke_run, invoke_run, leaves.method?_eq_none a (by decide),
    leaves.method?_eq_none a (by decide)]
  exact ⟨rfl, rfl⟩

/-! ### Programs -/

/-- Every class leaves equality to the machine, and always has. -/
def Annals.equality (H : Type) (core : ClassId) : Annals H where
  core
  written := ClassDecl.Worded
  fits := ClassObject.LeavesEquality
  holds h past := h.LeavesEquality ∧ ∀ x ∈ past, x.machine.heap.LeavesEquality

theorem Annals.equality_lawful (H : Type) (core : ClassId) : (Annals.equality H core).Lawful where
  spared := fun ⟨now, before⟩ _ classes => ⟨now.of_eq classes, before⟩
  note {x _} _ := fun ⟨now, before⟩ =>
    ⟨now.of_eq x.after_classes, List.forall_mem_cons.mpr ⟨now, before⟩⟩
  addList := fun ⟨now, before⟩ _ => ⟨now.of_eq rfl, before⟩
  addClass := fun ⟨now, before⟩ _ fits => ⟨now.addClass fits, before⟩
  blank := .blank
  enter fits worded there makes :=
    fits.enter (fun _ leaf => worded _ (ClassDecl.method_leaves there leaf)) makes
  covers parsed d among _ leaf :=
    parseModule_isWord parsed (declarationsOf_leaves d among leaf)
  bodies holds := fun found read => holds.1.bodies found read

namespace Script

/-- The expressions `a == b` and `a != b`, once their operands are there. -/
theorem compare_run {host : Host H} (depth : Nat) {lhs rhs : Expr} {f g k : Frame}
    {m n o : Machine H} {a b : Value} (span : Span)
    (left : (eval (host.engine (depth + 1)) lhs).run.run f m = .ok (.ok a, g) n)
    (right : (eval (host.engine (depth + 1)) rhs).run.run g n = .ok (.ok b, k) o)
    (once : o.ComparesAtOnce) :
    (eval (host.engine (depth + 1)) (.binary span .equal lhs rhs)).run.run f m =
        .ok (.ok (.bool (a.same b)), k) o ∧
      (eval (host.engine (depth + 1)) (.binary span .notEqual lhs rhs)).run.run f m =
        .ok (.ok (.bool (!a.same b)), k) o := by
  obtain ⟨equal, notEqual⟩ := once host (host.engine depth) a b
  unfold eval
  rw [bind_run left, bind_run left, bind_run right, bind_run right]
  constructor
  · exact Live.bind_run (x := (invoke host _ a "==(_)" [b]).run) equal
  · exact Live.bind_run (x := (invoke host _ a "!=(_)" [b]).run) notEqual

end Script

open Chronicled (plain)

theorem equality_hold (c : Conduct) (depth : Nat) (d : Dialogue) {m : Machine Desk}
    (leaves : m.heap.LeavesEquality) :
    let told := Chronicled.hold c depth d m
    Chronicled.forget told = d.hold (Desk.serve (c.host.engine depth)) m ∧
      (Live.machine told).heap.LeavesEquality ∧
      ∀ x ∈ (Live.machine told).host.past, x.machine.ComparesAtOnce := by
  obtain ⟨same, -, now, before⟩ := (Annals.equality_lawful Desk m.vm.core).hold c depth d
    rfl ⟨leaves, List.forall_mem_nil _⟩
  exact ⟨same, now, fun x among => (before x among).comparesAtOnce⟩

namespace Program

theorem equality_work {p : Program} {s : Step} {j : Job} (job : p.job? s = some j)
    (leaves : p.heap.LeavesEquality) :
    let told := Chronicled.work p j
    (p.step s).2 = p.leave j.name (plain (Live.machine told)) ∧
      (Live.machine told).heap.LeavesEquality ∧
      ∀ x ∈ (Live.machine told).host.past, x.machine.ComparesAtOnce := by
  obtain ⟨same, -, now, before⟩ := (Annals.equality_lawful Surroundings j.vm.core).work job rfl
    ⟨leaves, List.forall_mem_nil _⟩
  exact ⟨same, now, fun x among => (before x among).comparesAtOnce⟩

theorem equality_after (files : Files) (ss : List Step) :
    (after files ss).heap.LeavesEquality := by
  refine heap_after .empty (fun leaves rests => leaves.of_eq rests.classes) (fun leaves =>
    leaves.addCore) (fun job leaves => ?_) files ss
  obtain ⟨same, now, -⟩ := equality_work job leaves
  rw [same]
  exact now

end Program

/-- Equality cannot be redefined, and is a partial equivalence. It is symmetric, transitive, and
reflexive on all but NaN, and relates no values of different sorts. Whatever a program does with its
machine, in dialogues from outside and from host functions, or in the steps of a session: at every
message that is sent and every module that is loaded, comparing any two values comes to their
equality, or for `!=` to its negation, and runs and changes nothing, whatever the host and whatever
else there is to run; and no record of these moments changes what the program does. The same holds
of the machine that the program is left with, and of each machine that is made; on these, an
expression that compares comes to the equality of its operands. -/
theorem equality_fixed :
    (∀ a b : Value, a.same b = b.same a) ∧
    (∀ a b c : Value, a.same b → b.same c → a.same c) ∧
    (∀ a : Value, a.same a ↔ ¬a.IsNaN) ∧
    (∀ a b : Value, a.same b → a.sort = b.sort) ∧
    (∀ (c : Conduct) (depth : Nat) (d : Dialogue) (m : Machine Desk), m.heap.LeavesEquality →
      let told := Chronicled.hold c depth d m
      Chronicled.forget told = d.hold (Desk.serve (c.host.engine depth)) m ∧
      (Live.machine told).heap.LeavesEquality ∧
      ∀ x ∈ (Live.machine told).host.past, x.machine.ComparesAtOnce) ∧
    (∀ desk : Desk, (Machine.fresh desk).heap.LeavesEquality) ∧
    (∀ files ss s j, (Program.after files ss).job? s = some j →
      let told := Chronicled.work (Program.after files ss) j
      ((Program.after files ss).step s).2 =
        (Program.after files ss).leave j.name (plain (Live.machine told)) ∧
      ∀ x ∈ (Live.machine told).host.past, x.machine.ComparesAtOnce) ∧
    (∀ files ss, (Program.after files ss).heap.LeavesEquality) ∧
    (∀ {H : Type} (m : Machine H), m.heap.LeavesEquality → m.ComparesAtOnce) ∧
    ∀ {H : Type} (host : Host H) (depth : Nat) (lhs rhs : Expr) (f g k : Frame)
      (m n o : Machine H) (a b : Value) (span : Span),
      (eval (host.engine (depth + 1)) lhs).run.run f m = .ok (.ok a, g) n →
      (eval (host.engine (depth + 1)) rhs).run.run g n = .ok (.ok b, k) o →
      o.ComparesAtOnce →
      (eval (host.engine (depth + 1)) (.binary span .equal lhs rhs)).run.run f m =
          .ok (.ok (.bool (a.same b)), k) o ∧
        (eval (host.engine (depth + 1)) (.binary span .notEqual lhs rhs)).run.run f m =
          .ok (.ok (.bool (!a.same b)), k) o := by
  refine ⟨Value.same_symm, fun _ _ _ => Value.same_trans, Value.same_self_iff,
    fun _ _ => Value.sort_eq, fun c depth d m => equality_hold c depth d,
    fun desk => Machine.fresh_leavesEquality desk, fun files ss s j job => ?_,
    Program.equality_after, fun m => Heap.LeavesEquality.comparesAtOnce,
    fun host depth lhs rhs f g k m n o a b span => Script.compare_run depth span⟩
  obtain ⟨same, -, moments⟩ := Program.equality_work job (Program.equality_after files ss)
  exact ⟨same, moments⟩

/-- A script with a class that has methods of all sorts, which compares values of all sorts. -/
def comparing : String :=
  "class Point \x7b\n  construct new() \x7b\x7d\n  static equal(other) \x7b return true \x7d\n" ++
    "  toString \x7b return \"==\" \x7d\n\x7d\nvar P = Point.new()\nvar N = 0 / 0\n" ++
    "var Same = [P == P, Point == Point, \"a\" == \"a\", N != N, P != Point.new(), " ++
    "null == null]\n" ++
    "var Other = [P == Point, N == N, 1 == \"1\", P != P, null == false, P == Point.new()]"

def Action.compares : Action → Bool
  | .send _ signature _ => signature ∈ equalitySignatures
  | .load _ => false

/-- The script run by an embedding program, and as a step of a session: all comparisons come out as
equality has it, each at a moment where any comparison is answered at once. -/
theorem equality_fixed_comparing :
    let visit := Dialogue.ofRequests [.interpret "main" comparing]
    let m := Live.machine (Chronicled.hold obliging.conduct unreachedDepth visit (.fresh .empty))
    let p := Program.after noFiles [.machine "a" false]
    (m.shown? "main" "Same" = some "[true, true, true, true, true, true]" ∧
      m.shown? "main" "Other" = some "[false, false, false, false, false, false]" ∧
      m.heap.LeavesEquality ∧
      ∃ x ∈ m.host.past, x.action.compares ∧ x.machine.ComparesAtOnce) ∧
    (∃ j, p.job? (.on "a" (.interpret comparing)) = some j ∧
      ∀ x ∈ (Live.machine (Chronicled.work p j)).host.past, x.machine.ComparesAtOnce) ∧
    (eval (obliging.conduct.host.engine 1)
        (.binary default .notEqual (.bool default true) (.bool default true))).run.run
        (.ofModule "main") (.fresh .empty) =
      .ok (.ok (.bool false), .ofModule "main") (.fresh .empty) := by
  obtain ⟨-, -, -, -, dialogues, fresh, steps, -, comparesAtOnce, expressions⟩ := equality_fixed
  refine ⟨?_, ?_, ?_⟩
  · obtain ⟨-, leaves, moments⟩ := dialogues obliging.conduct unreachedDepth
      (.ofRequests [.interpret "main" comparing]) (.fresh .empty) (fresh .empty)
    have compared : (Live.machine (Chronicled.hold obliging.conduct unreachedDepth
        (.ofRequests [.interpret "main" comparing]) (.fresh .empty))).host.past.any
          (·.action.compares) = true := by decide +kernel
    obtain ⟨x, among, compares⟩ := List.any_eq_true.mp compared
    exact ⟨by decide +kernel, by decide +kernel, leaves, x, among, compares, moments x among⟩
  · have there :
        ((Program.after noFiles [.machine "a" false]).machines.get? "a").isSome = true := by
      decide +kernel
    obtain ⟨j, job⟩ := Program.exists_job?_interpret there comparing
    exact ⟨j, job, (steps noFiles _ _ j job).2⟩
  · exact (expressions obliging.conduct.host 0 (.bool default true) (.bool default true)
      (.ofModule "main") (.ofModule "main") (.ofModule "main") (.fresh .empty) (.fresh .empty)
      (.fresh .empty) (.bool true) (.bool true) default rfl rfl
      (comparesAtOnce _ (fresh .empty))).2

end ScriptHost
