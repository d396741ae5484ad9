import ScriptHost.Proofs.Course.Interpreter
import ScriptHost.Proofs.Lines.Chart
import ScriptHost.Proofs.Scoping

/-! What the chart tells. While a run goes on the chart is as the bodies around have left it; when a
fault is on its way, each entry of its trace has a place on the chart, whose innermost statement has
the line of the entry. Only a `while` whose condition is asked again is behind: the activation is at
the line of the statement of the loop's body that was started last. -/

namespace ScriptHost

variable {H α β : Type}

/-- A statement stands inside another one, or is the other one. What a class declares is not run
with the declaration. -/
inductive Stmt.Within (s : Stmt) : Stmt → Prop
  | self : Within s s
  | thenBranch {condition first second} : Within s first →
    Within s (.ifElse condition first second)
  | elseBranch {condition first second} : Within s second →
    Within s (.ifElse condition first (some second))
  | whileBody {condition body} : Within s body → Within s (.whileLoop condition body)
  | forBody {name sequence body} : Within s body → Within s (.forLoop name sequence body)
  | block {inner body} : inner ∈ body → Within s inner → Within s (.block body)

/-- The line where the innermost statement that is under way in a body starts. -/
def Progress.line? (p : Progress) : Option Nat := p.doing.head?.bind Stmt.line?

/-- The entry of a trace has the line of the innermost statement that is under way in its body. -/
def TraceEntry.Carries (t : TraceEntry) (p : Progress) : Prop :=
  t.activation = p.body ∧ p.line? = some t.line

/-- The innermost statement that is under way is a `while`, some of whose body was executed already,
and the entry has the line of the statement of the body that was started last. -/
def TraceEntry.Lags (t : TraceEntry) (p : Progress) : Prop :=
  t.activation = p.body ∧ ∃ condition body outer latest,
    p.doing = .whileLoop condition body :: outer ∧ p.latest = some latest ∧ latest.Within body ∧
      latest.line? = some t.line

def TraceEntry.Marks (t : TraceEntry) (p : Progress) : Prop := t.Carries p ∨ t.Lags p

/-- While a statement has not handed on to another one, an activation is at its line; a `while` is
back from its body, too. -/
inductive Stmt.Shows : Stmt → Nat → Option Stmt → Prop
  | own {s line} : s.line? = some line → Shows s line (some s)
  | body {condition body latest line} : latest.Within body → latest.line? = some line →
    Shows (.whileLoop condition body) line (some latest)

/-- What is known of the line that an activation is at and of the statement started last, and holds
of any statement inside `s` that was just started. -/
def Stmt.Allows (s : Stmt) (K : Nat → Option Stmt → Prop) : Prop :=
  ∀ latest line, latest.Within s → latest.line? = some line → K line (some latest)

theorem Stmt.Shows.allowed {s : Stmt} {K : Nat → Option Stmt → Prop} {line : Nat}
    {latest : Option Stmt} (h : s.Shows line latest) (allows : s.Allows K) : K line latest := by
  cases h with
  | own at_ => exact allows s line .self at_
  | body inside at_ => exact allows _ line (.whileBody inside) at_

theorem Stmt.Shows.marks {s : Stmt} {f : Frame} {latest : Option Stmt} (h : s.Shows f.line latest)
    (outer : List Stmt) : f.entry.Marks ⟨f.activation, s :: outer, latest⟩ := by
  cases h with
  | own at_ => exact .inl ⟨rfl, at_⟩
  | body inside at_ => exact .inr ⟨rfl, _, _, outer, _, rfl, rfl, inside, at_⟩

/-- A part of an activation leaves it at its line. -/
def Situation.SameLine (s t : Situation H) : Prop := t.1.line = s.1.line

namespace Situation.SameLine

instance : Chains (SameLine (H := H)) where
  refl _ := rfl
  trans first second := second.trans first

theorem ofRun (x : Run H α) : Script.Does SameLine (Script.ofRun x) :=
  .ofRun fun _ _ _ _ _ => rfl

theorem eval (engine : Engine H) (e : Expr) : Script.Does SameLine (ScriptHost.eval engine e) :=
  (engine.eval_evaluates e).imp fun h => (congrArg Frame.line h.rest).trans rfl

theorem declare (name : String) (v : Value) :
    Script.Does (H := H) SameLine (Script.declare name v) := by
  intro f m r f' m' ran
  rw [Script.declare_run] at ran
  cases scopes : f.scopes with
  | nil =>
    rw [scopes] at ran
    cases ran
    rfl
  | cons scope outer =>
    rw [scopes] at ran
    cases ran
    rfl

theorem elementsOf (v : Value) : Script.Does (H := H) SameLine (ScriptHost.elementsOf v) := by
  cases v with
  | list id => exact .get_bind fun m => .pure _
  | _ => exact .fault _

end Situation.SameLine

namespace Charted

variable {around : List Progress} {body : Activation} {engine : Engine (Charted H)}

/-! ### The course of a run with a chart -/

/-- Inside the bodies `around`. -/
def course (H : Type) (around : List Progress) : Course (Charted H) where
  going _ l := l.chart = around
  fault _ trace _ l := ∃ inner,
    l.chart = inner ++ around ∧ List.Forall₂ TraceEntry.Marks trace inner
  halt _ _ := True

theorem course_lawful (around : List Progress) : (course H around).Lawful where
  define going _ _ _ := going
  register going _ _ _ := going
  raise going := fun _ => ⟨[], going, .nil⟩
  stop _ := trivial
  fail _ := trivial

theorem course_raises (around : List Progress) : (course H around).Raises :=
  fun going _ => ⟨[], going, .nil⟩

/-- How a body ended that a fault left: its own entry comes next on the trace. -/
def Failed (around : List Progress) (e : RuntimeError) (f : Frame) (m : Machine (Charted H)) :
    Prop :=
  ∃ inner p, m.host.chart = inner ++ p :: around ∧
    List.Forall₂ TraceEntry.Marks e.trace inner ∧ f.entry.Marks p

/-- A part of an activation that leads from `P` to `Q`, or fails as the chart tells. -/
def Passes (around : List Progress) (P Q : Frame → Machine (Charted H) → Prop)
    (x : Script (Charted H) α) : Prop :=
  ∀ f m r f' m', P f m → x.run.run f m = .ok (r, f') m' →
    match r with
    | .ok _ => Q f' m'
    | .error e => Failed around e f' m'

/-- An activation of a body, with the statements that are under way, and what is known of the line
and of the statement started last. -/
def Underway (around : List Progress) (body : Activation) (doing : List Stmt)
    (K : Nat → Option Stmt → Prop) (f : Frame) (m : Machine (Charted H)) : Prop :=
  f.activation = body ∧ ∃ latest, m.host.chart = ⟨body, doing, latest⟩ :: around ∧ K f.line latest

theorem Underway.imp {doing : List Stmt} {K K' : Nat → Option Stmt → Prop} {f : Frame}
    {m : Machine (Charted H)} (h : Underway around body doing K f m)
    (weaker : ∀ {line latest}, K line latest → K' line latest) :
    Underway around body doing K' f m :=
  ⟨h.1, h.2.imp fun _ known => known.imp_right weaker⟩

namespace Passes

variable {P Q R : Frame → Machine (Charted H) → Prop}

protected theorem pure (h : ∀ f m, P f m → Q f m) (a : α) :
    Passes around P Q (Pure.pure a : Script (Charted H) α) := by
  intro f m r f' m' there ran
  cases ran
  exact h f m there

protected theorem bind {x : Script (Charted H) α} {g : α → Script (Charted H) β}
    (h : Passes around P Q x) (hg : ∀ a, Passes around Q R (g a)) :
    Passes around P R (x >>= g) := by
  intro f m r f' m' there ran
  obtain ⟨e, rfl, first⟩ | ⟨a, k, n, first, later⟩ := Script.bind_inv ran
  · exact h f m _ f' m' there first
  · exact hg a k n r f' m' (h f m _ k n there first) later

theorem getFrame_bind {g : Frame → Script (Charted H) β} (h : ∀ f, Passes around P Q (g f)) :
    Passes around P Q (getThe Frame >>= g) :=
  fun f => h f f

theorem imp {P' Q' : Frame → Machine (Charted H) → Prop} {x : Script (Charted H) α}
    (h : Passes around P Q x) (before : ∀ f m, P' f m → P f m) (after : ∀ f m, Q f m → Q' f m) :
    Passes around P' Q' x := by
  intro f m r f' m' there ran
  have ended := h f m r f' m' (before f m there) ran
  cases r with
  | ok a => exact after f' m' ended
  | error e => exact ended

protected theorem halt (h : Halt) :
    Passes around P Q (throwThe Halt h : Script (Charted H) α) := by
  intro f m r f' m' _ ran
  cases ran

end Passes

/-! ### Statements -/

variable {doing : List Stmt} {K K' : Nat → Option Stmt → Prop} {s : Stmt}

theorem inScope_passes (scope : Bindings) {x : Script (Charted H) α}
    (h : Passes around (Underway around body doing K) (Underway around body doing K') x) :
    Passes around (Underway around body doing K) (Underway around body doing K')
      (Script.inScope scope x) := by
  intro f m r f' m' there ran
  obtain ⟨⟨r, inner⟩, n, worked, left⟩ := Live.bind_inv
    (x := x.run.run { f with scopes := scope :: f.scopes })
    (f := fun r => (Pure.pure (r.1, { r.2 with scopes := r.2.scopes.tail }) :
      Live (Charted H) (Except RuntimeError α × Frame))) ran
  cases left
  exact h { f with scopes := scope :: f.scopes } m r inner m' there worked

theorem branch_passes (s : Stmt) {x : Script (Charted H) Flow}
    (h : Passes around (Underway around body doing K) (Underway around body doing K') x) :
    Passes around (Underway around body doing K) (Underway around body doing K') (branch s x) := by
  unfold branch
  split
  · exact h
  · exact inScope_passes [] h

/-- What a statement does itself leaves the activation at its line. -/
theorem own_passes {x : Script (Charted H) α}
    (keeps : ∀ around, ScriptKeeps (course H around) body x)
    (same : Script.Does Situation.SameLine x) :
    Passes around (Underway around body (s :: doing) s.Shows)
      (Underway around body (s :: doing) s.Shows) x := by
  rintro f m r f' m' ⟨rfl, latest, chart, shown⟩ ran
  have settled := keeps (⟨f.activation, s :: doing, latest⟩ :: around) f m rfl chart
  rw [ran] at settled
  obtain ⟨named, settled⟩ := settled
  have line : f'.line = f.line := same f m r f' m' ran
  rw [← line] at shown
  cases r with
  | ok a => exact ⟨named, latest, settled, shown⟩
  | error e =>
    obtain ⟨inner, chart, marks⟩ := settled
    refine ⟨inner, _, chart, marks, ?_⟩
    rw [← named]
    exact shown.marks doing

theorem mark_passes {P Q : Frame → Machine (Charted H) → Prop} {change : Progress → Progress}
    (h : ∀ f m, P f m → Q f (noted (·.modifyHead change) m)) :
    Passes around P Q (mark change) := by
  intro f m r f' m' there ran
  cases ran
  exact h f m there

theorem markLine_passes {P Q : Frame → Machine (Charted H) → Prop}
    (h : ∀ f m, P f m → Q { f with line := s.line?.getD f.line } m) :
    Passes around P Q (markLine s) := by
  intro f m r f' m' there ran
  unfold markLine at ran
  have next := h f m there
  cases line : s.line? with
  | none =>
    rw [line] at ran next
    cases ran
    exact next
  | some line =>
    rw [line] at ran next
    cases ran
    exact next

/-- A statement with the marks around it. -/
theorem during_passes {L : Nat → Option Stmt → Prop} {x : Script (Charted H) Flow}
    (begun : ∀ {line latest}, K line latest →
      L (s.line?.getD line) (if s.isBlock then latest else some s))
    (h : Passes around (Underway around body (s :: doing) L)
      (Underway around body (s :: doing) K) x) :
    Passes around (Underway around body doing K) (Underway around body doing K)
      (during s (markLine s >>= fun _ => x)) := by
  have ends : Passes around (Underway around body (s :: doing) K) (Underway around body doing K)
      (mark (H := H) .finish) := by
    refine mark_passes ?_
    rintro f m ⟨named, latest, chart, known⟩
    refine ⟨named, latest, ?_, known⟩
    change List.modifyHead _ m.host.chart = _
    rw [chart]
    rfl
  have starts : Passes around (Underway around body doing K)
      (Underway around body (s :: doing) fun line latest => L (s.line?.getD line) latest)
      (mark (H := H) (.begin s)) := by
    refine mark_passes ?_
    rintro f m ⟨named, latest, chart, known⟩
    refine ⟨named, _, ?_, begun known⟩
    change List.modifyHead _ m.host.chart = _
    rw [chart]
    rfl
  refine starts.bind fun _ => Passes.bind (Passes.bind (markLine_passes ?_) fun _ => h) ?_
  · exact fun _ _ there => there
  · exact fun _ => ends.bind fun _ => .pure (fun _ _ there => there) _

/-- A statement that is no block, whose further work finds the activation at its line. -/
theorem plain_passes {x : Script (Charted H) Flow} (plain : s.isBlock = false)
    (h : Passes around (Underway around body (s :: doing) s.Shows)
      (Underway around body (s :: doing) K) x) :
    Passes around (Underway around body doing K) (Underway around body doing K)
      (during s (markLine s >>= fun _ => x)) := by
  refine during_passes (fun _ => ?_) h
  rw [plain]
  cases s with
  | block inner => cases plain
  | _ => exact .own rfl

theorem repeatWhile_passes {P : Frame → Machine (Charted H) → Prop}
    {condition : Script (Charted H) Value} {x : Script (Charted H) Flow}
    (asked : Passes around P P condition) (h : Passes around P P x) (turns : Nat) :
    Passes around P P (repeatWhile condition x turns) := by
  have same (flow : Flow) : Passes around P P (Pure.pure flow : Script (Charted H) Flow) :=
    .pure (fun _ _ there => there) flow
  induction turns with
  | zero => exact .halt _
  | succ turns ih =>
    refine asked.bind fun v => ?_
    split
    · refine h.bind fun flow => ?_
      cases flow with
      | normal => exact ih
      | broken => exact same _
      | returned v => exact same _
    · exact same _

theorem forEach_passes (name : String) {x : Script (Charted H) Flow}
    (h : Passes around (Underway around body doing K) (Underway around body doing K) x)
    (vs : List Value) :
    Passes around (Underway around body doing K) (Underway around body doing K)
      (forEach name x vs) := by
  induction vs with
  | nil => exact .pure (fun _ _ there => there) _
  | cons v rest ih =>
    refine (inScope_passes [(name, v)] h).bind fun flow => ?_
    cases flow with
    | normal => exact ih
    | broken => exact .pure (fun _ _ there => there) _
    | returned v => exact .pure (fun _ _ there => there) _

/-- The end of a statement that handed on to no other. -/
theorem done_passes (allows : s.Allows K) (flow : Flow) :
    Passes around (Underway around body (s :: doing) s.Shows) (Underway around body (s :: doing) K)
      (Pure.pure flow : Script (Charted H) Flow) :=
  .pure (fun _ _ there => there.imp fun shown => shown.allowed allows) flow

/-- A statement that hands on to another. -/
theorem handed_passes (allows : s.Allows K) {x : Script (Charted H) Flow}
    (h : Passes around (Underway around body (s :: doing) K)
      (Underway around body (s :: doing) K) x) :
    Passes around (Underway around body (s :: doing) s.Shows) (Underway around body (s :: doing) K)
      x :=
  h.imp (fun _ _ there => there.imp fun shown => shown.allowed allows) fun _ _ there => there

theorem eval_passes (runs : ∀ around, (course H around).Runs engine) (e : Expr) :
    Passes around (Underway around body (s :: doing) s.Shows)
      (Underway around body (s :: doing) s.Shows) (eval engine e) :=
  own_passes (fun _ => eval_keeps (runs _) e) (Situation.SameLine.eval engine e)

theorem declare_passes (name : String) (v : Value) :
    Passes around (Underway around body (s :: doing) s.Shows)
      (Underway around body (s :: doing) s.Shows)
      (Script.declare name v : Script (Charted H) Unit) :=
  own_passes (fun _ => Script.declare_keeps (course_lawful _) name v)
    (Situation.SameLine.declare name v)

theorem elementsOf_passes (v : Value) :
    Passes around (Underway around body (s :: doing) s.Shows)
      (Underway around body (s :: doing) s.Shows)
      (elementsOf v : Script (Charted H) (List Value)) :=
  own_passes (fun _ => elementsOf_keeps (course_lawful _) v) (Situation.SameLine.elementsOf v)

/-- A statement that runs further code, which does not see the activation. -/
theorem ofRun_passes {x : Run (Charted H) α} (keeps : ∀ around, RunKeeps (course H around) x) :
    Passes around (Underway around body (s :: doing) s.Shows)
      (Underway around body (s :: doing) s.Shows) (Script.ofRun x) :=
  own_passes (fun _ => .ofRun (keeps _)) (Situation.SameLine.ofRun x)

mutual

/-- A statement keeps what is known of the line, if that is true of each statement inside it when it
has just started. -/
theorem exec_passes (runs : ∀ around, (course H around).Runs engine)
    {doing : List Stmt} {K : Nat → Option Stmt → Prop} (s : Stmt) (allows : s.Allows K) :
    Passes around (Underway around body doing K) (Underway around body doing K)
      (exec engine s) := by
  cases s with
  | expr e =>
    simp only [exec]
    exact plain_passes rfl ((eval_passes runs e).bind fun _ => done_passes allows _)
  | var span name init =>
    cases init with
    | none =>
      simp only [exec]
      exact plain_passes rfl ((declare_passes name _).bind fun _ => done_passes allows _)
    | some e =>
      simp only [exec]
      refine plain_passes rfl ((eval_passes runs e).bind fun v => ?_)
      exact (declare_passes name v).bind fun _ => done_passes allows _
  | ifElse condition thenBranch elseBranch =>
    have first : thenBranch.Allows K := fun latest line inside =>
      allows latest line inside.thenBranch
    cases elseBranch with
    | none =>
      simp only [exec]
      refine plain_passes rfl ((eval_passes runs condition).bind fun v => ?_)
      split
      · exact handed_passes allows (branch_passes thenBranch (exec_passes runs thenBranch first))
      · exact done_passes allows _
    | some other =>
      have second : other.Allows K := fun latest line inside => allows latest line inside.elseBranch
      simp only [exec]
      refine plain_passes rfl ((eval_passes runs condition).bind fun v => ?_)
      split
      · exact handed_passes allows (branch_passes thenBranch (exec_passes runs thenBranch first))
      · exact handed_passes allows (branch_passes other (exec_passes runs other second))
  | whileLoop condition inner =>
    -- The condition is asked again where the body has left the activation.
    have turn : inner.Allows (Stmt.whileLoop condition inner).Shows := fun latest line => .body
    simp only [exec]
    refine plain_passes rfl ((repeatWhile_passes (eval_passes runs condition)
      (branch_passes inner (exec_passes runs inner turn)) _).imp (fun _ _ there => there) ?_)
    exact fun _ _ there => there.imp fun shown => shown.allowed allows
  | forLoop name sequence inner =>
    have turn : inner.Allows K := fun latest line inside => allows latest line inside.forBody
    simp only [exec]
    refine plain_passes rfl ((eval_passes runs sequence).bind fun v => ?_)
    refine (elementsOf_passes v).bind fun vs => ?_
    exact handed_passes allows (forEach_passes name (exec_passes runs inner turn) vs)
  | block inner =>
    simp only [exec]
    refine during_passes (L := K) (fun known => known) (inScope_passes [] ?_)
    exact execAll_passes runs inner fun t listed latest line inside =>
      allows latest line (.block listed inside)
  | returnValue span value =>
    cases value with
    | none =>
      simp only [exec]
      exact plain_passes rfl (done_passes allows _)
    | some e =>
      simp only [exec]
      exact plain_passes rfl ((eval_passes runs e).bind fun _ => done_passes allows _)
  | breakLoop span =>
    simp only [exec]
    exact plain_passes rfl (done_passes allows _)
  | classDecl decl =>
    simp only [exec]
    refine plain_passes rfl (.getFrame_bind fun f => ?_)
    refine (ofRun_passes fun _ => defineClass_keeps (runs _) f.moduleName decl).bind fun id => ?_
    exact (declare_passes decl.name _).bind fun _ => done_passes allows _
  | importNames span source names =>
    simp only [exec]
    refine plain_passes rfl (.getFrame_bind fun f => ?_)
    exact (ofRun_passes fun _ => importNames_keeps (runs _) source f.moduleName names).bind
      fun _ => done_passes allows _
termination_by structural s

theorem execAll_passes (runs : ∀ around, (course H around).Runs engine)
    {doing : List Stmt} {K : Nat → Option Stmt → Prop} (statements : List Stmt)
    (allows : ∀ s ∈ statements, s.Allows K) :
    Passes around (Underway around body doing K) (Underway around body doing K)
      (execAll engine statements) := by
  cases statements with
  | nil => simp only [execAll]; exact .pure (fun _ _ there => there) _
  | cons s rest =>
    simp only [execAll]
    refine (exec_passes runs s (allows s (.head _))).bind fun flow => ?_
    cases flow with
    | normal => exact execAll_passes runs rest fun t listed => allows t (.tail _ listed)
    | broken => exact .pure (fun _ _ there => there) _
    | returned v => exact .pure (fun _ _ there => there) _
termination_by structural statements

end

/-! ### Bodies -/

/-- A body whose fault takes its entry with it. -/
theorem activate_keeps {k : Frame} (statements : List Stmt)
    (runs : ∀ around, (course H around).Runs engine) :
    RunKeeps (course H around) (activate k (execAll engine statements)) := by
  intro m going
  have passed : Passes around (Underway around k.activation [] fun _ _ => True)
      (Underway around k.activation [] fun _ _ => True) (execAll engine statements) :=
    execAll_passes runs statements fun _ _ _ _ _ _ => trivial
  have entered : Underway around k.activation [] (fun _ _ => True) k
      (noted (.start k.activation :: ·) m) :=
    ⟨rfl, none, congrArg (_ :: ·) going, trivial⟩
  change Course.Ended _ _ (EStateM.bind (EStateM.bind ((execAll engine statements).run.run k) _) _
    (noted (_ :: ·) m))
  unfold EStateM.bind
  cases ran : (execAll engine statements).run.run k (noted (_ :: ·) m) with
  | error halt n => trivial
  | ok result n =>
    obtain ⟨e | a, last⟩ := result
    · obtain ⟨inner, p, chart, marks, own⟩ := passed k _ _ last n entered ran
      refine ⟨inner ++ [p], ?_, List.rel_append marks (.cons own .nil)⟩
      rw [List.append_assoc]
      exact chart
    · obtain ⟨-, latest, chart, -⟩ := passed k _ _ last n entered ran
      exact congrArg List.tail chart

theorem runModule_keeps (name : String) (statements : List Stmt)
    (runs : ∀ around, (course H around).Runs engine) :
    RunKeeps (course H around) (runModule engine name statements) :=
  (activate_keeps statements runs).bind fun _ => .pure _

theorem callScript_keeps (runs : ∀ around, (course H around).Runs engine) (decl : MethodDecl)
    (receiver : Value) (args : List Value) :
    RunKeeps (course H around) (callScript engine decl receiver args) := by
  refine .get_bind fun m => ?_
  refine (openModule_keeps (course_lawful around) _).bind fun _ =>
    (activate_keeps _ runs).bind fun flow => ?_
  cases flow <;> exact .pure _

theorem construct_keeps {host : Host (Charted H)} (runs : ∀ around, (course H around).Runs engine)
    (called : ∀ f v vs, RunKeeps (course H around) (callForeign host engine f v vs))
    (classId : ClassId) (decl : MethodDecl) (args : List Value) :
    RunKeeps (course H around) (construct host engine classId decl args) :=
  constructBy_keeps (course_lawful around) called
    (fun _ object => callScript_keeps runs decl object args) classId args

/-! ### The interpreter -/

theorem callback_follows (act : StateM H α) : (course H around).Follows (callback act) :=
  fun going => going

theorem lift_keeps (act : Live H α) : LiveKeeps (course H around) (lift act) := by
  intro m going
  unfold lift
  cases act (plain m) with
  | ok a n => exact going
  | error halt n => exact trivial

/-- The interpreter with a chart stays on course, at every depth and inside all bodies. -/
theorem engine_runs (h : Host H) (depth : Nat) (around : List Progress) :
    (course H around).Runs (Charted.engine h depth) := by
  induction depth generalizing around with
  | zero =>
    exact ⟨course_lawful around, fun _ => callback_follows _, fun _ => callback_follows _,
      fun _ => callback_follows _, fun _ _ => callback_follows _, fun _ _ _ _ _ => trivial,
      fun _ _ _ => trivial⟩
  | succ depth ih =>
    have called (f : HostFunction) (v : Value) (vs : List Value) :
        RunKeeps (course H around) (callForeign (host h) (Charted.engine h depth) f v vs) :=
      callForeign_keeps (course_lawful around) f v vs (lift_keeps _)
    refine ⟨course_lawful around, fun _ => callback_follows _, fun _ => callback_follows _,
      fun _ => callback_follows _, fun _ _ => callback_follows _, fun receiver signature args => ?_,
      fun going name _ => ?_⟩
    · change RunKeeps _ (perform h (depth + 1) (.send receiver signature args))
      rw [perform_send]
      exact invokeBy_keeps (ih around) (course_raises around) called
        (fun decl => nested_keeps (course_lawful around) (callScript_keeps ih decl _ _))
        (fun id decl => nested_keeps (course_lawful around) (construct_keeps ih called id decl _))
        receiver signature args
    · exact RunKeeps.bind_at (loadBy_keeps (ih around) (callback_follows _)
        (fun body => runModule_keeps name body ih) _ going) fun _ => .pure _

/-! ### What the host asks for -/

theorem reported_chart (h : Host H) (depth : Nat) (rs : List Report) (m : Machine (Charted H)) :
    ((Charted.engine h depth).reported m rs).host.chart = m.host.chart := by
  induction rs generalizing m with
  | nil => rfl
  | cons r rest ih => exact ih _

theorem interpret_marks {h : Host H} {depth : Nat} {moduleName source : String}
    {m m' : Machine (Charted H)} {e : RuntimeError}
    (failed : interpret (Charted.engine h depth) moduleName source m =
      .ok (.error (.runtime e)) m') :
    ∃ inner, m'.host.chart = inner ++ m.host.chart ∧
      List.Forall₂ TraceEntry.Marks e.trace inner := by
  obtain ⟨body, n, -, ran, rfl⟩ := Engine.interpretBy_failed failed
  have kept : RunKeeps (course H m.host.chart)
      (runModule (Charted.engine h depth) moduleName body) :=
    runModule_keeps moduleName body (engine_runs h depth)
  have settled := kept (m.onVm fun vm => { vm.openModule moduleName with depth := 0 }) rfl
  rw [ran] at settled
  rw [reported_chart]
  exact settled

theorem call_marks {h : Host H} {depth : Nat} {signature : String} {m m' : Machine (Charted H)}
    {e : RuntimeError}
    (failed : (Charted.engine h depth).call signature m = .ok (.error (.runtime e)) m') :
    ∃ inner, m'.host.chart = inner ++ m.host.chart ∧
      List.Forall₂ TraceEntry.Marks e.trace inner := by
  obtain ⟨n, ran, rfl⟩ := Engine.call_failed failed
  have settled := Engine.sent_keeps (engine_runs h depth m.host.chart) signature m rfl
  rw [ran] at settled
  rw [reported_chart]
  exact settled

end Charted
end ScriptHost
