import ScriptHost.Embedding.Session
import ScriptHost.Proofs.Arguments.Declarations
import ScriptHost.Proofs.Scoping.Rules
import ScriptHost.Proofs.Simulation.Facade

/-! What is sent fits. Code that was read from a text, the methods of the machine itself and the
calls that a host asks for send each message with as many arguments as its signature asks for: they
do the same when an engine would stop at any other message. -/

namespace ScriptHost

/-- A message has as many arguments as its signature asks for. -/
def Action.Fits : Action → Prop
  | .send _ signature args => args.length = signatureArity signature
  | .load _ => True

instance (action : Action) : Decidable action.Fits := by
  cases action <;> unfold Action.Fits <;> infer_instance

variable {H α : Type}

/-- All that a class declaration needs of an engine are the host's callbacks. -/
theorem defineClass_callbacks {e₁ e₂ : Engine H} (callbacks : e₁.callbacks = e₂.callbacks)
    (moduleName : String) (decl : ClassDecl) :
    defineClass e₁ moduleName decl = defineClass e₂ moduleName decl := by
  have methods (c : ClassObject) (decls : List MethodDecl) :
      bindMethods e₁ c decls = bindMethods e₂ c decls := by
    induction decls generalizing c with
    | nil => rfl
    | cons decl rest ih =>
      unfold bindMethods bindMethod
      simp only [ih, callbacks]
  unfold defineClass bindClass
  simp only [methods, callbacks]

/-- An engine that stops with an alarm at a message that does not fit. -/
def Engine.strict (alarm : Halt) (engine : Engine H) : Engine H :=
  { engine with perform := fun action =>
      if action.Fits then engine.perform action else throwThe Halt alarm }

section

variable (alarm : Halt) (engine : Engine H)

namespace Engine

theorem strict_callbacks : (engine.strict alarm).callbacks = engine.callbacks := rfl

theorem strict_perform (action : Action) (fits : action.Fits) :
    (engine.strict alarm).perform action = engine.perform action := if_pos fits

theorem strict_refuses (action : Action) (fits : ¬action.Fits) :
    (engine.strict alarm).perform action = throwThe Halt alarm := if_neg fits

theorem strict_send (receiver : Value) (signature : String) (args : List Value)
    (fits : args.length = signatureArity signature) :
    (engine.strict alarm).send receiver signature args = engine.send receiver signature args :=
  engine.strict_perform alarm (.send receiver signature args) fits

theorem strict_reportAll (rs : List Report) :
    (engine.strict alarm).reportAll rs = engine.reportAll rs := by
  induction rs with
  | nil => rfl
  | cons r rest ih => exact congrArg (engine.report r >>= fun _ => ·) ih

theorem strict_textOf (v : Value) : (engine.strict alarm).textOf v = engine.textOf v := by
  have sent (v : Value) := engine.strict_send alarm v "toString" [] rfl
  cases v with
  | string s => rfl
  | number x => rfl
  | _ => exact congrArg (· >>= _) (sent _)

theorem strict_textsOf (vs : List Value) :
    (engine.strict alarm).textsOf vs = engine.textsOf vs := by
  induction vs with
  | nil => rfl
  | cons v rest ih =>
    unfold textsOf
    rw [ih, engine.strict_textOf alarm]

end Engine

theorem Primitive.apply_strict (p : Primitive) (receiver : Value) (args : List Value) :
    p.apply (engine.strict alarm) receiver args = p.apply engine receiver args := by
  cases p with
  | listText =>
    cases receiver with
    | list id => simp only [apply, engine.strict_textsOf alarm]
    | _ => rfl
  | print | write =>
    simp only [apply, engine.strict_textOf alarm]
    rfl
  | _ => rfl

/-! ### Expressions -/

namespace Script

variable {β : Type}

theorem bind_congr_of_leaves {x : Script H α} {P : α → Prop} (h : Script.Leaves (fun a _ => P a) x)
    {f g : α → Script H β} (same : ∀ a, P a → f a = g a) : x >>= f = x >>= g := by
  refine ExceptT.ext (funext fun k => funext fun m => ?_)
  change EStateM.bind (x.run.run k) (fun r => (ExceptT.bindCont f r.1).run r.2) m =
    EStateM.bind (x.run.run k) (fun r => (ExceptT.bindCont g r.1).run r.2) m
  unfold EStateM.bind
  cases ran : x.run.run k m with
  | error halt n => rfl
  | ok r n =>
    obtain ⟨e | a, l⟩ := r
    · rfl
    · dsimp only [ExceptT.bindCont]
      rw [same a (h k m a l n ran)]

/-- As many values as expressions. -/
theorem evalAll_leaves (es : List Expr) :
    Script.Leaves (fun vs _ => vs.length = es.length) (evalAll engine es) := by
  induction es with
  | nil =>
    intro f m vs f' m' ran
    cases ran
    rfl
  | cons e rest ih =>
    simp only [evalAll]
    refine .bind fun v f m vs f' m' ran => ?_
    obtain ⟨_, failed, -⟩ | ⟨ws, k, n, rested, ended⟩ := Script.bind_inv ran
    · cases failed
    · cases ended
      exact congrArg (· + 1) (ih _ _ _ _ _ rested)

theorem send_strict (receiver : Value) {signature : String} {args : List Value}
    (fits : args.length = signatureArity signature) :
    Script.send (engine.strict alarm) receiver signature args =
      Script.send engine receiver signature args :=
  congrArg Script.ofRun (engine.strict_send alarm receiver _ _ fits)

end Script

mutual

theorem eval_strict (e : Expr) (bare : ∀ leaf ∈ e.leaves, leaf.Bare) :
    eval (engine.strict alarm) e = eval engine e := by
  cases e with
  | number | string | bool | null | this | «variable» | field => simp only [eval]
  | interpolation _ parts =>
    simp only [eval]
    obtain bare := List.forall_mem_singleton.mp bare
    cases bare with
    | string bare => rw [evalFragments_strict parts bare]
  | list _ elements =>
    simp only [eval]
    rw [evalAll_strict elements bare]
  | unary _ op operand =>
    simp only [eval]
    rw [eval_strict operand bare]
    refine bind_congr fun v => Script.send_strict alarm engine v ?_
    exact (signatureArity_getter op.bareName).symm
  | binary _ op lhs rhs =>
    rw [Expr.leaves, List.forall_mem_append] at bare
    simp only [eval]
    rw [eval_strict lhs bare.1, eval_strict rhs bare.2]
    refine bind_congr fun a => bind_congr fun b => Script.send_strict alarm engine a ?_
    exact (signatureArity_call op.bareName 1).symm
  | logical _ op lhs rhs =>
    rw [Expr.leaves, List.forall_mem_append] at bare
    simp only [eval]
    rw [eval_strict lhs bare.1, eval_strict rhs bare.2]
  | assign _ target value =>
    simp only [eval]
    rw [eval_strict value (List.forall_mem_cons.mp bare).2]
  | getter _ receiver name =>
    rw [Expr.leaves, List.forall_mem_append, List.forall_mem_singleton] at bare
    simp only [eval]
    rw [eval_strict receiver bare.1]
    refine bind_congr fun v => Script.send_strict alarm engine v ?_
    exact (signatureArity_getter bare.2.bareName).symm
  | call _ receiver name args =>
    rw [Expr.leaves, List.forall_mem_append, List.forall_mem_cons] at bare
    simp only [eval]
    rw [eval_strict receiver bare.1, evalAll_strict args bare.2.2]
    refine bind_congr fun object => Script.bind_congr_of_leaves
      (Script.evalAll_leaves engine args) fun values length => ?_
    refine Script.send_strict alarm engine object (length.trans ?_)
    exact (signatureArity_call bare.2.1.bareName args.length).symm
  | subscript _ receiver index =>
    rw [Expr.leaves, List.forall_mem_append] at bare
    simp only [eval]
    rw [eval_strict receiver bare.1, eval_strict index bare.2]
    exact bind_congr fun object => bind_congr fun i => Script.send_strict alarm engine object rfl
termination_by structural e

theorem evalAll_strict (es : List Expr) (bare : ∀ leaf ∈ Expr.leavesAll es, leaf.Bare) :
    evalAll (engine.strict alarm) es = evalAll engine es := by
  cases es with
  | nil => simp only [evalAll]
  | cons e rest =>
    rw [Expr.leavesAll, List.forall_mem_append] at bare
    simp only [evalAll]
    rw [eval_strict e bare.1, evalAll_strict rest bare.2]
termination_by structural es

theorem evalFragments_strict (parts : List Fragment)
    (bare : ∀ part ∈ Fragment.leafParts parts, part.Bare) :
    evalFragments (engine.strict alarm) parts = evalFragments engine parts := by
  cases parts with
  | nil => simp only [evalFragments]
  | cons part rest =>
    rw [Fragment.leafParts, List.forall_mem_cons] at bare
    cases part with
    | literal text =>
      simp only [evalFragments]
      rw [evalFragments_strict rest bare.2]
    | code e =>
      simp only [evalFragments, engine.strict_textOf alarm]
      cases bare.1 with
      | code bare' => rw [eval_strict e bare', evalFragments_strict rest bare.2]
termination_by structural parts

end

/-! ### Statements -/

theorem importNames_strict (source into : String) (names : List String) :
    importNames (engine.strict alarm) source into names = importNames engine source into names := by
  unfold importNames
  rw [engine.strict_perform alarm (.load source) trivial]

mutual

theorem exec_strict (s : Stmt) (bare : ∀ leaf ∈ s.leaves, leaf.Bare) :
    exec (engine.strict alarm) s = exec engine s := by
  cases s with
  | expr e =>
    simp only [exec]
    rw [eval_strict alarm engine e bare]
  | var span name init =>
    cases init with
    | some e =>
      simp only [exec]
      rw [eval_strict alarm engine e (List.forall_mem_cons.mp bare).2]
    | none => simp only [exec]
  | ifElse condition thenBranch elseBranch =>
    rw [Stmt.leaves, List.forall_mem_append, List.forall_mem_append] at bare
    cases elseBranch with
    | none =>
      simp only [exec]
      rw [eval_strict alarm engine condition bare.1, exec_strict thenBranch bare.2.1]
    | some other =>
      simp only [exec]
      rw [eval_strict alarm engine condition bare.1, exec_strict thenBranch bare.2.1,
        exec_strict other bare.2.2]
  | whileLoop condition body =>
    rw [Stmt.leaves, List.forall_mem_append] at bare
    simp only [exec]
    rw [eval_strict alarm engine condition bare.1, exec_strict body bare.2]
    rfl
  | forLoop name sequence body =>
    rw [Stmt.leaves, List.forall_mem_cons, List.forall_mem_append] at bare
    simp only [exec]
    rw [eval_strict alarm engine sequence bare.2.1, exec_strict body bare.2.2]
  | block body =>
    simp only [exec]
    rw [execAll_strict body bare]
  | returnValue span value =>
    cases value with
    | some e =>
      simp only [exec]
      rw [eval_strict alarm engine e bare]
    | none => simp only [exec]
  | breakLoop span => simp only [exec]
  | classDecl decl =>
    simp only [exec, defineClass_callbacks (engine.strict_callbacks alarm)]
  | importNames span source names =>
    simp only [exec, importNames_strict alarm engine]
termination_by structural s

theorem execAll_strict (statements : List Stmt)
    (bare : ∀ leaf ∈ Stmt.leavesAll statements, leaf.Bare) :
    execAll (engine.strict alarm) statements = execAll engine statements := by
  cases statements with
  | nil => simp only [execAll]
  | cons s rest =>
    rw [Stmt.leavesAll, List.forall_mem_append] at bare
    simp only [execAll]
    rw [exec_strict s bare.1, execAll_strict rest bare.2]
termination_by structural statements

end

/-! ### Bodies and modules -/

theorem callScript_strict {decl : MethodDecl} (formed : decl.Formed) (receiver : Value)
    (args : List Value) :
    callScript (engine.strict alarm) decl receiver args = callScript engine decl receiver args := by
  unfold callScript
  rw [execAll_strict alarm engine _ formed.body_bare]

theorem runModule_strict (name : String) {body : List Stmt}
    (bare : ∀ leaf ∈ Stmt.leavesAll body, leaf.Bare) :
    runModule (engine.strict alarm) name body = runModule engine name body := by
  unfold runModule
  rw [execAll_strict alarm engine body bare]

theorem loadModule_strict (name : String) :
    loadModule (engine.strict alarm) name = loadModule engine name := by
  unfold loadModule
  refine bind_congr fun loaded => ?_
  cases loaded with
  | none => rfl
  | some source =>
    dsimp only
    cases parsed : parseModule source with
    | error errors =>
      dsimp only
      rw [engine.strict_reportAll alarm]
    | ok body =>
      dsimp only
      rw [runModule_strict alarm engine name (parseModule_bare parsed)]

/-! ### Requests of a host -/

namespace Engine

theorem strict_interpret (moduleName source : String) :
    (engine.strict alarm).interpret moduleName source = engine.interpret moduleName source := by
  unfold interpret
  cases parsed : parseModule source with
  | error errors =>
    dsimp only
    rw [engine.strict_reportAll alarm]
  | ok body =>
    dsimp only
    rw [runModule_strict alarm engine moduleName (parseModule_bare parsed)]
    simp only [engine.strict_reportAll alarm]

/-- The arguments of a call are as many as its signature asks for, whatever the signature is. -/
theorem strict_sent (signature : String) :
    (engine.strict alarm).sent signature = engine.sent signature := by
  refine bind_congr fun m => ?_
  cases m.vm.slots with
  | nil => rfl
  | cons receiver rest =>
    dsimp only
    split
    · exact engine.strict_send alarm receiver _ _ (List.length_take_of_le ‹_›)
    · rfl

theorem strict_call (signature : String) :
    (engine.strict alarm).call signature = engine.call signature := by
  funext m
  rw [call_run, call_run, engine.strict_sent alarm]
  simp only [engine.strict_reportAll alarm]

end Engine

end

namespace Desk

variable (alarm : Halt) (engine : Engine Desk)

theorem serve_strict (r : Request) : serve (engine.strict alarm) r = serve engine r := by
  cases r with
  | interpret moduleName source =>
    simp only [serve]
    rw [engine.strict_interpret alarm]
  | call handle =>
    simp only [serve]
    simp only [engine.strict_call alarm]
  | _ => rfl

theorem hold_strict (d : Dialogue) : d.hold (serve (engine.strict alarm)) = d.hold (serve engine) :=
  congrArg d.hold (funext (serve_strict alarm engine))

end Desk
end ScriptHost
