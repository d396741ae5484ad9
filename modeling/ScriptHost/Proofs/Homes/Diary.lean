import ScriptHost.Proofs.Course.Logbook

/-! An interpreter that keeps a diary of modules. Beside the host of a program it has a list of
notes: in which module of which machine the declaration of a class was executed, and in which module
a method or constructor of a class looked for a name that is no parameter and no local variable. A
note is made where the interpreter turns to the variables of a module, and nothing reads it. -/

namespace ScriptHost

variable {H α : Type}

/-- A module of a machine. Machines are told apart by where their core classes start. -/
structure Home where
  core : ClassId
  moduleName : String
deriving Repr, DecidableEq

inductive Note where
  /-- The declaration of a class was executed in a module. -/
  | declared (classId : ClassId) (home : Home)
  /-- A method or constructor of a class went to the variables of a module for a name, to read it or
  to assign to it. -/
  | free (classId : ClassId) (home : Home) (name : String) (assigned : Bool)
deriving Repr, DecidableEq

namespace Note

def classId : Note → ClassId
  | declared classId _ | free classId .. => classId

def home : Note → Home
  | declared _ home | free _ home .. => home

end Note

/-- The host's side of a machine, and the diary, the latest note first. -/
structure Diaried (H : Type) where
  side : H
  diary : List Note

namespace Diaried

/-- A machine without its diary. -/
def plain (m : Machine (Diaried H)) : Machine H := ⟨m.heap, m.vm, m.host.side⟩

/-- A machine with a diary. -/
def beside (m : Machine H) (diary : List Note) : Machine (Diaried H) :=
  ⟨m.heap, m.vm, ⟨m.host, diary⟩⟩

/-- What is done without a look at the diary. -/
def lift (act : Live H α) : Live (Diaried H) α := fun m =>
  match act (plain m) with
  | .ok a n => .ok a (beside n m.host.diary)
  | .error h n => .error h (beside n m.host.diary)

def callback (act : StateM H α) : StateM (Diaried H) α := fun d =>
  ((act.run d.side).1, ⟨(act.run d.side).2, d.diary⟩)

def callbacks (c : Callbacks H) : Callbacks (Diaried H) where
  write text := callback (c.write text)
  report r := callback (c.report r)
  bindMethod name := callback (c.bindMethod name)
  bindClass moduleName className := callback (c.bindClass moduleName className)
  load name := callback (c.load name)

def noted (note : Note) (m : Machine (Diaried H)) : Machine (Diaried H) :=
  { m with host := { m.host with diary := note :: m.host.diary } }

/-! ### Names -/

/-- A note that code of a class goes to the variables of its activation's module for a name. Code
that belongs to no class is not noted. -/
def noteFree (owner : Option ClassId) (f : Frame) (name : String) (assigned : Bool) :
    Script (Diaried H) Unit :=
  match owner with
  | some classId => modifyThe (Machine (Diaried H)) fun m =>
    noted (.free classId ⟨m.vm.core, f.moduleName⟩ name assigned) m
  | none => return ()

def lookup (owner : Option ClassId) (name : String) : Script (Diaried H) Value := do
  let f ← getThe Frame
  let m ← getThe (Machine (Diaried H))
  match f.local? name with
  | some v => return v
  | none =>
    noteFree owner f name false
    match m.vm.binding? f.moduleName name with
    | some v => return v
    | none => fault (.undefinedVariable name)

def assign (owner : Option ClassId) (name : String) (v : Value) : Script (Diaried H) Unit := do
  let f ← getThe Frame
  let m ← getThe (Machine (Diaried H))
  match Frame.assignLocal? name v f.scopes with
  | some scopes => modifyThe Frame fun f => { f with scopes }
  | none =>
    noteFree owner f name true
    if (m.vm.binding? f.moduleName name).isSome then
      modifyThe (Machine (Diaried H)) (·.onVm (·.define f.moduleName name v))
    else fault (.undefinedVariable name)

def assignTo (owner : Option ClassId) : Target → Value → Script (Diaried H) Unit
  | .variable name, v => assign owner name v
  | .field name, v => Script.writeField name v

/-! ### Expressions -/

mutual

def eval (owner : Option ClassId) (engine : Engine (Diaried H)) : Expr → Script (Diaried H) Value
  | .number _ x => return .number x
  | .string _ s => return .string s
  | .interpolation _ parts => return .string (← evalFragments owner engine parts)
  | .bool _ b => return .bool b
  | .null _ => return .null
  | .this span => ScriptHost.eval engine (.this span)
  | .variable _ name => lookup owner name
  | .field _ name => Script.readField name
  | .list _ elements => do Script.newList (← evalAll owner engine elements)
  | .unary _ op operand => do Script.send engine (← eval owner engine operand) op.text []
  | .binary _ op lhs rhs => do
    let a ← eval owner engine lhs
    let b ← eval owner engine rhs
    Script.send engine a (callSignature op.text (some 1)) [b]
  | .logical _ op lhs rhs => do
    let a ← eval owner engine lhs
    match op, a.isTrue with
    | .and, false | .or, true => return a
    | _, _ => eval owner engine rhs
  | .assign _ target value => do
    let v ← eval owner engine value
    assignTo owner target v
    return v
  | .getter _ receiver name => do
    Script.send engine (← eval owner engine receiver) (callSignature name none) []
  | .call _ receiver name args => do
    let object ← eval owner engine receiver
    let values ← evalAll owner engine args
    Script.send engine object (callSignature name (some args.length)) values
  | .subscript _ receiver index => do
    let object ← eval owner engine receiver
    let i ← eval owner engine index
    Script.send engine object "[_]" [i]

def evalAll (owner : Option ClassId) (engine : Engine (Diaried H)) :
    List Expr → Script (Diaried H) (List Value)
  | [] => return []
  | e :: rest => do
    let v ← eval owner engine e
    return v :: (← evalAll owner engine rest)

def evalFragments (owner : Option ClassId) (engine : Engine (Diaried H)) :
    List Fragment → Script (Diaried H) String
  | [] => return ""
  | .literal text :: rest => return text ++ (← evalFragments owner engine rest)
  | .code e :: rest => do
    let v ← eval owner engine e
    let text ← Script.ofRun (engine.textOf v)
    return text ++ (← evalFragments owner engine rest)

end

/-! ### Statements -/

/-- A class declaration run, with a note of the module that it is executed in. -/
def defineClass (engine : Engine (Diaried H)) (moduleName : String) (decl : ClassDecl) :
    Run (Diaried H) ClassId := do
  let id ← ScriptHost.defineClass engine moduleName decl
  modify fun m => noted (.declared id ⟨m.vm.core, moduleName⟩) m
  return id

mutual

def exec (owner : Option ClassId) (engine : Engine (Diaried H)) (s : Stmt) :
    Script (Diaried H) Flow := do
  markLine s
  match s with
  | .expr e =>
    let _ ← eval owner engine e
    return .normal
  | .var _ name init =>
    match init with
    | some e => Script.declare name (← eval owner engine e)
    | none => Script.declare name .null
    return .normal
  | .ifElse condition thenBranch elseBranch =>
    if (← eval owner engine condition).isTrue then
      branch thenBranch (exec owner engine thenBranch)
    else match elseBranch with
      | some other => branch other (exec owner engine other)
      | none => return .normal
  | .whileLoop condition body =>
    repeatWhile (eval owner engine condition) (branch body (exec owner engine body)) engine.limit
  | .forLoop name sequence body =>
    forEach name (exec owner engine body) (← elementsOf (← eval owner engine sequence))
  | .block body => Script.inScope [] (execAll owner engine body)
  | .returnValue _ value =>
    match value with
    | some e => return .returned (← eval owner engine e)
    | none => return .returned .null
  | .breakLoop _ => return .broken
  | .classDecl decl =>
    let id ← Script.ofRun (defineClass engine (← getThe Frame).moduleName decl)
    Script.declare decl.name (.classObject id)
    return .normal
  | .importNames _ source names =>
    Script.ofRun (importNames engine source (← getThe Frame).moduleName names)
    return .normal

def execAll (owner : Option ClassId) (engine : Engine (Diaried H)) :
    List Stmt → Script (Diaried H) Flow
  | [] => return .normal
  | s :: rest => do
    match ← exec owner engine s with
    | .normal => execAll owner engine rest
    | flow => return flow

end

/-! ### Bodies -/

/-- The body of a method run on a receiver, for an owner. -/
def body (owner : Option ClassId) (engine : Engine (Diaried H)) (decl : MethodDecl)
    (receiver : Value) (args : List Value) : Run (Diaried H) Value := do
  let m ← get
  let classId := m.classOf receiver
  let moduleName := ((m.heap.class? classId).map (·.moduleName)).getD ""
  modify fun m => m.onVm (·.openModule moduleName)
  let frame : Frame :=
    { moduleName, this := some receiver, scopes := [parameters decl.params args],
      line := decl.span.line, function := m.heap.className classId ++ "." ++ decl.signature }
  match ← Script.activate frame (execAll owner engine (decl.body.getD [])) with
  | .returned v => return v
  | _ => return if decl.kind = .constructor then receiver else .null

theorem body_run (owner : Option ClassId) (engine : Engine (Diaried H)) (decl : MethodDecl)
    (receiver : Value) (args : List Value) (m : Machine (Diaried H)) :
    (body owner engine decl receiver args).run m =
      (do
        modify (·.onVm (·.openModule (m.moduleOf receiver)))
        match ← Script.activate
            (decl.frame (m.moduleOf receiver) (m.heap.className (m.classOf receiver)) receiver args)
            (execAll owner engine (decl.body.getD [])) with
        | .returned v => return v
        | _ => return if decl.kind = .constructor then receiver else .null :
          Run (Diaried H) Value).run m :=
  rfl

/-- A run that starts by looking at its machine. -/
theorem looking_run (f : Machine H → Run H α) (m : Machine H) :
    (get >>= f).run m = (f m).run m := rfl

/-- A method runs for the class that it was found in, that of its receiver. -/
def method (engine : Engine (Diaried H)) (decl : MethodDecl) (receiver : Value)
    (args : List Value) : Run (Diaried H) Value := do
  let m ← get
  body (some (m.classOf receiver)) engine decl receiver args

theorem method_run (engine : Engine (Diaried H)) (decl : MethodDecl) (receiver : Value)
    (args : List Value) (m : Machine (Diaried H)) :
    (method engine decl receiver args).run m =
      (body (some (m.classOf receiver)) engine decl receiver args).run m :=
  looking_run _ m

/-- A constructor runs for its class, if the object that it works on is of that class. What a
foreign class has its objects made by may hand over another one. -/
def constructing (engine : Engine (Diaried H)) (classId : ClassId) (decl : MethodDecl)
    (args : List Value) (object : Value) : Run (Diaried H) Value := do
  let m ← get
  body (if m.classOf object = classId then some classId else none) engine decl object args

theorem constructing_run (engine : Engine (Diaried H)) (classId : ClassId) (decl : MethodDecl)
    (args : List Value) (object : Value) (m : Machine (Diaried H)) :
    (constructing engine classId decl args object).run m =
      (body (if m.classOf object = classId then some classId else none) engine decl object
        args).run m :=
  looking_run _ m

def making (host : Host (Diaried H)) (engine : Engine (Diaried H)) (classId : ClassId)
    (decl : MethodDecl) (args : List Value) : Run (Diaried H) Value :=
  constructBy host engine (fun _ => constructing engine classId decl args) classId args

theorem making_run (host : Host (Diaried H)) (engine : Engine (Diaried H)) (classId : ClassId)
    (decl : MethodDecl) (args : List Value) (m : Machine (Diaried H)) :
    (making host engine classId decl args).run m =
      (match m.heap.class? classId with
      | none => return .null
      | some k => do
        let object ← newObject host engine classId k args
        let _ ← constructing engine classId decl args object
        return object : Run (Diaried H) Value).run m :=
  looking_run _ m

/-- The statements of a module run at its top. -/
def runModule (engine : Engine (Diaried H)) (name : String) (statements : List Stmt) :
    Run (Diaried H) Unit := do
  let _ ← Script.activate (.ofModule name) (execAll none engine statements)

def interpret (engine : Engine (Diaried H)) (moduleName source : String) :
    Live (Diaried H) (Except InterpretError Unit) :=
  engine.interpretBy (runModule engine moduleName) moduleName source

def perform (host : Host (Diaried H)) : Nat → Action → Run (Diaried H) Value
  | 0, _ => throwThe Halt .exhausted
  | depth + 1, action =>
    let here : Engine (Diaried H) := ⟨host.callbacks, depth, perform host depth⟩
    match action with
    | .send receiver signature args =>
      invokeBy host here (fun decl => nested (method here decl receiver args))
        (fun id decl => nested (making host here id decl args)) receiver signature args
    | .load name => do
      loadBy here (runModule here name) name
      return .null

def engine (host : Host (Diaried H)) (depth : Nat) : Engine (Diaried H) :=
  ⟨host.callbacks, depth, perform host depth⟩

theorem perform_send (host : Host (Diaried H)) (depth : Nat) (receiver : Value)
    (signature : String) (args : List Value) :
    perform host (depth + 1) (.send receiver signature args) =
      invokeBy host (engine host depth)
        (fun decl => nested (method (engine host depth) decl receiver args))
        (fun id decl => nested (making host (engine host depth) id decl args))
        receiver signature args := rfl

end Diaried
end ScriptHost
