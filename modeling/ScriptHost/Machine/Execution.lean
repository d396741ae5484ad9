import ScriptHost.Machine.Evaluation
/-! Statements executed inside an activation. Each says how it ended, so that a loop can be left and
a method can return from within. -/

namespace ScriptHost

variable {H : Type}

/-- How a statement ended. -/
inductive Flow where
  | normal
  | returned (v : Value)
  | broken

/-- The line that an activation is at while a statement runs; a block has none of its own. -/
def Stmt.line? : Stmt → Option Nat
  | .expr e => some e.span.line
  | .var span _ _ | .returnValue span _ | .breakLoop span | .importNames span _ _ => some span.line
  | .ifElse condition _ _ | .whileLoop condition _ => some condition.span.line
  | .forLoop _ sequence _ => some sequence.span.line
  | .classDecl decl => some decl.span.line
  | .block _ => none

def Stmt.isBlock : Stmt → Bool
  | .block _ => true
  | _ => false

/-! Classes and imports. -/

/-- What a method declaration stands for; a foreign one has to be known to the host. -/
def bindMethod (engine : Engine H) (moduleName className : String) (decl : MethodDecl) :
    Run H Method := do
  if decl.isForeign then
    let name : MemberName := ⟨moduleName, className, decl.isStatic, decl.signature⟩
    match ← modifyGet (·.onHost (engine.callbacks.bindMethod name)) with
    | some f => return .foreign f
    | none => fault (.unknownForeignMethod decl.signature className moduleName)
  else if decl.kind = .constructor then return .constructor decl
  else return .script decl

/-- Whether a method belongs to the class itself. -/
def MethodDecl.onClass (decl : MethodDecl) : Bool := decl.isStatic || decl.kind == .constructor

/-- The methods of a class bound one after the other; of two with one signature the later stands. -/
def bindMethods (engine : Engine H) : ClassObject → List MethodDecl → Run H ClassObject
  | c, [] => return c
  | c, decl :: rest => do
    let m ← bindMethod engine c.moduleName c.name decl
    let c :=
      if decl.onClass then { c with statics := c.statics.set decl.signature m }
      else { c with methods := c.methods.set decl.signature m }
    bindMethods engine c rest

/-- The binding of a class; a foreign one needs an allocator. -/
def bindClass (engine : Engine H) (moduleName : String) (decl : ClassDecl) :
    Run H ForeignBinding := do
  if decl.isForeign then
    match ← modifyGet (·.onHost (engine.callbacks.bindClass moduleName decl.name)) with
    | .error message => throwThe Halt (.panic message)
    | .ok binding =>
      if binding.allocate.isNone then fault (.unknownForeignClass decl.name moduleName)
      else return binding
  else return .none

/-- A class declaration run: the new class object, which nothing refers to yet. -/
def defineClass (engine : Engine H) (moduleName : String) (decl : ClassDecl) : Run H ClassId := do
  let binding ← bindClass engine moduleName decl
  let c ← bindMethods engine ⟨decl.name, moduleName, decl.isForeign, [], [], binding⟩ decl.methods
  modifyGet (·.onHeap (·.addClass c))

/-- Variables of one module set to those of another. -/
def copyNames (source into : String) : List String → Run H Unit
  | [] => return ()
  | name :: rest => do
    match (← get).vm.binding? source name with
    | some v =>
      modify fun m => m.onVm (·.define into name v)
      copyNames source into rest
    | none => fault (.variableNotExported name source)

/-- An import: the module is loaded at its first use. -/
def importNames (engine : Engine H) (source into : String) (names : List String) :
    Run H Unit := do
  unless (← get).vm.hasModule source do
    let _ ← engine.perform (.load source)
  copyNames source into names

/-! Control flow. -/

/-- A body that has a scope of its own, unless it is a block, which makes one. -/
def branch (body : Stmt) (run : Script H Flow) : Script H Flow :=
  if body.isBlock then run else Script.inScope [] run

/-- A loop of at most so many turns. -/
def repeatWhile (condition : Script H Value) (body : Script H Flow) : Nat → Script H Flow
  | 0 => throwThe Halt .exhausted
  | turns + 1 => do
    if (← condition).isTrue then
      match ← body with
      | .normal => repeatWhile condition body turns
      | .broken => return .normal
      | .returned v => return .returned v
    else return .normal

/-- A loop over values, each in a scope with its name. -/
def forEach (name : String) (body : Script H Flow) : List Value → Script H Flow
  | [] => return .normal
  | v :: rest => do
    match ← Script.inScope [(name, v)] body with
    | .normal => forEach name body rest
    | .broken => return .normal
    | .returned v => return .returned v

/-- The elements of a list as they are now. -/
def elementsOf (v : Value) : Script H (List Value) := do
  match v with
  | .list id => return ((← getThe (Machine H)).heap.list id).toList
  | _ => fault .notIterable

def markLine (s : Stmt) : Script H Unit :=
  match s.line? with
  | some line => modifyThe Frame fun f => { f with line }
  | none => return ()

mutual

def exec (engine : Engine H) (s : Stmt) : Script H Flow := do
  markLine s
  match s with
  | .expr e =>
    let _ ← eval engine e
    return .normal
  | .var _ name init =>
    match init with
    | some e => Script.declare name (← eval engine e)
    | none => Script.declare name .null
    return .normal
  | .ifElse condition thenBranch elseBranch =>
    if (← eval engine condition).isTrue then branch thenBranch (exec engine thenBranch)
    else match elseBranch with
      | some other => branch other (exec engine other)
      | none => return .normal
  | .whileLoop condition body =>
    repeatWhile (eval engine condition) (branch body (exec engine body)) engine.limit
  | .forLoop name sequence body =>
    forEach name (exec engine body) (← elementsOf (← eval engine sequence))
  | .block body => Script.inScope [] (execAll engine body)
  | .returnValue _ value =>
    match value with
    | some e => return .returned (← eval engine e)
    | none => return .returned .null
  | .breakLoop _ => return .broken
  | .classDecl decl =>
    let id ← Script.ofRun (defineClass engine (← getThe Frame).moduleName decl)
    Script.declare decl.name (.classObject id)
    return .normal
  | .importNames _ source names =>
    Script.ofRun (importNames engine source (← getThe Frame).moduleName names)
    return .normal

def execAll (engine : Engine H) : List Stmt → Script H Flow
  | [] => return .normal
  | s :: rest => do
    match ← exec engine s with
    | .normal => execAll engine rest
    | flow => return flow

end

end ScriptHost
