import ScriptHost.Machine.Engine
/-! Expressions evaluated inside an activation. Operands go from left to right; every operator and
call is a message to its first operand. -/

namespace ScriptHost

variable {H : Type}

namespace Script

def send (engine : Engine H) (receiver : Value) (signature : String) (args : List Value) :
    Script H Value :=
  ofRun (engine.send receiver signature args)

/-- A field of the instance that the running method was called on. -/
def readField (name : String) : Script H Value := do
  match (← getThe Frame).this with
  | some (.object id) => return (← getThe (Machine H)).heap.field id name
  | _ => fault (.readField name)

def writeField (name : String) (v : Value) : Script H Unit := do
  match (← getThe Frame).this with
  | some (.object id) => modifyThe (Machine H) (·.mapHeap (·.setField id name v))
  | _ => fault (.writeField name)

def assignTo : Target → Value → Script H Unit
  | .variable name, v => assign name v
  | .field name, v => writeField name v

/-- A new list. -/
def newList (items : List Value) : Script H Value := do
  let id ← modifyGetThe (Machine H) (·.onHeap (·.addList items.toArray))
  return .list id

end Script

open Script

mutual

def eval (engine : Engine H) : Expr → Script H Value
  | .number _ x => return .number x
  | .string _ s => return .string s
  | .interpolation _ parts => return .string (← evalFragments engine parts)
  | .bool _ b => return .bool b
  | .null _ => return .null
  | .this _ => do
    match (← getThe Frame).this with
    | some v => return v
    | none => fault .thisOutsideMethod
  | .variable _ name => lookup name
  | .field _ name => readField name
  | .list _ elements => do newList (← evalAll engine elements)
  | .unary _ op operand => do send engine (← eval engine operand) op.text []
  | .binary _ op lhs rhs => do
    let a ← eval engine lhs
    let b ← eval engine rhs
    send engine a (callSignature op.text (some 1)) [b]
  | .logical _ op lhs rhs => do
    let a ← eval engine lhs
    match op, a.isTrue with
    | .and, false | .or, true => return a
    | _, _ => eval engine rhs
  | .assign _ target value => do
    let v ← eval engine value
    assignTo target v
    return v
  | .getter _ receiver name => do send engine (← eval engine receiver) (callSignature name none) []
  | .call _ receiver name args => do
    let object ← eval engine receiver
    let values ← evalAll engine args
    send engine object (callSignature name (some args.length)) values
  | .subscript _ receiver index => do
    let object ← eval engine receiver
    let i ← eval engine index
    send engine object "[_]" [i]

def evalAll (engine : Engine H) : List Expr → Script H (List Value)
  | [] => return []
  | e :: rest => do
    let v ← eval engine e
    return v :: (← evalAll engine rest)

/-- The text of an interpolated string. -/
def evalFragments (engine : Engine H) : List Fragment → Script H String
  | [] => return ""
  | .literal text :: rest => return text ++ (← evalFragments engine rest)
  | .code e :: rest => do
    let v ← eval engine e
    let text ← ofRun (engine.textOf v)
    return text ++ (← evalFragments engine rest)

end

end ScriptHost
