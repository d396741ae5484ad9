import ScriptHost.Source.Fault
/-! What can go wrong while a script runs, and how it is reported. -/

namespace ScriptHost

/-- Why a run stopped. -/
inductive RuntimeFault where
  | undefinedVariable (name : String)
  | thisOutsideMethod
  | readField (name : String)
  | writeField (name : String)
  | notIterable
  | tooDeep
  | constructorOnObject
  | missingStatic (className signature : String)
  | missingMethod (className signature : String)
  | noAllocator (className : String)
  | nothingAllocated (className : String)
  | unknownForeignClass (className moduleName : String)
  | unknownForeignMethod (signature className moduleName : String)
  | moduleNotLoaded (name : String)
  | moduleNotCompiled (name : String)
  | variableNotExported (name moduleName : String)
  | operandNotNumber
  | operandNotString
  | argumentNotString
  | missingArgument
  | subscriptNotNumber
  | subscriptNotInteger
  | subscriptOutOfBounds
  | tooFewSlots (signature : String) (needed : Nat)
  /-- A host function stopped the run. -/
  | aborted (message : String)
deriving Repr, DecidableEq

def RuntimeFault.message : RuntimeFault → String
  | undefinedVariable name => "Variable '" ++ name ++ "' is not defined."
  | thisOutsideMethod => "Cannot use 'this' outside of a method."
  | readField name => "Cannot read field '" ++ name ++ "' outside of an instance method."
  | writeField name => "Cannot write field '" ++ name ++ "' outside of an instance method."
  | notIterable => "Only lists can be iterated."
  | tooDeep => "Stack overflow."
  | constructorOnObject => "Constructor called on a non-class."
  | missingStatic className signature =>
    className ++ " metaclass does not implement '" ++ signature ++ "'."
  | missingMethod className signature =>
    className ++ " does not implement '" ++ signature ++ "'."
  | noAllocator className => "Foreign class " ++ className ++ " has no allocator."
  | nothingAllocated className =>
    "Allocator for foreign class " ++ className ++ " did not create an object."
  | unknownForeignClass className moduleName =>
    "Could not find foreign class '" ++ className ++ "' in module '" ++ moduleName ++ "'."
  | unknownForeignMethod signature className moduleName =>
    "Could not find foreign method '" ++ signature ++ "' for class " ++ className ++
      " in module '" ++ moduleName ++ "'."
  | moduleNotLoaded name => "Could not load module '" ++ name ++ "'."
  | moduleNotCompiled name => "Could not compile module '" ++ name ++ "'."
  | variableNotExported name moduleName =>
    "Could not find a variable named '" ++ name ++ "' in module '" ++ moduleName ++ "'."
  | operandNotNumber => "Right operand must be a number."
  | operandNotString => "Right operand must be a string."
  | argumentNotString => "Argument must be a string."
  | missingArgument => "Missing argument."
  | subscriptNotNumber => "Subscript must be a number."
  | subscriptNotInteger => "Subscript must be an integer."
  | subscriptOutOfBounds => "Subscript out of bounds."
  | tooFewSlots signature needed =>
    "Calling '" ++ signature ++ "' needs " ++ needed.repr ++ " slots."
  | aborted message => message

/-- An activation that a fault passed through: its module, the line it was at, and its name. -/
structure TraceEntry where
  moduleName : String
  line : Nat
  function : String
deriving Repr, DecidableEq

/-- A fault with the activations it passed through, the innermost first. -/
structure RuntimeError where
  fault : RuntimeFault
  trace : List TraceEntry
deriving Repr, DecidableEq

namespace RuntimeError

def message (e : RuntimeError) : String := e.fault.message

/-- The error after it left one more activation. -/
def leave (e : RuntimeError) (entry : TraceEntry) : RuntimeError :=
  { e with trace := e.trace ++ [entry] }

end RuntimeError

/-- Why a script or a call gave no result. -/
inductive InterpretError where
  | compile (errors : List SyntaxError)
  | runtime (e : RuntimeError)
deriving Repr, DecidableEq

def InterpretError.text : InterpretError → String
  | compile [] => "compile error"
  | compile (first :: _) => "compile error: " ++ first.text
  | runtime e => "runtime error: " ++ e.message

inductive ReportKind where
  | compile
  | runtime
  /-- One activation of the trace that follows a runtime error. -/
  | trace
deriving Repr, DecidableEq

/-- One line of what the host is told about an error. -/
structure Report where
  kind : ReportKind
  moduleName : String
  line : Nat
  message : String
deriving Repr, DecidableEq

/-- The report of a syntax error in a module. -/
def SyntaxError.report (e : SyntaxError) (moduleName : String) : Report :=
  ⟨.compile, moduleName, e.line, e.message⟩

/-- The reports of a runtime error: its message, then its trace. -/
def RuntimeError.reports (e : RuntimeError) : List Report :=
  ⟨.runtime, "", 0, e.message⟩ :: e.trace.map fun t => ⟨.trace, t.moduleName, t.line, t.function⟩

end ScriptHost
