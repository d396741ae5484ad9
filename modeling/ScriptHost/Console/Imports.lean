import ScriptHost.Program.Surroundings
import ScriptHost.Source.Tree.Statements
/-! The files that a script may ask for. A script names the modules that it imports, so its text
tells which files to read before it runs. -/

namespace ScriptHost

mutual

/-- The modules that a statement names, also inside classes. -/
def Stmt.imports : Stmt → List String
  | .importNames _ moduleName _ => [moduleName]
  | .ifElse _ thenBranch elseBranch => thenBranch.imports ++ importsOfOption elseBranch
  | .whileLoop _ body | .forLoop _ _ body => body.imports
  | .block body => importsOfAll body
  | .classDecl ⟨_, _, _, methods⟩ => importsOfMethods methods
  | .expr _ | .var .. | .returnValue .. | .breakLoop _ => []

def importsOfOption : Option Stmt → List String
  | none => []
  | some s => s.imports

def importsOfAll : List Stmt → List String
  | [] => []
  | s :: rest => s.imports ++ importsOfAll rest

def importsOfMethods : List MethodDecl → List String
  | [] => []
  | ⟨_, _, _, _, _, _, some body⟩ :: rest => importsOfAll body ++ importsOfMethods rest
  | ⟨_, _, _, _, _, _, none⟩ :: rest => importsOfMethods rest

end

/-- The modules that some source names; source that does not parse names none. -/
def importsOf (source : String) : List String :=
  match parseModule source with
  | .ok statements => importsOfAll statements
  | .error _ => []

/-- The paths that the imports of some source may be read from. -/
def importPaths (directory : Option String) (source : String) : List String :=
  match directory with
  | none => []
  | some directory =>
    ((importsOf source).filter fun name => !leadsOut name).flatMap (moduleCandidates directory)

end ScriptHost
