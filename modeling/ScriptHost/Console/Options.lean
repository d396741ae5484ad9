import ScriptHost.Program.FileTree
/-! The arguments of the command line. -/

namespace ScriptHost

structure Options where
  /-- The scripts to run, in order. -/
  files : List String
  /-- Where imports are looked for, if it is said. -/
  modulesDir : Option String
  /-- Whether to prompt even after files. -/
  repl : Bool
deriving Repr, DecidableEq

/-- Why no script is run. -/
inductive Usage where
  | help
  | version
  | mistake
deriving Repr, DecidableEq

namespace Options

def none : Options := ⟨[], .none, false⟩

def addFile (o : Options) (file : String) : Except Usage Options :=
  if file.isEmpty then .error .mistake else .ok { o with files := o.files ++ [file] }

def addFiles (o : Options) : List String → Except Usage Options
  | [] => .ok o
  | file :: rest => do (← o.addFile file).addFiles rest

/-- An option that may be given once. -/
def setModulesDir (o : Options) (directory : String) : Except Usage Options :=
  if directory.isEmpty || o.modulesDir.isSome then .error .mistake
  else .ok { o with modulesDir := some directory }

def setRepl (o : Options) : Except Usage Options :=
  if o.repl then .error .mistake else .ok { o with repl := true }

/-- Whether an argument looks like an option; a single dash does not. -/
def isFlag (arg : String) : Bool := arg.startsWith "-" && arg != "-"

/-- Options and files in any order; after two dashes there are only files. -/
def add (o : Options) : List String → Except Usage Options
  | [] => .ok o
  | "--" :: rest => o.addFiles rest
  | "--repl" :: rest => do (← o.setRepl).add rest
  | "--modules-dir" :: directory :: rest => do
    if isFlag directory then .error .mistake else (← o.setModulesDir directory).add rest
  | arg :: rest => do
    if arg.startsWith "--modules-dir=" then
      (← o.setModulesDir (arg.drop "--modules-dir=".length).toString).add rest
    else if arg = "--help" || arg.startsWith "-h" then .error .help
    else if arg = "--version" || arg.startsWith "-V" then .error .version
    else if isFlag arg then .error .mistake
    else (← o.addFile arg).add rest

def ofArguments (args : List String) : Except Usage Options := none.add args

/-- Where imports are looked for: where it is said, else beside the first script. -/
def directory (o : Options) : Option String :=
  o.modulesDir.or (o.files.head?.bind parentPath?)

/-- Whether to prompt: also when there is nothing else to do. -/
def prompts (o : Options) : Bool := o.repl || o.files.isEmpty

end Options
end ScriptHost
