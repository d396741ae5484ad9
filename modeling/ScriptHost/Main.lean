import ScriptHost.Console.Imports
import ScriptHost.Console.Prompt
/-! The program at the system's terminal. The files that a script may import are read before it
runs; everything else that is shown is decided by `Console`. -/

namespace ScriptHost.Console

/-- The contents of paths read so far. -/
abbrev Contents := Table (Except FileFault (List UInt8))

def filesOf (contents : Contents) : Files := fun path =>
  (contents.get? path).getD (.error .missing)

/-- Why the system gives no contents for a path. -/
def faultOf : IO.Error → FileFault
  | .noFileOrDirectory .. => .missing
  | .inappropriateType _ 20 _ => .notDirectory
  | _ => .isDirectory

def readPath (path : String) : IO (Except FileFault (List UInt8)) := do
  try
    return .ok (← IO.FS.readBinFile path).toList
  catch e => return .error (faultOf e)

/-- Paths read anew, and then the files that the scripts in them import. -/
partial def readAll (directory : Option String) (contents : Contents) :
    List String → IO Contents
  | [] => return contents
  | path :: rest => do
    let contents := contents.set path (← readPath path)
    let found := match (filesOf contents).readText path with
      | .ok source => importPaths directory source
      | .error _ => []
    readAll directory contents ((found.filter fun p => !contents.has p) ++ rest)

def write (chunk : Chunk) : IO Unit := do
  let stream ← match chunk.channel with
    | .out => IO.getStdout
    | .err => IO.getStderr
  stream.putStr chunk.text
  stream.flush

/-- The bytes of the next line of the input, with its end; nothing at the end of the input. -/
partial def readLine (input : IO.FS.Stream) (line : List UInt8) : IO (List UInt8) := do
  match (← input.read 1).toList with
  | [] => return line.reverse
  | b :: _ => if b = 10 then return (b :: line).reverse else readLine input (b :: line)

/-- Lines read and run until one ends the session or the input ends: the exit code. -/
partial def converse (directory : Option String) (p : Program) : IO Nat := do
  write prompt
  match ← readLine (← IO.getStdin) [] with
  | [] => return 0
  | bytes =>
    let paths := match lineText? bytes with
      | some source => importPaths directory source
      | none => []
    let contents ← readAll directory [] paths
    let shown := runLine { p with files := filesOf contents } bytes
    shown.log.forM write
    match shown.exit with
    | some code => return code
    | none => converse directory shown.program

/-- Scripts run in order: the exit code, or the machine that they leave. -/
def runScripts (directory : Option String) (p : Program) : List String → IO (Except Nat Program)
  | [] => return .ok p
  | file :: rest => do
    let contents ← readAll directory [] [file]
    let shown := runFile { p with files := filesOf contents } file
    shown.log.forM write
    match shown.exit with
    | some code => return .error code
    | none => runScripts directory shown.program rest

def session (o : Options) : IO Nat := do
  match ← runScripts o.directory (start o fun _ => .error .missing) o.files with
  | .error code => return code
  | .ok p =>
    if o.prompts then
      greeting.forM write
      converse o.directory p
    else return 0

end ScriptHost.Console

open ScriptHost Console in
def main (args : List String) : IO UInt32 := do
  match Options.ofArguments args with
  | .ok o => return (← session o).toUInt32
  | .error u =>
    let shown := usage u
    shown.log.forM write
    return shown.exit.toUInt32
