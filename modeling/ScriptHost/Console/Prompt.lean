import ScriptHost.Console.Options
import ScriptHost.Program.Session
import ScriptHost.Text.Blank
/-! The command line: scripts run one after the other on one machine, then a prompt that runs each
line. Reading and printing are left to the caller; `run` is the whole of it on given input. -/

namespace ScriptHost

namespace Console

/-- What one action of the command line shows, and the exit code if it is the last. -/
structure Shown where
  log : List Chunk
  exit : Option Nat
  program : Program

/-- The name of the one machine. -/
def machineName : String := "main"

def start (o : Options) (files : Files) : Program :=
  (Program.start files).addMachine machineName o.directory

def line (channel : Channel) (text : String) : Chunk := ⟨channel, text ++ "\n"⟩

/-- What is said of a fault. The words of scripts and of their syntax were reported when they
stopped. -/
def complaint (opening : String) : BoundaryFault → List Chunk
  | .compile | .runtime _ => []
  | f => [line .err (opening ++ ": " ++ f.message)]

/-- The exit code of a panic. -/
def panicExit : Nat := 101

/-- A script run from its file. The first fault is the last action. -/
def runFile (p : Program) (file : String) : Shown :=
  let (report, p) := p.step (.on machineName (.interpretFile file))
  match report.result with
  | .fault f => ⟨report.log ++ complaint ("Error executing " ++ file) f, some 1, p⟩
  | .panic message => ⟨report.log ++ [line .err message], some panicExit, p⟩
  | _ => ⟨report.log, none, p⟩

def greeting : List Chunk := [line .out "Wren REPL", line .out "Type 'exit' to quit."]

def prompt : Chunk := ⟨.out, "> "⟩

/-- What a line says, without the blanks around it; `none` if it is not text. -/
def lineText? (bytes : List UInt8) : Option String := (Utf8.decode? bytes).map Text.trimmed

/-- A line of the prompt. -/
def runLine (p : Program) (bytes : List UInt8) : Shown :=
  match lineText? bytes with
  | none => ⟨[line .err ("Error reading input: " ++ FileFault.notText.message)], some 0, p⟩
  | some source =>
    if source = "exit" then ⟨[], some 0, p⟩
    else if source.isEmpty then ⟨[], none, p⟩
    else
      let (report, p) := p.step (.on machineName (.interpret source))
      match report.result with
      | .fault f => ⟨report.log ++ complaint "Error" f, none, p⟩
      | .panic message => ⟨report.log ++ [line .err message], some panicExit, p⟩
      | _ => ⟨report.log, none, p⟩

/-! The whole command line. -/

/-- What a run wrote, and its exit code. -/
structure Finished where
  log : List Chunk
  exit : Nat

def runFiles : Program → List String → Shown
  | p, [] => ⟨[], none, p⟩
  | p, file :: rest =>
    let shown := runFile p file
    match shown.exit with
    | some _ => shown
    | none =>
      let later := runFiles shown.program rest
      { later with log := shown.log ++ later.log }

/-- A prompt before each line; it also stands before the end of the input. -/
def runLines : Program → List (List UInt8) → Finished
  | _, [] => ⟨[prompt], 0⟩
  | p, bytes :: rest =>
    let shown := runLine p bytes
    match shown.exit with
    | some code => ⟨prompt :: shown.log, code⟩
    | none =>
      let later := runLines shown.program rest
      { later with log := prompt :: shown.log ++ later.log }

/-- The lines of some input, with their ends. -/
def linesOf : List UInt8 → List (List UInt8)
  | [] => []
  | b :: rest =>
    if b = 10 then [b] :: linesOf rest
    else match linesOf rest with
      | [] => [[b]]
      | l :: ls => (b :: l) :: ls

/-- What a command line that runs nothing shows, and its exit code. -/
def usage : Usage → Finished
  | .help => ⟨[line .out "Usage: [--modules-dir DIR] [--repl] [FILES]..."], 0⟩
  | .version => ⟨[line .out "0.1.0"], 0⟩
  | .mistake => ⟨[line .err "error: Usage: [--modules-dir DIR] [--repl] [FILES]..."], 2⟩

/-- The whole command line in a directory with some files. -/
def run (args : List String) (files : Files) (input : List UInt8) : Finished :=
  match Options.ofArguments args with
  | .error u => usage u
  | .ok o =>
    let shown := runFiles (start o files.atWork) o.files
    match shown.exit with
    | some code => ⟨shown.log, code⟩
    | none =>
      if o.prompts then
        let later := runLines shown.program (linesOf input)
        { later with log := shown.log ++ greeting ++ later.log }
      else ⟨shown.log, 0⟩

/-- All the text of one channel. -/
def Finished.text (f : Finished) (channel : Channel) : String :=
  String.join ((f.log.filter fun c => c.channel = channel).map (·.text))

end Console
end ScriptHost
