import ScriptHost.Boundary.Fault
import ScriptHost.Machine.Table
import ScriptHost.Text.Utf8
/-! Files: how paths are joined, and what a tree of files gives for a path. -/

namespace ScriptHost

/-- What each path leads to: the bytes of a file, or why there are none. -/
abbrev Files := String → Except FileFault (List UInt8)

namespace Files

/-- The text of a file. -/
def readText (files : Files) (path : String) : Except FileFault String := do
  let bytes ← files path
  match Utf8.decode? bytes with
  | some text => .ok text
  | none => .error .notText

end Files

/-- A path taken from a directory; an absolute one stands for itself. -/
def joinPath (directory path : String) : String :=
  if path.startsWith '/' || directory.isEmpty then path
  else if directory.endsWith '/' then directory ++ path
  else directory ++ "/" ++ path

/-- The parts of a path between its slashes. -/
def pathParts (path : String) : List String := (path.toList.splitOn '/').map String.ofList

/-- The parts of a path that name something: not those of slashes that close or double, and not the
dots that name the directory itself. -/
def namedParts (path : String) : List String :=
  (pathParts path).filter fun p => p != "" && p != "."

/-- The directory that a path is in: the path without its last named part. A dot at the start counts
as one. -/
def parentPath? (path : String) : Option String :=
  let absolute := path.startsWith '/'
  let dotted := !absolute && (pathParts path).head? == some "."
  let named := if dotted then "." :: namedParts path else namedParts path
  if named.isEmpty then none
  else some ((if absolute then "/" else "") ++ String.intercalate "/" named.dropLast)

/-- What is left of the parts of a path behind some named ones that they have to start with. -/
def partsBehind? : List String → List String → Option (List String)
  | [], parts => some parts
  | _ :: _, [] => none
  | name :: names, part :: parts =>
    if part == "" || part == "." then partsBehind? (name :: names) parts
    else if part == name then partsBehind? names parts
    else none

/-- The name that the system has for the directory that a process works in. -/
def workingDirectory : List String := ["proc", "self", "cwd"]

/-- Files as a process sees them that works in their directory: a path from the root of the system
may come to them by the system's name for that directory. -/
def Files.atWork (files : Files) : Files := fun path =>
  if path.startsWith '/' then
    match partsBehind? workingDirectory (pathParts path) with
    | some parts => files (String.intercalate "/" ("." :: parts))
    | none => files path
  else files path

/-- A file, or a directory with its entries. -/
inductive FileTree where
  | file (bytes : List UInt8)
  | directory (entries : List (String × FileTree))

namespace FileTree

def empty : FileTree := .directory []

/-- Follow the parts of a path from a tree; `above` are the directories that it is in, the innermost
first. Outside of the tree there are only empty directories. -/
def follow : List FileTree → FileTree → List String → Except FileFault FileTree
  | _, t, [] => .ok t
  | above, t, part :: rest =>
    match t with
    | file _ => .error .notDirectory
    | directory entries =>
      if part == "" || part == "." then follow above t rest
      else if part == ".." then
        match above with
        | [] => follow [] .empty rest
        | outer :: above => follow above outer rest
      else
        match entries.lookup part with
        | some inner => follow (t :: above) inner rest
        | none => .error .missing

/-- The contents of a tree as files. A path from the root of the system leads out of it. -/
def files (t : FileTree) : Files := fun path =>
  match follow [] (if path.startsWith '/' then .empty else t) (pathParts path) with
  | .ok (.file bytes) => .ok bytes
  | .ok (.directory _) => .error .isDirectory
  | .error f => .error f

/-- The entries of a directory; a file has none. -/
def entries : FileTree → List (String × FileTree)
  | file _ => []
  | directory entries => entries

/-- A tree with a subtree put at the end of some parts, the directories on the way made. -/
def insert (t : FileTree) (parts : List String) (sub : FileTree) : FileTree :=
  match parts with
  | [] =>
    match t, sub with
    | directory entries, directory [] => .directory entries
    | _, _ => sub
  | part :: rest =>
    let inner := (t.entries.lookup part).getD .empty
    .directory ((part, inner.insert rest sub) :: t.entries.filter fun e => e.1 != part)

/-- The tree of some paths, each with the bytes of a file or, for a directory, nothing. -/
def ofPaths (paths : List (String × Option (List UInt8))) : FileTree :=
  paths.foldl (fun t (path, bytes?) =>
    t.insert (namedParts path)
      (match bytes? with
        | some bytes => .file bytes
        | none => .empty)) .empty

end FileTree
end ScriptHost
