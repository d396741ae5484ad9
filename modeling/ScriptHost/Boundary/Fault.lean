/-! What can go wrong between a script and its host. -/

namespace ScriptHost

/-- Why a file could not be read as text. -/
inductive FileFault where
  | missing
  | isDirectory
  | notDirectory
  | notText
deriving Repr, DecidableEq

def FileFault.message : FileFault → String
  | missing => "No such file or directory (os error 2)"
  | isDirectory => "Is a directory (os error 21)"
  | notDirectory => "Not a directory (os error 20)"
  | notText => "stream did not contain valid UTF-8"

inductive BoundaryFault where
  /-- All entry points are taken. -/
  | capacity (limit : Nat)
  | typeMismatch (slot : Nat) (expected found : String)
  /-- A value of a sort that never crosses. -/
  | unsupported (slot : Nat) (what : String)
  | inaccessible (slot : Nat)
  | missingArgument (slot : Nat)
  /-- A foreign member that nobody registered. -/
  | unresolved (signature : String)
  /-- A foreign member declared outside the entry module. -/
  | untrusted (moduleName member : String)
  /-- A host function failed with a text of its own. -/
  | failed (text : String)
  | compile
  | runtime (message : String)
  | file (fault : FileFault)
deriving Repr, DecidableEq

def BoundaryFault.message : BoundaryFault → String
  | capacity limit => "maximum function registration reached (" ++ limit.repr ++ ")"
  | typeMismatch slot expected found =>
    "slot " ++ slot.repr ++ ": expected " ++ expected ++ ", found " ++ found
  | unsupported slot what =>
    "slot " ++ slot.repr ++ ": " ++ what ++ " values cannot cross the bridge"
  | inaccessible slot => "slot " ++ slot.repr ++ ": value is not accessible from the host"
  | missingArgument slot => "slot " ++ slot.repr ++ ": missing argument"
  | unresolved signature => "no foreign member registered for '" ++ signature ++ "'"
  | untrusted moduleName member =>
    "module '" ++ moduleName ++ "' may not bind foreign member '" ++ member ++ "'"
  | failed text => "host function failed: " ++ text
  | compile => "compilation error"
  | runtime message => "runtime error: " ++ message
  | file fault => fault.message

end ScriptHost
