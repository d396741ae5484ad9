/-! Signatures: the texts by which methods are declared, called and bound. -/

namespace ScriptHost

/-- The signature of a call: the name of a getter alone, else the name and a hole per argument. -/
def callSignature (name : String) (arity : Option Nat) : String :=
  match arity with
  | none => name
  | some n => name ++ "(" ++ String.intercalate "," (List.replicate n "_") ++ ")"

/-- The key of a host method: its class and signature, marked when it is static. -/
def canonicalSignature (className : String) (isStatic : Bool) (signature : String) : String :=
  (if isStatic then "static " else "") ++ className ++ "." ++ signature

/-- How many arguments a signature takes: the holes after its first bracket. -/
def signatureArity (signature : String) : Nat :=
  (signature.toList.dropWhile fun c => c != '(' && c != '[').count '_'

end ScriptHost
