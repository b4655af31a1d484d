/-!
What can go wrong around the analyses, which themselves never fail: reading settings, finding
documents and running the linter.
-/

namespace RubyLens

inductive Failure where
  | config (message : String)
  | documentNotFound (uri : String)
  | externalTool (tool message : String)
  /-- A tool did not finish in the given number of microseconds. -/
  | timeout (tool : String) (micros : Nat)
  | io (message : String)
  | json (message : String)
  | internal (message : String)
deriving DecidableEq, Repr

namespace Failure

/-- The failure as the user reads it. A time is given in whole milliseconds. -/
def message : Failure → String
  | config m => "Invalid configuration: " ++ m
  | documentNotFound uri => "Document not found: " ++ uri
  | externalTool tool m => tool ++ " failed: " ++ m
  | timeout tool micros => tool ++ " timed out after " ++ toString (micros / 1000) ++ "ms"
  | io m => "IO error: " ++ m
  | json m => "JSON error: " ++ m
  | internal m => "Internal error: " ++ m

end Failure

end RubyLens
