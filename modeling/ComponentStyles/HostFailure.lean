/-!
Failures of the host: what the project, its compiler or its executor cannot do, and what is wrong
with the fixture it is read from.
-/

namespace ComponentStyles

inductive HostFailure where
  | unknownModule (name : String)
  | stylesheet (file : String) (reason : String)
  | executorStopped
  | fixture (reason : String)
  | unreadable (reason : String)
  | malformed (reason : String)
  deriving DecidableEq, Repr

def HostFailure.message : HostFailure → String
  | unknownModule name => "unknown module: " ++ name
  | stylesheet file reason => "failed to compile stylesheet '" ++ file ++ "': " ++ reason
  | executorStopped => "serialized execution context is not running"
  | fixture reason => "invalid fixture: " ++ reason
  | unreadable reason => "host I/O error: " ++ reason
  | malformed reason => "failed to parse fixture: " ++ reason

end ComponentStyles
