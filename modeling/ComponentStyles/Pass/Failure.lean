import ComponentStyles.HostFailure
import ComponentStyles.Problem.Basic
import ComponentStyles.Project.Basic
import ComponentStyles.Settings.Sdk

/-!
Failures of a pass.

Only an unusable property of an element is put down to its author and lets the pass go on; any
other failure ends it.
-/

namespace ComponentStyles

inductive PassFailure where
  | sdk (fault : InvalidSdkVersion)
  | host (failure : HostFailure)
  | property (invalid : InvalidProperty)
  | commitWait
  | severalFragments (count : Nat) (hosting : InjectionHost)
  | strayShreds (fragment : FileId) (count : Nat) (hosting : InjectionHost)
  deriving DecidableEq, Repr

def PassFailure.message : PassFailure → String
  | sdk fault => "schema error: " ++ fault.message
  | host failure => "host error: " ++ failure.message
  | property invalid => "invalid style property: " ++ invalid.text
  | commitWait => "cannot wait for pending commits while holding read access"
  | severalFragments count hosting =>
      "injection invariant violated: " ++ toString count ++ " fragments injected into element " ++
        toString hosting.element ++ " of " ++ hosting.file.path ++ ", expected one"
  | strayShreds fragment count hosting =>
      "injection invariant violated: fragment " ++ fragment.path ++ " has " ++ toString count ++
        " shreds not all hosted by element " ++ toString hosting.element ++ " of " ++
        hosting.file.path

end ComponentStyles
