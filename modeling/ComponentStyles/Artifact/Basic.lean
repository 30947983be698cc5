import ComponentStyles.Bytes.Blake3
import ComponentStyles.Bytes.Hex
import ComponentStyles.Name

/-!
Artifacts: compiled stylesheets with the file they belong to.
-/

namespace ComponentStyles

/-- Where an artifact's stylesheet came from.  A separate file knows the documents that refer
to it, in the order of their references. -/
inductive ArtifactOrigin where
  | inlined
  | external (firstUser : FileId) (otherUsers : List FileId)
  | defaults
  deriving DecidableEq, Repr

structure Artifact where
  file : FileId
  data : List UInt8
  origin : ArtifactOrigin
  deriving DecidableEq, Repr

def ArtifactOrigin.kindName : ArtifactOrigin → String
  | inlined => "inline"
  | external _ _ => "external"
  | defaults => "defaults"

def ArtifactOrigin.users : ArtifactOrigin → List FileId
  | external firstUser otherUsers => firstUser :: otherUsers
  | _ => []

namespace Artifact

def inlined (file : FileId) (data : List UInt8) : Artifact :=
  { file, data, origin := .inlined }

def external (file : FileId) (data : List UInt8) (firstUser : FileId) : Artifact :=
  { file, data, origin := .external firstUser [] }

def defaults (file : FileId) (data : List UInt8) : Artifact :=
  { file, data, origin := .defaults }

def users (artifact : Artifact) : List FileId :=
  artifact.origin.users

def isExternal (artifact : Artifact) : Bool :=
  match artifact.origin with
  | .external _ _ => true
  | _ => false

/-- Adds a referring document, and tells whether it was new.  Only a separate file has any. -/
def addUser (artifact : Artifact) (user : FileId) : Bool × Artifact :=
  match artifact.origin with
  | .external firstUser otherUsers =>
      if (firstUser :: otherUsers).contains user then (false, artifact)
      else (true, { artifact with origin := .external firstUser (otherUsers ++ [user]) })
  | _ => (false, artifact)

def digest (artifact : Artifact) : String :=
  Bytes.hexText (Bytes.Blake3.digest artifact.data)

end Artifact

end ComponentStyles
