import ComponentStyles.Artifact.Basic
import ComponentStyles.Table

/-!
The artifacts of one pass.

Artifacts keep the order in which they were made, and a handle is a position in that order.
Stylesheets of their own are found again by the identity of their file, so each is made once.
-/

namespace ComponentStyles

structure ArtifactStore where
  artifacts : Array Artifact
  index : Table FileId Nat
  deriving Repr

inductive Lookup where
  | created (handle : Nat)
  | existing (handle : Nat)
  deriving DecidableEq, Repr

def Lookup.handle : Lookup → Nat
  | created handle => handle
  | existing handle => handle

namespace ArtifactStore

def empty : ArtifactStore :=
  { artifacts := #[], index := [] }

def size (store : ArtifactStore) : Nat :=
  store.artifacts.size

def push (store : ArtifactStore) (artifact : Artifact) : Nat × ArtifactStore :=
  (store.size, { store with artifacts := store.artifacts.push artifact })

def pushUnder (store : ArtifactStore) (identity : FileId) (artifact : Artifact) :
    Nat × ArtifactStore :=
  let pushed := store.push artifact
  (pushed.1, { pushed.2 with index := pushed.2.index.put identity pushed.1 })

/-- The artifact of an identity; only if there is none, `create` makes it.  A creation that
fails leaves the store as it was. -/
def lookupOrCreate {σ ε : Type} (store : ArtifactStore) (identity : FileId)
    (create : σ → Except ε Artifact × σ) (state : σ) : Except ε Lookup × ArtifactStore × σ :=
  match store.index.get? identity with
  | some handle => (.ok (.existing handle), store, state)
  | none =>
      match create state with
      | (.ok artifact, after) =>
          let pushed := store.pushUnder identity artifact
          (.ok (.created pushed.1), pushed.2, after)
      | (.error failure, after) => (.error failure, store, after)

def artifact? (store : ArtifactStore) (handle : Nat) : Option Artifact :=
  store.artifacts[handle]?

def get? (store : ArtifactStore) (identity : FileId) : Option Artifact :=
  (store.index.get? identity).bind store.artifact?

def addUser (store : ArtifactStore) (handle : Nat) (user : FileId) : Bool × ArtifactStore :=
  match store.artifact? handle with
  | some artifact =>
      let added := artifact.addUser user
      (added.1, { store with artifacts := store.artifacts.setIfInBounds handle added.2 })
  | none => (false, store)

end ArtifactStore

end ComponentStyles
