import ComponentStyles.Proofs.Artifact.Store
import ComponentStyles.Proofs.Pass.Demand

/-!
One artifact per identity, through any sequence of resolved tags.

The calls may differ in everything: the project, the compiler, the module and the document.  The
main statement follows the store of one sequence of calls, before, at and behind any one of them.
-/

namespace ComponentStyles

variable {σ : Type}

inductive StoreStep (user : FileId) (before : ArtifactStore) :
    Except PassFailure (Option Nat) → ArtifactStore → Prop where
  | failed (failure : PassFailure) : StoreStep user before (.error failure) before
  | idle : StoreStep user before (.ok none) before
  | inlined (file : FileId) (data : List UInt8) :
      StoreStep user before (.ok (some before.size)) (before.push (.inlined file data)).2
  | made (identity : FileId) (data : List UInt8)
      (absent : before.index.get? identity = none) :
      StoreStep user before (.ok (some before.size))
        (before.pushUnder identity (.external identity data user)).2
  | referred (identity : FileId) (handle : Nat)
      (present : before.index.get? identity = some handle) :
      StoreStep user before (.ok none) (before.addUser handle user).2

theorem ResolutionContext.resolve_storeStep (context : ResolutionContext σ) (site : StyleSite)
    (resolution : Resolution σ) :
    StoreStep site.document.file resolution.store
      (context.resolve site.document site.tag resolution).1
      (context.resolve site.document site.tag resolution).2.store := by
  rw [context.resolve_eq site resolution]
  cases context.demand site with
  | nothing => exact .idle
  | unusable invalid => exact .failed (.property invalid)
  | broken failure => exact .failed failure
  | shared sheet =>
      simp only [resolveShared]
      cases present : resolution.store.index.get? sheet.file with
      | some handle => exact .referred sheet.file handle present
      | none =>
          cases context.compiler.compile sheet context.module resolution.compilerState with
          | mk reply after =>
              cases reply with
              | ok data => exact .made sheet.file data present
              | error failure => exact .failed (site.compileFailure failure)
  | embedded sheet =>
      simp only [resolveEmbedded]
      cases context.compiler.compile sheet context.module resolution.compilerState with
      | mk reply after =>
          cases reply with
          | ok data => exact .inlined (Project.hostingFile sheet) data
          | error failure => exact .failed (site.compileFailure failure)

theorem StoreStep.consistent {user : FileId} {before after : ArtifactStore}
    {answer : Except PassFailure (Option Nat)} (step : StoreStep user before answer after)
    (consistent : before.Consistent) : after.Consistent := by
  cases step with
  | failed failure => exact consistent
  | idle => exact consistent
  | inlined file data => exact consistent.push_inlined file data
  | made identity data absent => exact consistent.pushUnder_external absent data user
  | referred identity handle present => exact consistent.addUser present user

theorem StoreStep.growsTo {user : FileId} {before after : ArtifactStore}
    {answer : Except PassFailure (Option Nat)} (step : StoreStep user before answer after)
    (consistent : before.Consistent) : before.GrowsTo after := by
  cases step with
  | failed failure => exact ArtifactStore.GrowsTo.refl before
  | idle => exact ArtifactStore.GrowsTo.refl before
  | inlined file data => exact before.growsTo_push (.inlined file data)
  | made identity data absent => exact before.growsTo_push (.external identity data user)
  | referred identity handle present => exact consistent.growsTo_addUser present user

/-- The two stores differ in one artifact at most, which has one more user at its end. -/
def ArtifactStore.GainsAtMost (before : ArtifactStore) (user : FileId) (after : ArtifactStore) :
    Prop :=
  after = before ∨
    ∃ handle artifact grown,
      before.artifact? handle = some artifact ∧ artifact.isExternal = true ∧
        user ∉ artifact.users ∧
        grown.file = artifact.file ∧ grown.data = artifact.data ∧ grown.isExternal = true ∧
        grown.users = artifact.users ++ [user] ∧
        after = { before with artifacts := before.artifacts.setIfInBounds handle grown }

/-- What the store may be behind a call with the given answer. -/
def ArtifactStore.ChangesWith (before : ArtifactStore) (user : FileId)
    (answer : Except PassFailure (Option Nat)) (after : ArtifactStore) : Prop :=
  match answer with
  | .error _ => after = before
  | .ok (some handle) =>
      handle = before.size ∧ ∃ artifact, after.artifacts = before.artifacts.push artifact
  | .ok none => before.GainsAtMost user after

theorem ArtifactStore.Consistent.gainsAtMost_addUser {store : ArtifactStore}
    (consistent : store.Consistent) {identity : FileId} {handle : Nat}
    (present : store.index.get? identity = some handle) (user : FileId) :
    store.GainsAtMost user (store.addUser handle user).2 := by
  obtain ⟨artifact, found, external, _⟩ := consistent.backed identity handle present
  rw [ArtifactStore.addUser_eq found]
  by_cases known : user ∈ artifact.users
  · left
    rw [Artifact.addUser_of_mem known]
    obtain ⟨inside, same⟩ := Array.getElem?_eq_some_iff.mp found
    rw [← same, Array.setIfInBounds_def, dif_pos inside, Array.set_getElem_self]
  · right
    obtain ⟨file, data, stillExternal, users⟩ := Artifact.addUser_of_not_mem external known
    exact ⟨handle, artifact, (artifact.addUser user).2, found, external, known, file, data,
      stillExternal, users, rfl⟩

theorem StoreStep.changesWith {user : FileId} {before after : ArtifactStore}
    {answer : Except PassFailure (Option Nat)} (step : StoreStep user before answer after)
    (consistent : before.Consistent) : before.ChangesWith user answer after := by
  cases step with
  | failed failure => rfl
  | idle => exact Or.inl rfl
  | inlined file data => exact ⟨rfl, .inlined file data, rfl⟩
  | made identity data absent => exact ⟨rfl, .external identity data user, rfl⟩
  | referred identity handle present => exact consistent.gainsAtMost_addUser present user

structure StyleCall (σ : Type) where
  context : ResolutionContext σ
  site : StyleSite

namespace StyleCall

def run (call : StyleCall σ) (resolution : Resolution σ) :
    Except PassFailure (Option Nat) × Resolution σ :=
  call.context.resolve call.site.document call.site.tag resolution

def runAll (calls : List (StyleCall σ)) (resolution : Resolution σ) : Resolution σ :=
  calls.foldl (fun current call => (call.run current).2) resolution

theorem runAll_consistent (calls : List (StyleCall σ)) (resolution : Resolution σ)
    (consistent : resolution.store.Consistent) :
    (runAll calls resolution).store.Consistent := by
  induction calls generalizing resolution with
  | nil => exact consistent
  | cons call rest inductionHypothesis =>
      have step := call.context.resolve_storeStep call.site resolution
      exact inductionHypothesis (call.run resolution).2 (step.consistent consistent)

theorem runAll_growsTo (calls : List (StyleCall σ)) (resolution : Resolution σ)
    (consistent : resolution.store.Consistent) :
    resolution.store.GrowsTo (runAll calls resolution).store := by
  induction calls generalizing resolution with
  | nil => exact ArtifactStore.GrowsTo.refl resolution.store
  | cons call rest inductionHypothesis =>
      have step := call.context.resolve_storeStep call.site resolution
      have later := inductionHypothesis (call.run resolution).2 (step.consistent consistent)
      exact (step.growsTo consistent).trans later

end StyleCall

/-- After any calls there is one artifact at most for a file of its own, under that file in the
index; the artifacts of such files have users, all distinct, and no other artifact has any.
Later calls leave every artifact at its place and only add users at the end.  A call that fails
changes nothing, one that answers with a handle adds one artifact, and one that answers with none
adds its own document to the users of one artifact at most. -/
theorem one_artifact_per_identity (state : σ) (earlier later : List (StyleCall σ))
    (call : StyleCall σ) :
    let resolution := StyleCall.runAll earlier (.start state)
    let store := resolution.store
    (∀ left right leftArtifact rightArtifact,
      store.artifact? left = some leftArtifact → store.artifact? right = some rightArtifact →
      leftArtifact.isExternal = true → rightArtifact.isExternal = true →
      leftArtifact.file = rightArtifact.file → left = right) ∧
    (∀ handle artifact, store.artifact? handle = some artifact → artifact.isExternal = true →
      store.index.get? artifact.file = some handle ∧ artifact.users ≠ [] ∧
        artifact.users.Nodup) ∧
    (∀ handle artifact, store.artifact? handle = some artifact → artifact.isExternal = false →
      artifact.users = []) ∧
    store.GrowsTo (StyleCall.runAll later resolution).store ∧
    store.ChangesWith call.site.document.file (call.run resolution).1
      (call.run resolution).2.store := by
  intro resolution store
  have consistent : store.Consistent :=
    StyleCall.runAll_consistent earlier (.start state) ArtifactStore.consistent_empty
  have step := call.context.resolve_storeStep call.site resolution
  refine ⟨?_, ?_, ?_, ?_, ?_⟩
  · intro left right leftArtifact rightArtifact leftFound rightFound leftExternal rightExternal same
    exact consistent.handle_unique leftFound rightFound leftExternal rightExternal same
  · intro handle artifact found external
    exact ⟨consistent.indexed handle artifact found external,
      Artifact.users_ne_nil external, consistent.usersDistinct handle artifact found⟩
  · intro handle artifact _found internal
    exact Artifact.users_eq_nil internal
  · exact StyleCall.runAll_growsTo later resolution consistent
  · exact step.changesWith consistent

end ComponentStyles
