import ComponentStyles.Artifact.Store

/-!
Stores whose index and artifacts belong together.

Every operation keeps such a store consistent and every artifact at its place.  What may change
about an artifact is its users, which grow at the end.
-/

namespace ComponentStyles

namespace Artifact

theorem users_ne_nil {artifact : Artifact} (external : artifact.isExternal = true) :
    artifact.users ≠ [] := by
  cases artifact with
  | mk file data origin =>
      cases origin with
      | external firstUser otherUsers => exact List.cons_ne_nil firstUser otherUsers
      | inlined => cases external
      | defaults => cases external

theorem users_eq_nil {artifact : Artifact} (internal : artifact.isExternal = false) :
    artifact.users = [] := by
  cases artifact with
  | mk file data origin =>
      cases origin with
      | external firstUser otherUsers => cases internal
      | inlined => rfl
      | defaults => rfl

theorem addUser_of_mem {artifact : Artifact} {user : FileId} (known : user ∈ artifact.users) :
    (artifact.addUser user).2 = artifact := by
  cases artifact with
  | mk file data origin =>
      cases origin with
      | external firstUser otherUsers =>
          have contained : (firstUser :: otherUsers).contains user = true :=
            List.contains_iff_mem.mpr known
          simp only [addUser, contained, if_true]
      | inlined => rfl
      | defaults => rfl

theorem addUser_of_not_mem {artifact : Artifact} {user : FileId}
    (external : artifact.isExternal = true) (new : user ∉ artifact.users) :
    (artifact.addUser user).2.file = artifact.file ∧
      (artifact.addUser user).2.data = artifact.data ∧
      (artifact.addUser user).2.isExternal = true ∧
      (artifact.addUser user).2.users = artifact.users ++ [user] := by
  cases artifact with
  | mk file data origin =>
      cases origin with
      | external firstUser otherUsers =>
          have missing : (firstUser :: otherUsers).contains user = false := by
            rw [Bool.eq_false_iff]
            intro contained
            exact new (List.contains_iff_mem.mp contained)
          have added : addUser { file, data, origin := .external firstUser otherUsers } user =
              (true, { file, data, origin := .external firstUser (otherUsers ++ [user]) }) := by
            simp only [addUser, missing, Bool.false_eq_true, if_false]
          rw [added]
          exact ⟨rfl, rfl, rfl, rfl⟩
      | inlined => cases external
      | defaults => cases external

structure GrowsTo (before after : Artifact) : Prop where
  file : after.file = before.file
  kind : after.origin.kindName = before.origin.kindName
  data : after.data = before.data
  users : before.users <+: after.users

theorem GrowsTo.refl (artifact : Artifact) : artifact.GrowsTo artifact :=
  ⟨rfl, rfl, rfl, List.prefix_refl _⟩

theorem GrowsTo.trans {first second third : Artifact} (one : first.GrowsTo second)
    (two : second.GrowsTo third) : first.GrowsTo third :=
  ⟨two.file.trans one.file, two.kind.trans one.kind, two.data.trans one.data,
    one.users.trans two.users⟩

theorem kindName_of_isExternal {artifact : Artifact} (external : artifact.isExternal = true) :
    artifact.origin.kindName = "external" := by
  cases artifact with
  | mk file data origin =>
      cases origin with
      | external firstUser otherUsers => rfl
      | inlined => cases external
      | defaults => cases external

theorem growsTo_addUser {artifact : Artifact} (external : artifact.isExternal = true)
    (user : FileId) : artifact.GrowsTo (artifact.addUser user).2 := by
  by_cases known : user ∈ artifact.users
  · rw [addUser_of_mem known]
    exact GrowsTo.refl artifact
  · obtain ⟨file, data, stillExternal, users⟩ := addUser_of_not_mem external known
    refine ⟨file, ?_, data, ?_⟩
    · rw [kindName_of_isExternal stillExternal, kindName_of_isExternal external]
    · rw [users]
      exact List.prefix_append _ _

theorem isExternal_addUser {artifact : Artifact} (external : artifact.isExternal = true)
    (user : FileId) : (artifact.addUser user).2.isExternal = true := by
  by_cases known : user ∈ artifact.users
  · rw [addUser_of_mem known]
    exact external
  · obtain ⟨_, _, stillExternal, _⟩ := addUser_of_not_mem external known
    exact stillExternal

theorem users_addUser_nodup {artifact : Artifact} (distinct : artifact.users.Nodup)
    (external : artifact.isExternal = true) (user : FileId) :
    (artifact.addUser user).2.users.Nodup := by
  by_cases known : user ∈ artifact.users
  · rw [addUser_of_mem known]
    exact distinct
  · obtain ⟨_, _, _, users⟩ := addUser_of_not_mem external known
    rw [users, List.nodup_append]
    refine ⟨distinct, List.nodup_cons.mpr ⟨List.not_mem_nil, List.nodup_nil⟩, ?_⟩
    intro left leftMember right rightMember same
    rw [List.mem_singleton] at rightMember
    subst rightMember
    subst same
    exact known leftMember

end Artifact

namespace ArtifactStore

theorem artifact?_push (store : ArtifactStore) (artifact : Artifact) (handle : Nat) :
    (store.push artifact).2.artifact? handle =
      if handle = store.size then some artifact else store.artifact? handle := by
  unfold push artifact? size
  rw [Array.getElem?_push]

theorem artifact?_pushUnder (store : ArtifactStore) (identity : FileId) (artifact : Artifact)
    (handle : Nat) :
    (store.pushUnder identity artifact).2.artifact? handle =
      if handle = store.size then some artifact else store.artifact? handle :=
  artifact?_push store artifact handle

theorem lt_size_of_artifact? {store : ArtifactStore} {handle : Nat} {artifact : Artifact}
    (found : store.artifact? handle = some artifact) : handle < store.size := by
  obtain ⟨inside, _⟩ := Array.getElem?_eq_some_iff.mp found
  exact inside

theorem addUser_eq {store : ArtifactStore} {handle : Nat} {artifact : Artifact}
    (found : store.artifact? handle = some artifact) (user : FileId) :
    (store.addUser handle user).2 =
      { store with
        artifacts := store.artifacts.setIfInBounds handle (artifact.addUser user).2 } := by
  simp only [addUser, found]

theorem artifact?_addUser {store : ArtifactStore} {handle : Nat} {artifact : Artifact}
    (found : store.artifact? handle = some artifact) (user : FileId) (other : Nat) :
    (store.addUser handle user).2.artifact? other =
      if other = handle then some (artifact.addUser user).2 else store.artifact? other := by
  have inside : handle < store.artifacts.size := lt_size_of_artifact? found
  rw [addUser_eq found]
  by_cases same : other = handle
  · subst same
    simp only [artifact?, Array.getElem?_setIfInBounds, inside, if_true]
  · have different : handle ≠ other := fun equal => same equal.symm
    simp only [artifact?, Array.getElem?_setIfInBounds, different, same, if_false]

theorem addUser_of_missing {store : ArtifactStore} {handle : Nat}
    (missing : store.artifact? handle = none) (user : FileId) :
    (store.addUser handle user).2 = store := by
  simp only [addUser, missing]

theorem index_addUser (store : ArtifactStore) (handle : Nat) (user : FileId) :
    (store.addUser handle user).2.index = store.index := by
  unfold addUser
  split <;> rfl

theorem size_addUser (store : ArtifactStore) (handle : Nat) (user : FileId) :
    (store.addUser handle user).2.size = store.size := by
  unfold addUser
  split
  · exact Array.size_setIfInBounds
  · rfl

/-- Every artifact of a separate file is found under that file and only there, and knows no
user twice. -/
structure Consistent (store : ArtifactStore) : Prop where
  indexed : ∀ handle artifact, store.artifact? handle = some artifact →
    artifact.isExternal = true → store.index.get? artifact.file = some handle
  backed : ∀ identity handle, store.index.get? identity = some handle →
    ∃ artifact, store.artifact? handle = some artifact ∧
      artifact.isExternal = true ∧ artifact.file = identity
  usersDistinct : ∀ handle artifact, store.artifact? handle = some artifact →
    artifact.users.Nodup

theorem consistent_empty : Consistent empty := by
  refine ⟨?_, ?_, ?_⟩
  · intro handle artifact found
    simp [artifact?, empty] at found
  · intro identity handle found
    simp [empty] at found
  · intro handle artifact found
    simp [artifact?, empty] at found

theorem Consistent.handle_unique {store : ArtifactStore} (consistent : store.Consistent)
    {left right : Nat} {leftArtifact rightArtifact : Artifact}
    (leftFound : store.artifact? left = some leftArtifact)
    (rightFound : store.artifact? right = some rightArtifact)
    (leftExternal : leftArtifact.isExternal = true)
    (rightExternal : rightArtifact.isExternal = true)
    (sameFile : leftArtifact.file = rightArtifact.file) : left = right := by
  have leftIndexed := consistent.indexed left leftArtifact leftFound leftExternal
  have rightIndexed := consistent.indexed right rightArtifact rightFound rightExternal
  rw [sameFile, rightIndexed] at leftIndexed
  exact (Option.some.inj leftIndexed).symm

theorem Consistent.push_inlined {store : ArtifactStore} (consistent : store.Consistent)
    (file : FileId) (data : List UInt8) :
    (store.push (.inlined file data)).2.Consistent := by
  refine ⟨?_, ?_, ?_⟩
  · intro handle artifact found external
    rw [artifact?_push] at found
    split at found
    · cases found
      cases external
    · exact consistent.indexed handle artifact found external
  · intro identity handle indexed
    obtain ⟨artifact, found, external, file⟩ := consistent.backed identity handle indexed
    have inside := lt_size_of_artifact? found
    refine ⟨artifact, ?_, external, file⟩
    rw [artifact?_push, if_neg (Nat.ne_of_lt inside)]
    exact found
  · intro handle artifact found
    rw [artifact?_push] at found
    split at found
    · cases found
      exact List.nodup_nil
    · exact consistent.usersDistinct handle artifact found

theorem Consistent.pushUnder_external {store : ArtifactStore} (consistent : store.Consistent)
    {identity : FileId} (absent : store.index.get? identity = none) (data : List UInt8)
    (user : FileId) :
    (store.pushUnder identity (.external identity data user)).2.Consistent := by
  refine ⟨?_, ?_, ?_⟩
  · intro handle artifact found external
    change (store.index.put identity store.size).get? artifact.file = some handle
    rw [artifact?_pushUnder] at found
    split at found
    · rename_i last
      cases found
      rw [last]
      exact Table.get?_put_self store.index identity store.size
    · -- An artifact from before has another file, or the new one would not have been absent.
      have indexed := consistent.indexed handle artifact found external
      have different : identity ≠ artifact.file := by
        intro same
        rw [same, indexed] at absent
        cases absent
      rw [Table.get?_put_of_ne store.index store.size different]
      exact indexed
  · intro other handle indexed
    change (store.index.put identity store.size).get? other = some handle at indexed
    rw [Table.get?_put] at indexed
    split at indexed
    · rename_i same
      cases indexed
      refine ⟨.external identity data user, ?_, rfl, same⟩
      rw [artifact?_pushUnder, if_pos rfl]
    · obtain ⟨artifact, found, external, file⟩ := consistent.backed other handle indexed
      have inside := lt_size_of_artifact? found
      refine ⟨artifact, ?_, external, file⟩
      rw [artifact?_pushUnder, if_neg (Nat.ne_of_lt inside)]
      exact found
  · intro handle artifact found
    rw [artifact?_pushUnder] at found
    split at found
    · cases found
      exact List.nodup_cons.mpr ⟨List.not_mem_nil, List.nodup_nil⟩
    · exact consistent.usersDistinct handle artifact found

theorem Consistent.addUser {store : ArtifactStore} (consistent : store.Consistent)
    {identity : FileId} {handle : Nat} (present : store.index.get? identity = some handle)
    (user : FileId) : (store.addUser handle user).2.Consistent := by
  obtain ⟨artifact, found, external, file⟩ := consistent.backed identity handle present
  have grown := Artifact.growsTo_addUser external user
  have sameIndex : (store.addUser handle user).2.index = store.index := by
    rw [addUser_eq found]
  have stillExternal := Artifact.isExternal_addUser external user
  refine ⟨?_, ?_, ?_⟩
  · intro other otherArtifact otherFound otherExternal
    rw [sameIndex]
    rw [artifact?_addUser found] at otherFound
    split at otherFound
    · rename_i same
      cases otherFound
      rw [grown.file, same]
      exact consistent.indexed handle artifact found external
    · exact consistent.indexed other otherArtifact otherFound otherExternal
  · intro otherIdentity other indexed
    rw [sameIndex] at indexed
    obtain ⟨otherArtifact, otherFound, otherExternal, otherFile⟩ :=
      consistent.backed otherIdentity other indexed
    by_cases same : other = handle
    · subst same
      rw [found] at otherFound
      cases otherFound
      refine ⟨(artifact.addUser user).2, ?_, stillExternal, grown.file.trans otherFile⟩
      rw [artifact?_addUser found, if_pos rfl]
    · refine ⟨otherArtifact, ?_, otherExternal, otherFile⟩
      rw [artifact?_addUser found, if_neg same]
      exact otherFound
  · intro other otherArtifact otherFound
    rw [artifact?_addUser found] at otherFound
    split at otherFound
    · cases otherFound
      exact Artifact.users_addUser_nodup (consistent.usersDistinct handle artifact found)
        external user
    · exact consistent.usersDistinct other otherArtifact otherFound

def GrowsTo (before after : ArtifactStore) : Prop :=
  ∀ handle artifact, before.artifact? handle = some artifact →
    ∃ later, after.artifact? handle = some later ∧ artifact.GrowsTo later

theorem GrowsTo.refl (store : ArtifactStore) : store.GrowsTo store := by
  intro handle artifact found
  exact ⟨artifact, found, Artifact.GrowsTo.refl artifact⟩

theorem GrowsTo.trans {first second third : ArtifactStore} (one : first.GrowsTo second)
    (two : second.GrowsTo third) : first.GrowsTo third := by
  intro handle artifact found
  obtain ⟨middle, middleFound, middleGrown⟩ := one handle artifact found
  obtain ⟨later, laterFound, laterGrown⟩ := two handle middle middleFound
  exact ⟨later, laterFound, middleGrown.trans laterGrown⟩

theorem growsTo_push (store : ArtifactStore) (artifact : Artifact) :
    store.GrowsTo (store.push artifact).2 := by
  intro handle old found
  have inside := lt_size_of_artifact? found
  refine ⟨old, ?_, Artifact.GrowsTo.refl old⟩
  rw [artifact?_push, if_neg (Nat.ne_of_lt inside)]
  exact found

theorem Consistent.growsTo_addUser {store : ArtifactStore} (consistent : store.Consistent)
    {identity : FileId} {handle : Nat} (present : store.index.get? identity = some handle)
    (user : FileId) : store.GrowsTo (store.addUser handle user).2 := by
  obtain ⟨artifact, found, external, _⟩ := consistent.backed identity handle present
  intro other old oldFound
  by_cases same : other = handle
  · subst same
    rw [found] at oldFound
    cases oldFound
    refine ⟨(artifact.addUser user).2, ?_, Artifact.growsTo_addUser external user⟩
    rw [artifact?_addUser found, if_pos rfl]
  · refine ⟨old, ?_, Artifact.GrowsTo.refl old⟩
    rw [artifact?_addUser found, if_neg same]
    exact oldFound

end ArtifactStore

end ComponentStyles
