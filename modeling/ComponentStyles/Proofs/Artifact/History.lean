import ComponentStyles.Proofs.Artifact.Store
import Mathlib.Data.List.Induction

/-!
Stores told by their history.

A history lists what has happened to a store: which creations were run and what they gave, what was
pushed, and which users were added by which handle.  The history alone says what the store holds:
the artifacts made so far, each in the place that its making had among all makings, and under each
identity what its first successful creation made.
-/

namespace ComponentStyles

def newUsers (known users : List FileId) : List FileId :=
  (users.filter (· ∉ known)).eraseDups

theorem mem_newUsers {known users : List FileId} {user : FileId} :
    user ∈ newUsers known users ↔ user ∈ users ∧ user ∉ known := by
  unfold newUsers
  rw [List.mem_eraseDups, List.mem_filter, decide_eq_true_iff]

theorem newUsers_concat (known users : List FileId) (user : FileId) :
    newUsers known (users ++ [user]) =
      if user ∈ known ++ newUsers known users then newUsers known users
      else newUsers known users ++ [user] := by
  simp only [List.mem_append, mem_newUsers]
  unfold newUsers
  rw [List.filter_append, List.eraseDups_append]
  by_cases own : user ∈ known
  · rw [if_pos (Or.inl own), List.filter_cons_of_neg (by simpa using own), List.filter_nil]
    exact List.append_nil _
  · rw [List.filter_cons_of_pos (by simpa using own), List.filter_nil]
    by_cases earlier : user ∈ users <;>
      simp [List.removeAll, List.eraseDups_cons, own, earlier]

namespace Artifact

def withUsers (artifact : Artifact) (users : List FileId) : Artifact :=
  match artifact.origin with
  | .external firstUser otherUsers =>
      { artifact with
        origin := .external firstUser (otherUsers ++ newUsers (firstUser :: otherUsers) users) }
  | _ => artifact

theorem withUsers_nil (artifact : Artifact) : artifact.withUsers [] = artifact := by
  cases artifact with
  | mk file data origin =>
      cases origin with
      | external firstUser otherUsers => simp [withUsers, newUsers]
      | inlined => rfl
      | defaults => rfl

theorem addUser_withUsers (artifact : Artifact) (users : List FileId) (user : FileId) :
    ((artifact.withUsers users).addUser user).2 = artifact.withUsers (users ++ [user]) := by
  cases artifact with
  | mk file data origin =>
      cases origin with
      | external firstUser otherUsers =>
          simp only [withUsers, addUser, newUsers_concat, List.contains_iff_mem,
            List.cons_append]
          split
          · rfl
          · rw [List.append_assoc]
      | inlined => rfl
      | defaults => rfl

theorem withUsers_append (artifact : Artifact) (users later : List FileId) :
    (artifact.withUsers users).withUsers later = artifact.withUsers (users ++ later) := by
  induction later using List.reverseRecOn with
  | nil => rw [withUsers_nil, List.append_nil]
  | append_singleton front user inductionHypothesis =>
      rw [← addUser_withUsers, inductionHypothesis, addUser_withUsers, List.append_assoc]

theorem addUser_eq_withUsers (artifact : Artifact) (user : FileId) :
    (artifact.addUser user).2 = artifact.withUsers [user] := by
  have added := artifact.addUser_withUsers [] user
  rw [withUsers_nil] at added
  exact added

end Artifact

variable {ε : Type}

/-- What has happened to a store.  A creation that is not run leaves no trace. -/
inductive StoreEvent (ε : Type) where
  | ran (identity : FileId) (result : Except ε Artifact)
  | pushed (artifact : Artifact)
  | told (handle : Nat) (user : FileId)

namespace StoreEvent

def made? : StoreEvent ε → Option Artifact
  | ran _ (.ok artifact) => some artifact
  | ran _ (.error _) => none
  | pushed artifact => some artifact
  | told _ _ => none

def user? (handle : Nat) : StoreEvent ε → Option FileId
  | told other user => if other = handle then some user else none
  | _ => none

def identity? : StoreEvent ε → Option FileId
  | ran identity (.ok _) => some identity
  | _ => none

def apply (event : StoreEvent ε) (store : ArtifactStore) : ArtifactStore :=
  match event with
  | ran identity (.ok artifact) => (store.pushUnder identity artifact).2
  | ran _ (.error _) => store
  | pushed artifact => (store.push artifact).2
  | told handle user => (store.addUser handle user).2

def made (history : List (StoreEvent ε)) : List Artifact :=
  history.filterMap made?

def users (handle : Nat) (history : List (StoreEvent ε)) : List FileId :=
  history.filterMap (user? handle)

theorem eq_ran_of_identity? {event : StoreEvent ε} {identity : FileId}
    (makes : event.identity? = some identity) :
    ∃ artifact, event = .ran identity (.ok artifact) := by
  cases event with
  | ran other result =>
      cases result with
      | ok artifact =>
          cases makes
          exact ⟨artifact, rfl⟩
      | error failure => cases makes
  | pushed artifact => cases makes
  | told handle user => cases makes

theorem made_concat (history : List (StoreEvent ε)) (event : StoreEvent ε) :
    made (history ++ [event]) = made history ++ event.made?.toList := by
  unfold made
  rw [List.filterMap_append, List.filterMap_cons, List.filterMap_nil]
  cases event.made? <;> rfl

theorem users_append (handle : Nat) (front rest : List (StoreEvent ε)) :
    users handle (front ++ rest) = users handle front ++ users handle rest :=
  List.filterMap_append

/-! Each event in terms of what can be read from a store. -/

variable (event : StoreEvent ε) (store : ArtifactStore)

theorem size_apply : (event.apply store).size = store.size + event.made?.toList.length := by
  cases event with
  | ran identity result =>
      cases result with
      | ok artifact => exact Array.size_push artifact
      | error failure => rfl
  | pushed artifact => exact Array.size_push artifact
  | told handle user => exact store.size_addUser handle user

theorem index_apply (identity : FileId) :
    (event.apply store).index.get? identity =
      if event.identity? = some identity then some store.size
      else store.index.get? identity := by
  cases event with
  | ran other result =>
      cases result with
      | ok artifact =>
          simp only [identity?, Option.some.injEq]
          exact Table.get?_put store.index other identity store.size
      | error failure => rfl
  | pushed artifact => rfl
  | told handle user => exact congrArg (·.get? identity) (store.index_addUser handle user)

theorem artifact?_apply_new {artifact : Artifact} (makes : event.made? = some artifact) :
    (event.apply store).artifact? store.size = some artifact := by
  cases event with
  | ran identity result =>
      cases result with
      | ok other =>
          cases makes
          rw [apply, ArtifactStore.artifact?_pushUnder, if_pos rfl]
      | error failure => cases makes
  | pushed other =>
      cases makes
      rw [apply, ArtifactStore.artifact?_push, if_pos rfl]
  | told handle user => cases makes

/-- What is there stays in its place and gains the users that are added by its handle. -/
theorem artifact?_apply {store : ArtifactStore} {handle : Nat} {artifact : Artifact}
    (found : store.artifact? handle = some artifact) :
    (event.apply store).artifact? handle = some (artifact.withUsers (users handle [event])) := by
  have inside := ArtifactStore.lt_size_of_artifact? found
  cases event with
  | ran identity result =>
      cases result with
      | ok other =>
          rw [apply, ArtifactStore.artifact?_pushUnder, if_neg (Nat.ne_of_lt inside), found]
          exact congrArg some artifact.withUsers_nil.symm
      | error failure =>
          rw [apply, found]
          exact congrArg some artifact.withUsers_nil.symm
  | pushed other =>
      rw [apply, ArtifactStore.artifact?_push, if_neg (Nat.ne_of_lt inside), found]
      exact congrArg some artifact.withUsers_nil.symm
  | told other user =>
      rw [apply, users, List.filterMap_cons, List.filterMap_nil, user?]
      by_cases own : other = handle
      · subst own
        rw [ArtifactStore.artifact?_addUser found, if_pos rfl, if_pos rfl,
          Artifact.addUser_eq_withUsers]
      · rw [if_neg own, Artifact.withUsers_nil]
        cases named : store.artifact? other with
        | some first =>
            rw [ArtifactStore.artifact?_addUser named, if_neg (Ne.symm own), found]
        | none => rw [ArtifactStore.addUser_of_missing named, found]

end StoreEvent

structure StoreSession (ε : Type) where
  store : ArtifactStore
  history : List (StoreEvent ε)

inductive StoreCall (ε : Type) where
  | lookup (identity : FileId) (result : Except ε Artifact)
  | push (artifact : Artifact)
  | addUser (handle : Nat) (user : FileId)

namespace StoreSession

def initial : StoreSession ε :=
  { store := .empty, history := [] }

def lookup (session : StoreSession ε) (identity : FileId) (result : Except ε Artifact) :
    Except ε Lookup × StoreSession ε :=
  let create (history : List (StoreEvent ε)) := (result, history ++ [.ran identity result])
  let answered := session.store.lookupOrCreate identity create session.history
  (answered.1, { store := answered.2.1, history := answered.2.2 })

def push (session : StoreSession ε) (artifact : Artifact) : Nat × StoreSession ε :=
  let pushed := session.store.push artifact
  (pushed.1, { store := pushed.2, history := session.history ++ [.pushed artifact] })

def addUser (session : StoreSession ε) (handle : Nat) (user : FileId) : Bool × StoreSession ε :=
  let added := session.store.addUser handle user
  (added.1, { store := added.2, history := session.history ++ [.told handle user] })

def act (session : StoreSession ε) : StoreCall ε → StoreSession ε
  | .lookup identity result => (session.lookup identity result).2
  | .push artifact => (session.push artifact).2
  | .addUser handle user => (session.addUser handle user).2

def after (session : StoreSession ε) (calls : List (StoreCall ε)) : StoreSession ε :=
  calls.foldl act session

def record (session : StoreSession ε) (event : StoreEvent ε) : StoreSession ε :=
  { store := event.apply session.store, history := session.history ++ [event] }

/-! A call changes nothing, or it is one more event.  Only a lookup that misses makes something
under an identity. -/

variable (session : StoreSession ε) {identity : FileId}

theorem lookup_of_found {handle : Nat}
    (found : session.store.index.get? identity = some handle) (result : Except ε Artifact) :
    session.lookup identity result = (.ok (.existing handle), session) := by
  simp only [lookup, ArtifactStore.lookupOrCreate, found]

theorem lookup_of_missing (missing : session.store.index.get? identity = none)
    (result : Except ε Artifact) :
    session.lookup identity result =
      (result.map fun _ => .created session.store.size, session.record (.ran identity result)) := by
  cases result with
  | ok artifact =>
      simp only [lookup, ArtifactStore.lookupOrCreate, missing]
      rfl
  | error failure =>
      simp only [lookup, ArtifactStore.lookupOrCreate, missing]
      rfl

theorem act_cases (call : StoreCall ε) :
    session.act call = session ∨
      ∃ event, session.act call = session.record event ∧
        ∀ identity, event.identity? = some identity →
          session.store.index.get? identity = none := by
  cases call with
  | lookup identity result =>
      cases held : session.store.index.get? identity with
      | some handle => exact Or.inl (congrArg Prod.snd (session.lookup_of_found held result))
      | none =>
          refine Or.inr ⟨.ran identity result,
            congrArg Prod.snd (session.lookup_of_missing held result), ?_⟩
          intro other makes
          obtain ⟨artifact, same⟩ := StoreEvent.eq_ran_of_identity? makes
          cases same
          exact held
  | push artifact => exact Or.inr ⟨.pushed artifact, rfl, nofun⟩
  | addUser handle user => exact Or.inr ⟨.told handle user, rfl, nofun⟩

/-! ### What a history says -/

structure Reflects (session : StoreSession ε) : Prop where
  size : session.store.size = (StoreEvent.made session.history).length
  kept : ∀ front event rest artifact, session.history = front ++ event :: rest →
    event.made? = some artifact →
    session.store.artifact? (StoreEvent.made front).length =
      some (artifact.withUsers (StoreEvent.users (StoreEvent.made front).length rest))
  found : ∀ front event rest identity, session.history = front ++ event :: rest →
    event.identity? = some identity →
    session.store.index.get? identity = some (StoreEvent.made front).length
  known : ∀ identity handle, session.store.index.get? identity = some handle →
    ∃ event ∈ session.history, event.identity? = some identity

theorem reflects_initial : (initial : StoreSession ε).Reflects := by
  refine ⟨rfl, ?_, ?_, ?_⟩
  · intro front event rest artifact split
    exact absurd split.symm (List.append_ne_nil_of_right_ne_nil front (List.cons_ne_nil event rest))
  · intro front event rest identity split
    exact absurd split.symm (List.append_ne_nil_of_right_ne_nil front (List.cons_ne_nil event rest))
  · intro identity handle held
    cases held

/-- An event of a longer history is the last one, or one of those before it. -/
theorem split_concat {history front rest : List (StoreEvent ε)} {last event : StoreEvent ε}
    (split : history ++ [last] = front ++ event :: rest) :
    (history = front ∧ last = event ∧ rest = []) ∨
      ∃ middle, rest = middle ++ [last] ∧ history = front ++ event :: middle := by
  induction rest using List.reverseRecOn with
  | nil =>
      obtain ⟨before, same⟩ := List.append_inj' split rfl
      exact Or.inl ⟨before, List.head_eq_of_cons_eq same, rfl⟩
  | append_singleton middle other _ =>
      rw [← List.cons_append, ← List.append_assoc] at split
      obtain ⟨before, same⟩ := List.append_inj' split rfl
      exact Or.inr ⟨middle, by rw [same], before⟩

variable {session : StoreSession ε}

theorem Reflects.record (reflects : session.Reflects) {event : StoreEvent ε}
    (fresh : ∀ identity, event.identity? = some identity →
      session.store.index.get? identity = none) : (session.record event).Reflects := by
  refine ⟨?_, ?_, ?_, ?_⟩
  · change (event.apply session.store).size = (StoreEvent.made (session.history ++ [event])).length
    rw [StoreEvent.size_apply, StoreEvent.made_concat, List.length_append, reflects.size]
  · intro front other rest artifact split makes
    rcases split_concat split with ⟨before, same, behind⟩ | ⟨middle, behind, before⟩
    · rw [← before, ← reflects.size, behind]
      rw [← same] at makes
      exact (event.artifact?_apply_new session.store makes).trans
        (congrArg some artifact.withUsers_nil.symm)
    · have held := reflects.kept front other middle artifact before makes
      rw [behind, StoreEvent.users_append, ← Artifact.withUsers_append]
      exact event.artifact?_apply held
  · intro front other rest identity split makes
    refine (event.index_apply session.store identity).trans ?_
    rcases split_concat split with ⟨before, same, _⟩ | ⟨middle, _, before⟩
    · rw [same, if_pos makes, reflects.size, before]
    · -- What was made earlier is found, so the new event makes nothing under that identity.
      have held := reflects.found front other middle identity before makes
      have different : event.identity? ≠ some identity := by
        intro again
        rw [fresh identity again] at held
        cases held
      rw [if_neg different, held]
  · intro identity handle held
    have placed := (event.index_apply session.store identity).symm.trans held
    split at placed
    · rename_i makes
      exact ⟨event, List.mem_concat_self, makes⟩
    · obtain ⟨other, inside, makes⟩ := reflects.known identity handle placed
      exact ⟨other, List.mem_append_left _ inside, makes⟩

theorem Reflects.act (reflects : session.Reflects) (call : StoreCall ε) :
    (session.act call).Reflects := by
  rcases session.act_cases call with same | ⟨event, recorded, fresh⟩
  · rw [same]
    exact reflects
  · rw [recorded]
    exact reflects.record fresh

theorem Reflects.after (reflects : session.Reflects) (calls : List (StoreCall ε)) :
    (session.after calls).Reflects := by
  induction calls generalizing session with
  | nil => exact reflects
  | cons call rest inductionHypothesis => exact inductionHypothesis (reflects.act call)

/-- Further calls only add to the history, and a handle goes on naming its artifact. -/
theorem after_grows (session : StoreSession ε) (calls : List (StoreCall ε)) :
    ∃ later, (session.after calls).history = session.history ++ later ∧
      ∀ handle artifact, session.store.artifact? handle = some artifact →
        (session.after calls).store.artifact? handle =
          some (artifact.withUsers (StoreEvent.users handle later)) := by
  induction calls generalizing session with
  | nil =>
      refine ⟨[], (List.append_nil _).symm, ?_⟩
      intro handle artifact found
      exact found.trans (congrArg some artifact.withUsers_nil.symm)
  | cons call rest inductionHypothesis =>
      obtain ⟨later, grown, named⟩ := inductionHypothesis (session.act call)
      rcases session.act_cases call with same | ⟨event, recorded, _⟩
      · rw [same] at grown named
        refine ⟨later, ?_, ?_⟩
        · rw [← grown, after, List.foldl_cons, same]
          rfl
        · intro handle artifact found
          have kept := named handle artifact found
          rw [← kept, after, List.foldl_cons, same]
          rfl
      · rw [recorded] at grown named
        refine ⟨event :: later, ?_, ?_⟩
        · rw [after, List.foldl_cons, recorded]
          exact grown.trans (List.append_assoc _ _ _)
        · intro handle artifact found
          have kept := named handle _ (event.artifact?_apply found)
          rw [after, List.foldl_cons, recorded]
          rw [Artifact.withUsers_append, ← StoreEvent.users_append] at kept
          exact kept

theorem Reflects.get?_of_made (reflects : session.Reflects) {front rest : List (StoreEvent ε)}
    {identity : FileId} {artifact : Artifact}
    (split : session.history = front ++ .ran identity (.ok artifact) :: rest) :
    session.store.get? identity =
      some (artifact.withUsers (StoreEvent.users (StoreEvent.made front).length rest)) := by
  rw [ArtifactStore.get?, reflects.found front _ rest identity split rfl]
  exact reflects.kept front _ rest artifact split rfl

/-- A handle that is found under an identity names an artifact. -/
theorem Reflects.named_of_found (reflects : session.Reflects) {identity : FileId} {handle : Nat}
    (held : session.store.index.get? identity = some handle) :
    ∃ artifact, session.store.artifact? handle = some artifact ∧
      session.store.get? identity = some artifact := by
  obtain ⟨event, inside, makes⟩ := reflects.known identity handle held
  obtain ⟨front, rest, split⟩ := List.append_of_mem inside
  have got : session.store.get? identity = session.store.artifact? handle := by
    rw [ArtifactStore.get?, held, Option.bind_some]
  obtain ⟨artifact, rfl⟩ := StoreEvent.eq_ran_of_identity? makes
  have made := reflects.get?_of_made split
  exact ⟨_, got.symm.trans made, made⟩

theorem Reflects.get?_eq_none (reflects : session.Reflects) {identity : FileId} :
    session.store.get? identity = none ↔ session.store.index.get? identity = none := by
  constructor
  · intro nothing
    cases held : session.store.index.get? identity with
    | none => rfl
    | some handle =>
        obtain ⟨artifact, _, got⟩ := reflects.named_of_found held
        rw [nothing] at got
        cases got
  · intro missing
    rw [ArtifactStore.get?, missing]
    rfl

theorem Reflects.get?_of_unmade (reflects : session.Reflects) {identity : FileId}
    (unmade : ∀ artifact, .ran identity (.ok artifact) ∉ session.history) :
    session.store.get? identity = none := by
  rw [reflects.get?_eq_none]
  cases held : session.store.index.get? identity with
  | none => rfl
  | some handle =>
      obtain ⟨event, inside, makes⟩ := reflects.known identity handle held
      obtain ⟨artifact, rfl⟩ := StoreEvent.eq_ran_of_identity? makes
      exact absurd inside (unmade artifact)

theorem Reflects.get?_push (reflects : session.Reflects) (artifact : Artifact)
    (identity : FileId) :
    (session.push artifact).2.store.get? identity = session.store.get? identity := by
  cases held : session.store.index.get? identity with
  | none =>
      have missing : (session.push artifact).2.store.index.get? identity = none := held
      rw [reflects.get?_eq_none.mpr held, ArtifactStore.get?, missing, Option.bind_none]
  | some handle =>
      obtain ⟨found, named, got⟩ := reflects.named_of_found held
      have placed : (session.push artifact).2.store.index.get? identity = some handle := held
      have kept := (StoreEvent.pushed artifact : StoreEvent ε).artifact?_apply named
      rw [got, ArtifactStore.get?, placed, Option.bind_some]
      exact kept.trans (congrArg some found.withUsers_nil)

theorem artifact?_addUser (session : StoreSession ε) (handle : Nat) (user : FileId)
    (other : Nat) :
    (session.addUser handle user).2.store.artifact? other =
      (session.store.artifact? other).map fun artifact =>
        if other = handle then artifact.withUsers [user] else artifact := by
  change (session.store.addUser handle user).2.artifact? other = _
  cases named : session.store.artifact? handle with
  | none =>
      rw [ArtifactStore.addUser_of_missing named]
      by_cases own : other = handle
      · rw [own, named]
        rfl
      · simp only [own, if_false, Option.map_id']
  | some artifact =>
      rw [ArtifactStore.artifact?_addUser named]
      by_cases own : other = handle
      · rw [own, named, if_pos rfl, Option.map_some, if_pos rfl, Artifact.addUser_eq_withUsers]
      · simp only [own, if_false, Option.map_id']

theorem store_lookup_error (session : StoreSession ε) (identity : FileId) (failure : ε) :
    (session.lookup identity (.error failure)).2.store = session.store := by
  cases held : session.store.index.get? identity with
  | some handle => rw [session.lookup_of_found held]
  | none =>
      rw [session.lookup_of_missing held]
      rfl

theorem Reflects.lookup_runs (reflects : session.Reflects) (identity : FileId)
    (result : Except ε Artifact) :
    if session.store.get? identity = none then
      (session.lookup identity result).1 = (result.map fun _ => .created session.store.size) ∧
        (session.lookup identity result).2.history = session.history ++ [.ran identity result]
    else
      ∃ handle, session.lookup identity result = (.ok (.existing handle), session) ∧
        session.store.artifact? handle = session.store.get? identity := by
  cases held : session.store.index.get? identity with
  | none =>
      rw [if_pos (reflects.get?_eq_none.mpr held), session.lookup_of_missing held]
      exact ⟨rfl, rfl⟩
  | some handle =>
      obtain ⟨artifact, named, got⟩ := reflects.named_of_found held
      rw [if_neg (by rw [got]; exact nofun)]
      exact ⟨handle, session.lookup_of_found held result, named.trans got.symm⟩

end StoreSession

/-- Whatever is asked of a new store, its artifacts are those that were made, in the order of their
makings, and an identity leads to what its first successful creation made; each has the users that
were added by its handle since.  A creation is run only if its identity leads nowhere, one that
fails leaves the store alone, what is pushed is found under no identity, adding a user changes one
artifact, and a handle names the same artifact from then on. -/
theorem first_creation_wins (calls : List (StoreCall ε)) :
    let reached := StoreSession.initial.after calls
    (reached.store.size = (StoreEvent.made reached.history).length ∧
      ∀ front event rest artifact, reached.history = front ++ event :: rest →
        event.made? = some artifact →
        reached.store.artifact? (StoreEvent.made front).length =
          some (artifact.withUsers (StoreEvent.users (StoreEvent.made front).length rest))) ∧
    (∀ identity,
      (∀ front rest artifact, reached.history = front ++ .ran identity (.ok artifact) :: rest →
        reached.store.get? identity =
          some (artifact.withUsers (StoreEvent.users (StoreEvent.made front).length rest))) ∧
      ((∀ artifact, .ran identity (.ok artifact) ∉ reached.history) →
        reached.store.get? identity = none)) ∧
    (∀ identity result,
      if reached.store.get? identity = none then
        (reached.lookup identity result).1 = (result.map fun _ => .created reached.store.size) ∧
          (reached.lookup identity result).2.history = reached.history ++ [.ran identity result]
      else
        ∃ handle, reached.lookup identity result = (.ok (.existing handle), reached) ∧
          reached.store.artifact? handle = reached.store.get? identity) ∧
    (∀ identity failure,
      (reached.lookup identity (.error failure)).2.store = reached.store) ∧
    (∀ artifact, (reached.push artifact).1 = reached.store.size ∧
      ∀ identity, (reached.push artifact).2.store.get? identity =
        reached.store.get? identity) ∧
    (∀ handle user other, (reached.addUser handle user).2.store.artifact? other =
      (reached.store.artifact? other).map fun artifact =>
        if other = handle then artifact.withUsers [user] else artifact) ∧
    ∀ more, ∃ later, (reached.after more).history = reached.history ++ later ∧
      ∀ handle artifact, reached.store.artifact? handle = some artifact →
        (reached.after more).store.artifact? handle =
          some (artifact.withUsers (StoreEvent.users handle later)) := by
  intro reached
  have reflects : reached.Reflects := StoreSession.reflects_initial.after calls
  refine ⟨⟨reflects.size, reflects.kept⟩, ?_, reflects.lookup_runs, reached.store_lookup_error,
    ?_, reached.artifact?_addUser, reached.after_grows⟩
  · intro identity
    exact ⟨fun _ _ _ split => reflects.get?_of_made split, reflects.get?_of_unmade⟩
  · intro artifact
    exact ⟨rfl, reflects.get?_push artifact⟩

def callsForTheme : List (StoreCall String) :=
  [.lookup ⟨"theme.css"⟩ (.error "unreadable"),
    .lookup ⟨"theme.css"⟩ (.ok (.external ⟨"theme.css"⟩ [1] ⟨"Cart.mxml"⟩)),
    .push (.inlined ⟨"Cart.mxml"⟩ [2]),
    .lookup ⟨"theme.css"⟩ (.ok (.external ⟨"theme.css"⟩ [3] ⟨"Shop.mxml"⟩)),
    .addUser 0 ⟨"Shop.mxml"⟩,
    .addUser 0 ⟨"Cart.mxml"⟩]

theorem theme_made_once :
    let reached := StoreSession.initial.after callsForTheme
    let front : List (StoreEvent String) := [.ran ⟨"theme.css"⟩ (.error "unreadable")]
    let rest : List (StoreEvent String) := [.pushed (.inlined ⟨"Cart.mxml"⟩ [2]),
      .told 0 ⟨"Shop.mxml"⟩, .told 0 ⟨"Cart.mxml"⟩]
    reached.history = front ++
        .ran ⟨"theme.css"⟩ (.ok (.external ⟨"theme.css"⟩ [1] ⟨"Cart.mxml"⟩)) :: rest ∧
      reached.store.size = 2 ∧
      reached.store.get? ⟨"theme.css"⟩ = some
        { file := ⟨"theme.css"⟩, data := [1],
          origin := .external ⟨"Cart.mxml"⟩ [⟨"Shop.mxml"⟩] } ∧
      reached.store.artifact? 0 = reached.store.get? ⟨"theme.css"⟩ ∧
      reached.store.get? ⟨"Cart.mxml"⟩ = none := by
  intro reached front rest
  obtain ⟨⟨size, kept⟩, found, _⟩ := first_creation_wins callsForTheme
  have split : reached.history = front ++
      .ran ⟨"theme.css"⟩ (.ok (.external ⟨"theme.css"⟩ [1] ⟨"Cart.mxml"⟩)) :: rest := by
    rfl
  have theme := (found ⟨"theme.css"⟩).1 front rest _ split
  have first := kept front _ rest _ split rfl
  have page := (found ⟨"Cart.mxml"⟩).2 (by
    intro artifact inside
    have listed : _ ∈ front ++ _ :: rest := split ▸ inside
    simp [front, rest] at listed)
  exact ⟨split, size, theme, first.trans theme.symm, page⟩

end ComponentStyles
