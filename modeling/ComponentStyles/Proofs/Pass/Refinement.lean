import ComponentStyles.Proofs.Artifact.Store
import ComponentStyles.Proofs.Pass.Reference
import ComponentStyles.Proofs.Source.Barrier

/-!
A pass equals its account tag by tag.

The store, its index and the early end of the walk are held to what the tags in front say: every
summary is the one of the account so far, and the index knows the stylesheets of their own that
have compiled.
-/

namespace ComponentStyles

variable {σ : Type}

namespace ArtifactStore

def summaries (store : ArtifactStore) : List ArtifactSummary :=
  store.artifacts.toList.map Artifact.summary

theorem summaries_push (store : ArtifactStore) (artifact : Artifact) :
    (store.push artifact).2.summaries = store.summaries ++ [artifact.summary] := by
  simp only [summaries, push, Array.toList_push, List.map_append, List.map_cons, List.map_nil]

theorem summary_external {artifact : Artifact} (external : artifact.summary.kind = "external") :
    artifact.isExternal = true := by
  cases artifact with
  | mk file data origin =>
      cases origin with
      | external firstUser otherUsers => rfl
      | inlined => simp [Artifact.summary, ArtifactOrigin.kindName] at external
      | defaults => simp [Artifact.summary, ArtifactOrigin.kindName] at external

theorem summary_addUser {artifact : Artifact} (external : artifact.isExternal = true)
    (user : FileId) :
    (artifact.addUser user).2.summary =
      PassReference.gain (some artifact.file) user artifact.summary := by
  have kind : artifact.summary.kind = "external" := Artifact.kindName_of_isExternal external
  unfold PassReference.gain
  rw [if_pos ⟨kind, rfl⟩]
  by_cases known : user ∈ artifact.users
  · rw [Artifact.addUser_of_mem known, PassReference.addOwner]
    have same : user ∈ artifact.summary.users := known
    rw [if_pos same]
  · have new : ¬ user ∈ artifact.summary.users := known
    obtain ⟨file, data, stillExternal, users⟩ := Artifact.addUser_of_not_mem external known
    rw [PassReference.addOwner, if_neg new]
    simp only [Artifact.summary, file, data, users, Artifact.kindName_of_isExternal stillExternal,
      Artifact.kindName_of_isExternal external]

theorem getElem?_summaries (store : ArtifactStore) (handle : Nat) :
    store.summaries[handle]? = (store.artifact? handle).map Artifact.summary := by
  rw [summaries, List.getElem?_map, Array.getElem?_toList]
  rfl

theorem Consistent.gain_other {store : ArtifactStore} (consistent : store.Consistent)
    {identity : FileId} {handle : Nat} {artifact : Artifact}
    (found : store.artifact? handle = some artifact)
    (elsewhere : store.index.get? identity ≠ some handle) (user : FileId) :
    PassReference.gain (some identity) user artifact.summary = artifact.summary := by
  unfold PassReference.gain
  rw [if_neg]
  intro both
  have external := summary_external both.1
  have file : identity = artifact.file := Option.some.inj both.2
  have indexed := consistent.indexed handle artifact found external
  rw [← file] at indexed
  exact elsewhere indexed

theorem Consistent.summaries_absent {store : ArtifactStore} (consistent : store.Consistent)
    {identity : FileId} (absent : store.index.get? identity = none) (user : FileId) :
    store.summaries.map (PassReference.gain (some identity) user) = store.summaries := by
  apply List.ext_getElem?
  intro handle
  rw [List.getElem?_map, getElem?_summaries]
  cases found : store.artifact? handle with
  | none => rfl
  | some artifact =>
      have elsewhere : store.index.get? identity ≠ some handle := by
        rw [absent]
        intro impossible
        cases impossible
      exact congrArg some (consistent.gain_other found elsewhere user)

theorem Consistent.summaries_addUser {store : ArtifactStore} (consistent : store.Consistent)
    {identity : FileId} {handle : Nat} (present : store.index.get? identity = some handle)
    (user : FileId) :
    (store.addUser handle user).2.summaries =
      store.summaries.map (PassReference.gain (some identity) user) := by
  obtain ⟨artifact, found, external, file⟩ := consistent.backed identity handle present
  apply List.ext_getElem?
  intro other
  rw [List.getElem?_map, getElem?_summaries, getElem?_summaries, artifact?_addUser found]
  by_cases same : other = handle
  · rw [if_pos same, same, found]
    have gained := summary_addUser external user
    rw [file] at gained
    exact congrArg some gained
  · rw [if_neg same]
    cases otherFound : store.artifact? other with
    | none => rfl
    | some otherArtifact =>
        have elsewhere : store.index.get? identity ≠ some other := by
          rw [present]
          intro equal
          exact same (Option.some.inj equal).symm
        exact congrArg some (consistent.gain_other otherFound elsewhere user).symm

end ArtifactStore

section Judged

variable {compiler : StyleCompiler σ} {module : ModuleName} {verdict : Document → Verdict}

theorem StyleCompiler.JudgesBy.compiled (judged : compiler.JudgesBy module verdict)
    {sheet : Document} (compiles : verdict sheet = .compiles) (state : σ) :
    ∃ data after, compiler.compile sheet module state = (.ok data, after) := by
  have judgedSheet := judged sheet state
  rw [compiles] at judgedSheet
  cases replied : compiler.compile sheet module state with
  | mk reply after =>
      rw [replied] at judgedSheet
      cases reply with
      | ok data => exact ⟨data, after, rfl⟩
      | error failure => cases failure <;> cases judgedSheet

theorem StyleCompiler.JudgesBy.rejected (judged : compiler.JudgesBy module verdict)
    {sheet : Document} (rejects : verdict sheet = .rejected) (state : σ) :
    ∃ file reason after,
      compiler.compile sheet module state = (.error (.stylesheet file reason), after) := by
  have judgedSheet := judged sheet state
  rw [rejects] at judgedSheet
  cases replied : compiler.compile sheet module state with
  | mk reply after =>
      rw [replied] at judgedSheet
      cases reply with
      | ok data => cases judgedSheet
      | error failure =>
          cases failure with
          | stylesheet file reason => exact ⟨file, reason, after, rfl⟩
          | unknownModule name => cases judgedSheet
          | executorStopped => cases judgedSheet
          | fixture reason => cases judgedSheet
          | unreadable reason => cases judgedSheet
          | malformed reason => cases judgedSheet

theorem StyleCompiler.JudgesBy.aborted (judged : compiler.JudgesBy module verdict)
    {sheet : Document} (aborts : verdict sheet = .aborted) (state : σ) :
    ∃ failure after,
      compiler.compile sheet module state = (.error failure, after) ∧
        ∀ site : StyleSite, site.compileFailure failure = .host failure := by
  have judgedSheet := judged sheet state
  rw [aborts] at judgedSheet
  cases replied : compiler.compile sheet module state with
  | mk reply after =>
      rw [replied] at judgedSheet
      cases reply with
      | ok data => cases judgedSheet
      | error failure =>
          refine ⟨failure, after, rfl, ?_⟩
          intro site
          cases failure with
          | stylesheet file reason => cases judgedSheet
          | unknownModule name => rfl
          | executorStopped => rfl
          | fixture reason => rfl
          | unreadable reason => rfl
          | malformed reason => rfl

end Judged

/-! ### The invariant -/

def PassReference.Located (reference : PassReference) : Prop :=
  ∀ {left right : StyleSite} {leftSheet rightSheet : Document},
    reference.demand left = .shared leftSheet → reference.demand right = .shared rightSheet →
    leftSheet.file = rightSheet.file → leftSheet = rightSheet

structure Reflects (reference : PassReference) (earlier : List StyleSite)
    (replies : List (Option SheetReply)) (store : ArtifactStore) : Prop where
  consistent : store.Consistent
  aligned : replies.length = earlier.length
  summaries : store.summaries = reference.artifacts earlier replies
  index : ∀ identity, (store.index.get? identity).isSome = true ↔
    ∃ site ∈ earlier, ∃ sheet, reference.demand site = .shared sheet ∧
      sheet.file = identity ∧ reference.verdict sheet = .compiles

theorem reflects_empty (reference : PassReference) : Reflects reference [] [] .empty := by
  refine ⟨ArtifactStore.consistent_empty, rfl, rfl, ?_⟩
  intro identity
  simp [ArtifactStore.empty]

section Step

variable {reference : PassReference} {earlier : List StyleSite}
  {replies : List (Option SheetReply)} {before after : ArtifactStore}

/-- One more tag, with what it does to the summaries and to the index. -/
theorem Reflects.concat (reflects : Reflects reference earlier replies before) {site : StyleSite}
    (reply : Option SheetReply) (consistent : after.Consistent)
    (summaries : after.summaries =
      before.summaries.map
          (PassReference.gain (reference.demand site).identity? site.document.file) ++
        (reference.artifact? (earlier ++ [site]) { earlier, site } reply).toList)
    (index : ∀ identity, (after.index.get? identity).isSome = true ↔
      (before.index.get? identity).isSome = true ∨
        ∃ sheet, reference.demand site = .shared sheet ∧ sheet.file = identity ∧
          reference.verdict sheet = .compiles) :
    Reflects reference (earlier ++ [site]) (replies ++ [reply]) after := by
  refine ⟨consistent, ?_, ?_, ?_⟩
  · rw [List.length_append, List.length_append, reflects.aligned]
    rfl
  · rw [summaries, reflects.summaries, reference.artifacts_concat earlier site reflects.aligned]
  · intro identity
    rw [index, reflects.index]
    constructor
    · rintro (⟨other, inside, known⟩ | known)
      · exact ⟨other, List.mem_append_left [site] inside, known⟩
      · exact ⟨site, List.mem_append_right earlier (List.mem_singleton.mpr rfl), known⟩
    · rintro ⟨other, inside, known⟩
      rcases List.mem_append.mp inside with inside | last
      · exact Or.inl ⟨other, inside, known⟩
      · rw [List.mem_singleton] at last
        rw [last] at known
        exact Or.inr known

theorem Reflects.unchanged (reflects : Reflects reference earlier replies before)
    {site : StyleSite} (reply : Option SheetReply)
    (kept : before.summaries.map
        (PassReference.gain (reference.demand site).identity? site.document.file) =
      before.summaries)
    (silent : reference.artifact? (earlier ++ [site]) { earlier, site } reply = none)
    (unknown : ∀ sheet, reference.demand site = .shared sheet →
      reference.verdict sheet ≠ .compiles) :
    Reflects reference (earlier ++ [site]) (replies ++ [reply]) before := by
  refine reflects.concat reply reflects.consistent ?_ ?_
  · rw [kept, silent, Option.toList_none, List.append_nil]
  · intro identity
    constructor
    · intro known
      exact Or.inl known
    · rintro (known | ⟨sheet, demand, _file, compiles⟩)
      · exact known
      · exact absurd compiles (unknown sheet demand)

theorem Reflects.embedded (reflects : Reflects reference earlier replies before)
    {site : StyleSite} {sheet : Document} (demand : reference.demand site = .embedded sheet)
    (compiles : reference.verdict sheet = .compiles) (data : List UInt8) :
    Reflects reference (earlier ++ [site]) (replies ++ [some (.ok data)])
      (before.push (.inlined (Project.hostingFile sheet) data)).2 := by
  refine reflects.concat _ (reflects.consistent.push_inlined _ data) ?_ ?_
  · have identity : (reference.demand site).identity? = none := by
      rw [demand]
      rfl
    rw [ArtifactStore.summaries_push, identity, PassReference.map_gain_none]
    simp only [PassReference.artifact?, demand, compiles, if_true]
    rfl
  · intro identity
    rw [demand]
    constructor
    · intro known
      exact Or.inl known
    · rintro (known | ⟨other, impossible, _⟩)
      · exact known
      · cases impossible

theorem Reflects.made (reflects : Reflects reference earlier replies before)
    {site : StyleSite} {sheet : Document} (demand : reference.demand site = .shared sheet)
    (compiles : reference.verdict sheet = .compiles)
    (first : earlier.any (reference.refersTo sheet.file) = false)
    (absent : before.index.get? sheet.file = none) (data : List UInt8) :
    Reflects reference (earlier ++ [site]) (replies ++ [some (.ok data)])
      (before.pushUnder sheet.file (.external sheet.file data site.document.file)).2 := by
  refine reflects.concat _
    (reflects.consistent.pushUnder_external absent data site.document.file) ?_ ?_
  · have pushed : (before.pushUnder sheet.file
          (.external sheet.file data site.document.file)).2.summaries =
        before.summaries ++ [(Artifact.external sheet.file data site.document.file).summary] :=
      before.summaries_push (.external sheet.file data site.document.file)
    have refers : reference.refersTo sheet.file site = true := by
      rw [PassReference.refersTo, demand]
      exact beq_self_eq_true _
    have owners : reference.owners (earlier ++ [site]) sheet.file = [site.document.file] := by
      rw [reference.owners_concat, if_pos refers, reference.owners_eq_nil first]
      rfl
    rw [pushed, demand, SheetDemand.identity?, reflects.consistent.summaries_absent absent]
    simp only [PassReference.artifact?, demand, compiles, first, and_self, if_true, owners]
    rfl
  · intro identity
    change ((before.index.put sheet.file before.size).get? identity).isSome = true ↔ _
    rw [Table.get?_put, demand]
    by_cases same : sheet.file = identity
    · rw [if_pos same]
      exact iff_of_true rfl (Or.inr ⟨sheet, rfl, same, compiles⟩)
    · rw [if_neg same]
      constructor
      · intro known
        exact Or.inl known
      · rintro (known | ⟨other, equal, file, _⟩)
        · exact known
        · cases equal
          exact absurd file same

theorem Reflects.referred (reflects : Reflects reference earlier replies before)
    {site : StyleSite} {sheet : Document} (demand : reference.demand site = .shared sheet)
    (known : earlier.any (reference.refersTo sheet.file) = true) {handle : Nat}
    (present : before.index.get? sheet.file = some handle) :
    Reflects reference (earlier ++ [site]) (replies ++ [none])
      (before.addUser handle site.document.file).2 := by
  obtain ⟨artifact, found, _external, _file⟩ :=
    reflects.consistent.backed sheet.file handle present
  refine reflects.concat _ (reflects.consistent.addUser present site.document.file) ?_ ?_
  · rw [reflects.consistent.summaries_addUser present, demand, SheetDemand.identity?]
    simp [PassReference.artifact?, demand, known]
  · intro identity
    rw [ArtifactStore.addUser_eq found, demand]
    constructor
    · intro indexed
      exact Or.inl indexed
    · rintro (indexed | ⟨other, equal, file, _⟩)
      · exact indexed
      · cases equal
        rw [← file, present]
        rfl

/-- The index has the stylesheets of their own that compiled for a tag in front. -/
theorem Reflects.isSome_index (reflects : Reflects reference earlier replies before)
    (located : reference.Located) {site : StyleSite} {sheet : Document}
    (demand : reference.demand site = .shared sheet) :
    (before.index.get? sheet.file).isSome = true ↔
      reference.verdict sheet = .compiles ∧
        earlier.any (reference.refersTo sheet.file) = true := by
  rw [reflects.index, List.any_eq_true]
  constructor
  · rintro ⟨other, inside, otherSheet, otherDemand, file, compiles⟩
    have same := located otherDemand demand file
    rw [same] at compiles
    refine ⟨compiles, other, inside, ?_⟩
    rw [PassReference.refersTo, otherDemand, SheetDemand.identity?, file]
    exact beq_self_eq_true _
  · rintro ⟨compiles, other, inside, refers⟩
    rw [PassReference.refersTo, beq_iff_eq] at refers
    cases otherDemand : reference.demand other with
    | shared otherSheet =>
        rw [otherDemand] at refers
        have file : otherSheet.file = sheet.file := Option.some.inj refers
        have same := located otherDemand demand file
        rw [← same] at compiles
        exact ⟨other, inside, otherSheet, otherDemand, file, compiles⟩
    | nothing => rw [otherDemand] at refers; cases refers
    | unusable invalid => rw [otherDemand] at refers; cases refers
    | broken failure => rw [otherDemand] at refers; cases refers
    | embedded otherSheet => rw [otherDemand] at refers; cases refers

end Step

namespace ResolutionContext

def reference (context : ResolutionContext σ) (verdict : Document → Verdict) : PassReference :=
  { demand := context.demand, verdict }

variable {context : ResolutionContext σ} {verdict : Document → Verdict}

theorem reference_located : (context.reference verdict).Located := by
  intro left right leftSheet rightSheet leftDemand rightDemand file
  have leftStored := StyleSite.document?_of_shared leftDemand
  have rightStored := StyleSite.document?_of_shared rightDemand
  rw [file, rightStored] at leftStored
  exact (Option.some.inj leftStored).symm

def StepsAs (context : ResolutionContext σ) (reference : PassReference)
    (earlier : List StyleSite) (replies : List (Option SheetReply)) (site : StyleSite)
    (rest : List StyleSite) (resolution : Resolution σ) (problems : Array Problem) : Prop :=
  let stop : StyleStop := { earlier, site }
  let answer := context.compiler.reply context.module (reference.asked? stop)
    resolution.compilerState
  (reference.aborts site = true ∧
    ∃ failure after,
      context.resolveSites (site :: rest) resolution problems = (.error failure, after, problems)) ∨
  (reference.aborts site = false ∧
    ∃ after found,
      context.resolveSites (site :: rest) resolution problems =
          context.resolveSites rest after found ∧
        found.toList = problems.toList ++ (reference.problem? stop answer.1).toList ∧
        after.compilerState = answer.2 ∧
        Reflects reference (earlier ++ [site]) (replies ++ [answer.1]) after.store)

section Cases

variable {earlier : List StyleSite} {replies : List (Option SheetReply)} {site : StyleSite}
  {resolution : Resolution σ}

theorem reflects_idle
    (reflects : Reflects (context.reference verdict) earlier replies resolution.store)
    (identity : ((context.reference verdict).demand site).identity? = none)
    (reply : Option SheetReply)
    (silent : (context.reference verdict).artifact? (earlier ++ [site]) { earlier, site } reply =
      none) :
    Reflects (context.reference verdict) (earlier ++ [site]) (replies ++ [reply])
      resolution.store := by
  refine reflects.unchanged reply ?_ silent ?_
  · rw [identity, PassReference.map_gain_none]
  · intro sheet shared
    rw [shared] at identity
    cases identity

theorem stepsAs_nothing
    (reflects : Reflects (context.reference verdict) earlier replies resolution.store)
    (demand : (context.reference verdict).demand site = .nothing) (rest : List StyleSite)
    (problems : Array Problem) :
    context.StepsAs (context.reference verdict) earlier replies site rest resolution problems := by
  have resolved : context.resolve site.document site.tag resolution = (.ok none, resolution) := by
    have asked : context.demand site = .nothing := demand
    rw [context.resolve_eq, asked]
  refine Or.inr ⟨?_, resolution, problems, resolveSites_ok resolved rest problems, ?_, ?_, ?_⟩
  · simp only [PassReference.aborts, demand]
  · simp only [PassReference.problem?, demand, Option.toList_none, List.append_nil]
  · simp only [PassReference.asked?, demand, StyleCompiler.reply]
  · refine reflects_idle reflects ?_ _ ?_
    · rw [demand]
      rfl
    · simp only [PassReference.artifact?, demand]

theorem stepsAs_unusable
    (reflects : Reflects (context.reference verdict) earlier replies resolution.store)
    {invalid : InvalidProperty}
    (demand : (context.reference verdict).demand site = .unusable invalid)
    (rest : List StyleSite) (problems : Array Problem) :
    context.StepsAs (context.reference verdict) earlier replies site rest resolution problems := by
  have resolved : context.resolve site.document site.tag resolution =
      (.error (.property invalid), resolution) := by
    have asked : context.demand site = .unusable invalid := demand
    rw [context.resolve_eq, asked]
  refine Or.inr ⟨?_, resolution, problems.push (site.problem invalid),
    resolveSites_property resolved rest problems, ?_, ?_, ?_⟩
  · simp only [PassReference.aborts, demand]
  · simp only [PassReference.problem?, demand, Option.toList_some, Array.toList_push]
  · simp only [PassReference.asked?, demand, StyleCompiler.reply]
  · refine reflects_idle reflects ?_ _ ?_
    · rw [demand]
      rfl
    · simp only [PassReference.artifact?, demand]

theorem stepsAs_broken {failure : PassFailure}
    (demand : (context.reference verdict).demand site = .broken failure) (rest : List StyleSite)
    (problems : Array Problem) :
    context.StepsAs (context.reference verdict) earlier replies site rest resolution problems := by
  have asked : context.demand site = .broken failure := demand
  have resolved : context.resolve site.document site.tag resolution =
      (.error failure, resolution) := by
    rw [context.resolve_eq, asked]
  have fatal := StyleSite.not_property_of_broken asked
  refine Or.inl ⟨?_, failure, resolution, resolveSites_failure resolved fatal rest problems⟩
  simp only [PassReference.aborts, demand]

theorem stepsAs_failed (judged : context.compiler.JudgesBy context.module verdict)
    (reflects : Reflects (context.reference verdict) earlier replies resolution.store)
    {sheet : Document}
    (demand : (context.reference verdict).demand site = .shared sheet ∨
      (context.reference verdict).demand site = .embedded sheet)
    (requested : (context.reference verdict).asked? { earlier, site } = some sheet)
    (failing : (context.reference verdict).verdict sheet ≠ .compiles)
    (kept : resolution.store.summaries.map (PassReference.gain
        ((context.reference verdict).demand site).identity? site.document.file) =
      resolution.store.summaries)
    (resolved : ∀ failure after,
      context.compiler.compile sheet context.module resolution.compilerState =
          (.error failure, after) →
        context.resolve site.document site.tag resolution =
          (.error (site.compileFailure failure), { resolution with compilerState := after }))
    (rest : List StyleSite) (problems : Array Problem) :
    context.StepsAs (context.reference verdict) earlier replies site rest resolution problems := by
  unfold StepsAs
  simp only [requested, StyleCompiler.reply]
  cases judgment : (context.reference verdict).verdict sheet with
  | compiles => exact absurd judgment failing
  | rejected =>
      obtain ⟨file, reason, after, compiled⟩ := judged.rejected judgment resolution.compilerState
      have answered := resolved _ after compiled
      rw [compiled]
      refine Or.inr ⟨?_, _, _, resolveSites_property answered rest problems, ?_, rfl, ?_⟩
      · rcases demand with demand | demand <;>
          simp [PassReference.aborts, demand, judgment]
      · rcases demand with demand | demand <;>
          simp [PassReference.problem?, demand, judgment, rejectionOf]
      · refine reflects.unchanged _ kept ?_ ?_
        · rcases demand with demand | demand <;>
            simp [PassReference.artifact?, demand, judgment]
        · intro other shared compiles
          rcases demand with demand | demand
          · rw [demand] at shared
            cases shared
            exact failing compiles
          · rw [demand] at shared
            cases shared
  | aborted =>
      obtain ⟨failure, after, compiled, fatal⟩ := judged.aborted judgment resolution.compilerState
      have answered := resolved failure after compiled
      rw [fatal site] at answered
      refine Or.inl ⟨?_, _, _, resolveSites_failure answered ?_ rest problems⟩
      · rcases demand with demand | demand <;>
          simp [PassReference.aborts, demand, judgment]
      · intro invalid impossible
        cases impossible

theorem stepsAs_embedded (judged : context.compiler.JudgesBy context.module verdict)
    (reflects : Reflects (context.reference verdict) earlier replies resolution.store)
    {sheet : Document} (demand : (context.reference verdict).demand site = .embedded sheet)
    (rest : List StyleSite) (problems : Array Problem) :
    context.StepsAs (context.reference verdict) earlier replies site rest resolution problems := by
  have resolved : context.resolve site.document site.tag resolution =
      context.resolveEmbedded site sheet resolution := by
    have asked : context.demand site = .embedded sheet := demand
    rw [context.resolve_eq, asked]
  have requested : (context.reference verdict).asked? { earlier, site } = some sheet := by
    simp only [PassReference.asked?, demand]
  by_cases compiles : (context.reference verdict).verdict sheet = .compiles
  · obtain ⟨data, after, compiled⟩ := judged.compiled compiles resolution.compilerState
    simp only [resolveEmbedded, compiled] at resolved
    unfold StepsAs
    simp only [requested, StyleCompiler.reply, compiled]
    refine Or.inr ⟨?_, _, problems, resolveSites_ok resolved rest problems, ?_, rfl, ?_⟩
    · simp [PassReference.aborts, demand, compiles]
    · simp [PassReference.problem?, demand, compiles]
    · exact reflects.embedded demand compiles data
  · refine stepsAs_failed judged reflects (Or.inr demand) requested compiles ?_ ?_ rest problems
    · have identity : ((context.reference verdict).demand site).identity? = none := by
        rw [demand]
        rfl
      rw [identity, PassReference.map_gain_none]
    · intro failure after compiled
      rw [resolved]
      simp only [resolveEmbedded, compiled]

theorem stepsAs_shared (judged : context.compiler.JudgesBy context.module verdict)
    (reflects : Reflects (context.reference verdict) earlier replies resolution.store)
    {sheet : Document} (demand : (context.reference verdict).demand site = .shared sheet)
    (rest : List StyleSite) (problems : Array Problem) :
    context.StepsAs (context.reference verdict) earlier replies site rest resolution problems := by
  have resolved : context.resolve site.document site.tag resolution =
      context.resolveShared site sheet resolution := by
    have asked : context.demand site = .shared sheet := demand
    rw [context.resolve_eq, asked]
  have indexed := reflects.isSome_index reference_located demand
  cases present : resolution.store.index.get? sheet.file with
  | some handle =>
      rw [present] at indexed
      obtain ⟨compiles, known⟩ := indexed.mp rfl
      simp only [resolveShared, present] at resolved
      have requested : (context.reference verdict).asked? { earlier, site } = none := by
        simp only [PassReference.asked?, demand, compiles, known, and_self, if_true]
      unfold StepsAs
      simp only [requested, StyleCompiler.reply]
      refine Or.inr ⟨?_, _, problems, resolveSites_ok resolved rest problems, ?_, rfl, ?_⟩
      · simp [PassReference.aborts, demand, compiles]
      · simp [PassReference.problem?, demand, compiles]
      · exact reflects.referred demand known present
  | none =>
      rw [present] at indexed
      have unknown : ¬ ((context.reference verdict).verdict sheet = .compiles ∧
          earlier.any ((context.reference verdict).refersTo sheet.file) = true) :=
        fun both => Bool.false_ne_true (indexed.mpr both)
      have requested : (context.reference verdict).asked? { earlier, site } = some sheet := by
        simp only [PassReference.asked?, demand, unknown, if_false]
      by_cases compiles : (context.reference verdict).verdict sheet = .compiles
      · obtain ⟨data, after, compiled⟩ := judged.compiled compiles resolution.compilerState
        simp only [resolveShared, present, compiled] at resolved
        have first : earlier.any ((context.reference verdict).refersTo sheet.file) = false := by
          rw [Bool.eq_false_iff]
          intro known
          exact unknown ⟨compiles, known⟩
        unfold StepsAs
        simp only [requested, StyleCompiler.reply, compiled]
        refine Or.inr ⟨?_, _, problems, resolveSites_ok resolved rest problems, ?_, rfl, ?_⟩
        · simp [PassReference.aborts, demand, compiles]
        · simp [PassReference.problem?, demand, compiles]
        · exact reflects.made demand compiles first present data
      · refine stepsAs_failed judged reflects (Or.inl demand) requested compiles ?_ ?_ rest problems
        · rw [demand]
          exact reflects.consistent.summaries_absent present site.document.file
        · intro failure after compiled
          rw [resolved]
          simp only [resolveShared, present, compiled]

theorem stepsAs_site (judged : context.compiler.JudgesBy context.module verdict)
    (reflects : Reflects (context.reference verdict) earlier replies resolution.store)
    (rest : List StyleSite) (problems : Array Problem) :
    context.StepsAs (context.reference verdict) earlier replies site rest resolution problems := by
  cases demand : (context.reference verdict).demand site with
  | nothing => exact stepsAs_nothing reflects demand rest problems
  | unusable invalid => exact stepsAs_unusable reflects demand rest problems
  | broken failure => exact stepsAs_broken demand rest problems
  | shared sheet => exact stepsAs_shared judged reflects demand rest problems
  | embedded sheet => exact stepsAs_embedded judged reflects demand rest problems

end Cases

/-- The walk over further tags: it ends early when one of them ends the pass, and otherwise goes
on as the account says. -/
theorem resolveSites_reference (judged : context.compiler.JudgesBy context.module verdict)
    (sites : List StyleSite) {earlier : List StyleSite} {replies : List (Option SheetReply)}
    {resolution : Resolution σ}
    (reflects : Reflects (context.reference verdict) earlier replies resolution.store)
    (problems : Array Problem) :
    let answers := context.compiler.replies context.module
      ((context.reference verdict).requests earlier sites) resolution.compilerState
    ((∃ site ∈ sites, (context.reference verdict).aborts site = true) ∧
      ∃ failure after found,
        context.resolveSites sites resolution problems = (.error failure, after, found)) ∨
    ((∀ site ∈ sites, (context.reference verdict).aborts site = false) ∧
      ∃ after found,
        context.resolveSites sites resolution problems = (.ok (), after, found) ∧
          found.toList =
            problems.toList ++ (context.reference verdict).problems earlier sites answers.1 ∧
          after.compilerState = answers.2 ∧
          Reflects (context.reference verdict) (earlier ++ sites) (replies ++ answers.1)
            after.store) := by
  intro answers
  -- The induction is on the tags still to come; `Reflects` carries those in front of them.
  induction sites generalizing earlier replies resolution problems with
  | nil =>
      refine Or.inr ⟨?_, resolution, problems, rfl, ?_, rfl, ?_⟩
      · intro site inside
        cases inside
      · exact (List.append_nil problems.toList).symm
      · have nothing : answers.1 = [] := rfl
        rw [nothing, List.append_nil, List.append_nil]
        exact reflects
  | cons site rest inductionHypothesis =>
      have shape : answers =
          (let answer := context.compiler.reply context.module
              ((context.reference verdict).asked? { earlier, site }) resolution.compilerState
           let later := context.compiler.replies context.module
              ((context.reference verdict).requests (earlier ++ [site]) rest) answer.2
           (answer.1 :: later.1, later.2)) := rfl
      rcases stepsAs_site judged reflects rest problems with
        ⟨aborts, failure, after, ended⟩ | ⟨goesOn, after, found, continued, told, state, stepped⟩
      · exact Or.inl ⟨⟨site, List.mem_cons_self, aborts⟩, failure, after, problems, ended⟩
      · have later := inductionHypothesis stepped found
        rw [state] at later
        rw [continued, shape]
        rcases later with
          ⟨⟨other, inside, aborts⟩, ended⟩ | ⟨others, last, all, walked, toldAll, final, holds⟩
        · exact Or.inl ⟨⟨other, List.mem_cons_of_mem site inside, aborts⟩, ended⟩
        · refine Or.inr ⟨?_, last, all, walked, ?_, final, ?_⟩
          · intro other inside
            rcases List.mem_cons.mp inside with same | inside
            · rw [same]
              exact goesOn
            · exact others other inside
          · rw [toldAll, told, PassReference.problems_cons, List.append_assoc]
          · rw [List.append_assoc, List.append_assoc] at holds
            exact holds

end ResolutionContext

end ComponentStyles
