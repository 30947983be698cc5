import ComponentStyles.Proofs.Pass.Hosting

/-!
How often a style tag counts.

Every visit of a tag makes one artifact or one problem at most.  A tag is visited once for each
component behind its document, so it counts once exactly as far as documents and components go
together one to one.
-/

namespace ComponentStyles

variable {σ : Type}

theorem countP_add_countP_le {α : Type} {left right whole : α → Bool} {items : List α}
    (inLeft : ∀ item ∈ items, left item = true → whole item = true)
    (inRight : ∀ item ∈ items, right item = true → whole item = true)
    (apart : ∀ item ∈ items, left item = true → right item = false) :
    items.countP left + items.countP right ≤ items.countP whole := by
  induction items with
  | nil => exact Nat.le_refl 0
  | cons item rest inductionHypothesis =>
      have others := inductionHypothesis
        (fun other behind => inLeft other (List.mem_cons_of_mem item behind))
        (fun other behind => inRight other (List.mem_cons_of_mem item behind))
        (fun other behind => apart other (List.mem_cons_of_mem item behind))
      have first := inLeft item List.mem_cons_self
      have second := inRight item List.mem_cons_self
      have either := apart item List.mem_cons_self
      simp only [List.countP_cons]
      grind

/-- No user that is added changes the answer. -/
def Artifact.Stable (asked : Artifact → Bool) : Prop :=
  ∀ (artifact : Artifact) (user : FileId), asked (artifact.addUser user).2 = asked artifact

def ArtifactStore.count (store : ArtifactStore) (asked : Artifact → Bool) : Nat :=
  store.artifacts.toList.countP asked

theorem ArtifactStore.count_push (store : ArtifactStore) (asked : Artifact → Bool)
    (artifact : Artifact) :
    (store.push artifact).2.count asked =
      store.count asked + if asked artifact = true then 1 else 0 := by
  unfold count push
  rw [Array.toList_push, List.countP_append, List.countP_singleton]

theorem ArtifactStore.count_addUser {asked : Artifact → Bool} (stable : Artifact.Stable asked)
    (store : ArtifactStore) (handle : Nat) (user : FileId) :
    (store.addUser handle user).2.count asked = store.count asked := by
  unfold addUser
  cases found : store.artifact? handle with
  | none => rfl
  | some artifact =>
      obtain ⟨inside, same⟩ := Array.getElem?_eq_some_iff.mp found
      have unchanged := stable artifact user
      have listed : store.artifacts.toList[handle] = artifact := by
        rw [Array.getElem_toList]
        exact same
      have counted : asked artifact = true → 0 < store.artifacts.toList.countP asked := by
        intro holds
        rw [List.countP_pos_iff]
        exact ⟨artifact, listed ▸ List.getElem_mem _, holds⟩
      simp only [count, Array.toList_setIfInBounds]
      -- One entry is replaced by another with the same answer, so the count is as before.
      rw [List.countP_set inside, listed, unchanged]
      split
      · rename_i holds
        have positive := counted holds
        omega
      · rfl

section Visited

variable {asked : Artifact → Bool}

theorem Visit.count (stable : Artifact.Stable asked) {visit : Visit σ}
    (step : StoreStep visit.site.document.file visit.before.store visit.answer
      visit.after.store) :
    visit.after.store.count asked =
      visit.before.store.count asked + if visit.artifact?.any asked = true then 1 else 0 := by
  unfold artifact?
  generalize visit.after.store = after at step ⊢
  generalize visit.answer = answer at step ⊢
  cases step with
  | failed failure => rfl
  | idle => rfl
  | inlined file data =>
      simp only [ArtifactStore.artifact?_push_size, ArtifactStore.count_push, Option.any_some]
  | made identity data absent =>
      have found : (visit.before.store.pushUnder identity
          (.external identity data visit.site.document.file)).2.artifact?
            visit.before.store.size = some (.external identity data visit.site.document.file) :=
        ArtifactStore.artifact?_push_size _ _
      simp only [found, Option.any_some]
      exact ArtifactStore.count_push _ asked _
  | referred identity handle present => exact ArtifactStore.count_addUser stable _ handle _

theorem ResolutionContext.count_visits (context : ResolutionContext σ)
    (stable : Artifact.Stable asked) (sites : List StyleSite) (resolution : Resolution σ) :
    (context.resolveAll sites resolution).store.count asked =
      resolution.store.count asked +
        (context.visits sites resolution).countP fun visit => visit.artifact?.any asked := by
  induction sites generalizing resolution with
  | nil => rfl
  | cons site rest inductionHypothesis =>
      let first : Visit σ :=
        { site
          before := resolution
          answer := (context.resolve site.document site.tag resolution).1
          after := (context.resolve site.document site.tag resolution).2 }
      have counted : first.after.store.count asked = resolution.store.count asked +
          if first.artifact?.any asked = true then 1 else 0 :=
        first.count stable (context.resolve_storeStep site resolution)
      have visited : context.visits (site :: rest) resolution =
          first :: context.visits rest first.after := rfl
      have behind : context.resolveAll (site :: rest) resolution =
          context.resolveAll rest first.after := rfl
      rw [behind, inductionHypothesis first.after, counted, visited, List.countP_cons]
      omega

end Visited

section Sites

variable {fixture : Fixture} {style : StyleTagSettings} {declared : ComponentClass}
  {document : Document}

theorem sitesOf_backed (stored : fixture.project.document? document.file = some document)
    (filed : declared.file = some document.file) :
    fixture.project.sitesOf style declared =
      (style.tagsOf document).map fun tag => { document, tag } := by
  unfold Project.sitesOf
  cases backed : fixture.project.backingDocument? declared with
  | some other =>
      obtain ⟨file, otherFiled, found, _⟩ := Project.backingDocument?_eq_some.mp backed
      rw [filed] at otherFiled
      cases otherFiled
      rw [stored] at found
      cases found
      rfl
  | none =>
      -- Nothing stands under the root of a document that is not taken, or it is not markup.
      have untagged : style.tagsOf document = [] := by
        rw [List.eq_nil_iff_forall_not_mem]
        intro tag inside
        obtain ⟨root, rooted, child⟩ := child_of_mem_tagsOf inside
        obtain ⟨markup, _⟩ := Fixture.numbered_of_root stored rooted
        have suitable := Project.backingDocument?_eq_some.mpr
          ⟨document.file, filed, stored, root, rooted, markup, List.ne_nil_of_mem child⟩
        rw [backed] at suitable
        cases suitable
      rw [untagged, List.map_nil]

theorem file_of_mem_sitesOf {project : Project} {site : StyleSite}
    (inside : site ∈ project.sitesOf style declared) :
    declared.file = some site.document.file := by
  obtain ⟨⟨file, filed, found⟩, _⟩ := Project.mem_sitesOf.mp inside
  rw [filed, Project.file_of_document? found]

/-- Tags of a document are visited once for each class behind it. -/
theorem countP_styleSites (stored : fixture.project.document? document.file = some document)
    {asked : StyleSite → Bool}
    (own : ∀ site, asked site = true → site.document.file = document.file)
    (classes : List ComponentClass) :
    (fixture.project.styleSites style classes).countP asked =
      classes.countP (fun declared => declared.file == some document.file) *
        (style.tagsOf document).countP fun tag => asked { document, tag } := by
  induction classes with
  | nil => rw [List.countP_nil, Nat.zero_mul]; rfl
  | cons declared rest inductionHypothesis =>
      have split : fixture.project.styleSites style (declared :: rest) =
          fixture.project.sitesOf style declared ++ fixture.project.styleSites style rest := rfl
      rw [split, List.countP_append, inductionHypothesis, List.countP_cons]
      by_cases filed : declared.file = some document.file
      · rw [sitesOf_backed stored filed, List.countP_map, if_pos (beq_iff_eq.mpr filed),
          Nat.add_mul, Nat.one_mul, Nat.add_comm]
        rfl
      · have none : (fixture.project.sitesOf style declared).countP asked = 0 := by
          rw [List.countP_eq_zero]
          intro site inside holds
          rw [file_of_mem_sitesOf inside, own site holds] at filed
          exact filed rfl
        have other : ¬ (declared.file == some document.file) = true :=
          fun equal => filed (beq_iff_eq.mp equal)
        rw [none, if_neg other, Nat.zero_add, Nat.add_zero]

theorem countP_tagsOf_id (stored : fixture.project.document? document.file = some document)
    {tag : Element} (inside : tag ∈ style.tagsOf document) :
    (style.tagsOf document).countP (fun other => other.id == tag.id) = 1 := by
  obtain ⟨root, rooted, _⟩ := child_of_mem_tagsOf inside
  obtain ⟨_, element, numbered⟩ := Fixture.numbered_of_root stored rooted
  have listed : (style.tagsOf document).Sublist root.children := by
    unfold StyleTagSettings.tagsOf
    rw [rooted]
    exact List.filter_sublist
  have distinct : ((style.tagsOf document).map Element.id).Nodup := by
    apply List.Nodup.sublist (listed.map Element.id)
    rw [numbered]
    cases element
    rw [Element.numbered]
    exact Element.nodup_ids_numberedAll _ _
  have once := List.nodup_iff_count_eq_one.mp distinct tag.id (List.mem_map_of_mem inside)
  rw [List.count, List.countP_map] at once
  exact once

end Sites

/-! ### What a tag contributes -/

def Artifact.inlinedUnder (file : FileId) (artifact : Artifact) : Bool :=
  artifact.origin == .inlined && artifact.file == file

theorem Artifact.stable_inlinedUnder (file : FileId) : Stable (inlinedUnder file) := by
  intro artifact user
  cases artifact with
  | mk own data origin =>
      cases origin with
      | external firstUser otherUsers =>
          simp only [addUser]
          split <;> rfl
      | inlined => rfl
      | defaults => rfl

theorem Visit.front_of_inlined {context : ResolutionContext σ} {sites : List StyleSite}
    {resolution : Resolution σ} {visit : Visit σ} (plain : context.project.overrides = [])
    (inside : visit ∈ context.visits sites resolution) {artifact : Artifact}
    (made : visit.artifact? = some artifact) (inlined : artifact.origin = .inlined) :
    artifact.file = visit.site.document.file.front := by
  have step := ResolutionContext.tagStep_of_mem_visits inside
  unfold artifact? at made
  generalize visit.answer = answer at step made
  generalize visit.after = after at step made
  cases step with
  | embedded sheet data state asked _compiled =>
      dsimp only at made
      rw [ArtifactStore.artifact?_push_size, Option.some.injEq] at made
      rw [← made]
      exact (congrArg FileId.front (file_of_embedded plain asked)).trans
        (Project.front_fragmentFile visit.site.host)
  | created sheet data state asked _compiled =>
      dsimp only at made
      rw [ArtifactStore.artifact?_pushUnder, if_pos rfl, Option.some.injEq] at made
      rw [← made] at inlined
      cases inlined
  | nothing asked => cases made
  | unusable invalid asked => cases made
  | broken failure asked => cases made
  | referred sheet handle asked present => cases made
  | failed sheet failure state asked compiled => cases made

theorem Visit.file_of_problem {visit : Visit σ} {problem : Problem}
    (told : visit.problem? = some problem) : problem.file = visit.site.document.file := by
  unfold problem? at told
  split at told
  · cases told
    rfl
  · cases told

theorem Visit.one_contribution (visit : Visit σ) :
    visit.artifact? = none ∨ visit.problem? = none := by
  unfold artifact? problem?
  cases visit.answer with
  | ok handle? => exact Or.inr rfl
  | error failure => exact Or.inl rfl

theorem collect_countP {host : Host} {settings : Settings} {compiler : StyleCompiler σ}
    {module : ModuleName} {found : ComponentModule} {sdk : String} {state : σ} {log : ProblemLog}
    {thread : Nat} {events : List SourceEvent} {outcome : PassOutcome σ}
    {result : Option (List Artifact)} (known : host.project.module? module = some found)
    (application : found.nature = .application)
    (collected : host.collect settings compiler module sdk state log thread events = some outcome)
    (ok : outcome.result = .ok result) {asked : Artifact → Bool}
    (stable : Artifact.Stable asked) :
    (result.getD []).countP asked =
      (host.project.visits settings compiler module sdk state).countP fun visit =>
        visit.artifact?.any asked := by
  have made := (collect_visits known application collected ok).1
  have counted := (host.project.context settings compiler module).count_visits stable
    (host.project.styleSites settings.style
      (host.project.visitedComponents settings module sdk)) (.start state)
  have empty : (Resolution.start state).store.count asked = 0 := rfl
  rw [empty, Nat.zero_add] at counted
  rw [made]
  exact counted

section Fixtures

variable {fixture : Fixture} {settings : Settings} {compiler : StyleCompiler σ}
  {module : ModuleName} {sdk : String} {state : σ} {document : Document}

theorem countP_visits_site
    (stored : fixture.project.document? document.file = some document)
    {asked : StyleSite → Bool}
    (own : ∀ site, asked site = true → site.document.file = document.file) :
    (fixture.project.visits settings compiler module sdk state).countP
        (fun visit => asked visit.site) =
      (fixture.project.visitedComponents settings module sdk).countP
          (fun declared => declared.file == some document.file) *
        (settings.style.tagsOf document).countP fun tag => asked { document, tag } := by
  have visited := ResolutionContext.map_site_visits
    (fixture.project.context settings compiler module)
    (fixture.project.styleSites settings.style
      (fixture.project.visitedComponents settings module sdk)) (.start state)
  rw [← countP_styleSites stored own, ← visited, List.countP_map]
  rfl

theorem stored_of_mem_visits {visit : Visit σ}
    (inside : visit ∈ fixture.project.visits settings compiler module sdk state) :
    fixture.project.document? visit.site.document.file = some visit.site.document := by
  have among := List.mem_map_of_mem (f := Visit.site) inside
  unfold Project.visits at among
  rw [ResolutionContext.map_site_visits] at among
  obtain ⟨declared, _, sited⟩ := List.mem_flatMap.mp among
  obtain ⟨⟨file, _, found⟩, _⟩ := Project.mem_sitesOf.mp sited
  rw [Project.file_of_document? found]
  exact found

/-- Bodies and problems of a document come from visits of its own tags. -/
theorem contributions_le_visits
    (alone : ∀ other, fixture.project.document? other.file = some other →
      other.file.front = document.file → other.file = document.file) :
    let visits := fixture.project.visits settings compiler module sdk state
    visits.countP (fun visit => visit.artifact?.any (Artifact.inlinedUnder document.file)) +
        visits.countP (fun visit =>
          visit.problem?.any fun problem => problem.file == document.file) ≤
      visits.countP fun visit => visit.site.document.file == document.file := by
  intro visits
  apply countP_add_countP_le
  · intro visit inside inlined
    obtain ⟨artifact, made, under⟩ := (Option.any_eq_true _ _).mp inlined
    obtain ⟨origin, file⟩ := Bool.and_eq_true_iff.mp under
    have front :=
      Visit.front_of_inlined fixture.project_overrides inside made (beq_iff_eq.mp origin)
    rw [beq_iff_eq.mp file] at front
    exact beq_iff_eq.mpr (alone visit.site.document (stored_of_mem_visits inside) front.symm)
  · intro visit _inside told
    obtain ⟨problem, put, same⟩ := (Option.any_eq_true _ _).mp told
    rw [Visit.file_of_problem put] at same
    exact same
  · intro visit inside inlined
    rcases visit.one_contribution with unmade | untold
    · rw [unmade] at inlined
      cases inlined
    · rw [untold]
      rfl

end Fixtures

/-- In a pass over a project read from a fixture, every visit of a style tag contributes one
artifact or one problem at most, and a tag is visited once for each component behind its document.
So the artifacts for bodies and the problems of a document are no more than its tags times its
components, unless its path is what stands in front of a number sign in another one. -/
theorem style_tags_count (fixture : Fixture) {host : Host} {settings : Settings}
    {compiler : StyleCompiler σ} {module : ModuleName} {found : ComponentModule} {sdk : String}
    {state : σ} {log : ProblemLog} {thread : Nat} {events : List SourceEvent}
    {outcome : PassOutcome σ} {result : Option (List Artifact)}
    (described : host.project = fixture.project)
    (known : host.project.module? module = some found)
    (application : found.nature = .application)
    (collected : host.collect settings compiler module sdk state log thread events = some outcome)
    (ok : outcome.result = .ok result) {document : Document}
    (stored : fixture.project.document? document.file = some document) :
    let artifacts := result.getD []
    let visits := fixture.project.visits settings compiler module sdk state
    let tags := settings.style.tagsOf document
    let behind := (fixture.project.visitedComponents settings module sdk).countP fun declared =>
      declared.file == some document.file
    ∃ fresh, outcome.log.problems.toList = log.problems.toList ++ fresh ∧
      artifacts.length = visits.countP (fun visit => visit.artifact?.isSome) ∧
      fresh = visits.filterMap Visit.problem? ∧
      (∀ visit ∈ visits, visit.artifact? = none ∨ visit.problem? = none) ∧
      (∀ tag ∈ tags, visits.countP (fun visit =>
        visit.site.document.file == document.file && visit.site.tag.id == tag.id) = behind) ∧
      ((∀ other, fixture.project.document? other.file = some other →
          other.file.front = document.file → other.file = document.file) →
        artifacts.countP (Artifact.inlinedUnder document.file) +
            fresh.countP (fun problem => problem.file == document.file) ≤
          behind * tags.length) := by
  intro artifacts visits tags behind
  obtain ⟨_, _, walked⟩ := collect_visits known application collected ok
  rw [described] at walked
  obtain ⟨_, told, _⟩ := ResolutionContext.resolveSites_visits walked
  have counted : ∀ asked : Artifact → Bool, Artifact.Stable asked →
      artifacts.countP asked = visits.countP fun visit => visit.artifact?.any asked := by
    intro asked stable
    have all := collect_countP known application collected ok stable
    rw [described] at all
    exact all
  have visited : ∀ asked : StyleSite → Bool,
      (∀ site, asked site = true → site.document.file = document.file) →
      visits.countP (fun visit => asked visit.site) =
        behind * tags.countP fun tag => asked { document, tag } := by
    intro asked own
    exact countP_visits_site stored own
  refine ⟨visits.filterMap Visit.problem?, told, ?_, rfl, ?_, ?_, ?_⟩
  · have all := counted (fun _ => true) (fun _ _ => rfl)
    rw [List.countP_true] at all
    rw [all]
    apply List.countP_congr
    intro visit _inside
    cases visit.artifact? <;> simp
  · intro visit _inside
    exact visit.one_contribution
  · intro tag inside
    let sameTag := fun site : StyleSite =>
      site.document.file == document.file && site.tag.id == tag.id
    have own : ∀ site, sameTag site = true → site.document.file = document.file :=
      fun site same => beq_iff_eq.mp (Bool.and_eq_true_iff.mp same).1
    have once : (tags.countP fun other => sameTag { document, tag := other }) = 1 := by
      have alone := countP_tagsOf_id stored inside
      simp only [sameTag, beq_self_eq_true, Bool.true_and]
      exact alone
    have times := visited sameTag own
    rw [once, Nat.mul_one] at times
    exact times
  · intro alone
    have every := visited (fun site => site.document.file == document.file)
      fun site same => beq_iff_eq.mp same
    have all : (tags.countP fun _ => document.file == document.file) = tags.length := by
      rw [beq_self_eq_true, List.countP_true]
    rw [all] at every
    rw [counted _ (Artifact.stable_inlinedUnder document.file), List.countP_filterMap, ← every]
    have told : ∀ visit : Visit σ,
        (visit.problem?.map fun problem => problem.file == document.file).getD false =
          visit.problem?.any fun problem => problem.file == document.file := by
      intro visit
      cases visit.problem? <;> rfl
    simp only [told]
    exact contributions_le_visits alone

theorem style_tags_count_stylishPage :
    ∃ outcome artifacts,
      (Host.ofProject (stylishPage "src/A.mxml").project).collect .standard sheetCompiler ⟨"app"⟩
          "4.6" .empty .empty 0 [] = some outcome ∧
        outcome.result = .ok (some artifacts) ∧ artifacts.length = 1 ∧
        artifacts.countP (Artifact.inlinedUnder ⟨"src/A.mxml"⟩) +
            outcome.log.problems.toList.countP (fun problem => problem.file == ⟨"src/A.mxml"⟩) ≤
          1 := by
  obtain ⟨outcome, collected, result, _⟩ := collect_stylishPage "src/A.mxml"
  have ok : outcome.result = .ok (some [.inlined ⟨"src/A.mxml"⟩ stylishBytes]) := by
    rw [result]
    decide +kernel
  let page : Document := .markup ⟨"src/A.mxml"⟩ (some (pageOf [styleTag [] (some "A{b:c}")]))
  have stored : (stylishPage "src/A.mxml").project.document? page.file = some page := rfl
  obtain ⟨fresh, told, _, _, _, _, bound⟩ :=
    style_tags_count (stylishPage "src/A.mxml") rfl rfl rfl collected ok stored
  have alone : ∀ other, (stylishPage "src/A.mxml").project.document? other.file = some other →
      other.file.front = ⟨"src/A.mxml"⟩ → other.file = ⟨"src/A.mxml"⟩ := by
    intro other found _front
    obtain ⟨described, inside, same⟩ := Fixture.described_of_document? found
    rw [List.mem_singleton.mp inside] at same
    rw [same]
    rfl
  have within := bound alone
  rw [visitedComponents_stylishPage] at within
  refine ⟨outcome, _, collected, ok, rfl, ?_⟩
  rw [told]
  exact within

def sharedPage : Fixture :=
  pageBehind "src/Page.mxml"
    [styleTag [] (some "A{b:c}"), styleTag [("source", some "Page.mxml")] none]
    [⟨"First"⟩, ⟨"Second"⟩]

theorem visitedComponents_sharedPage :
    sharedPage.project.visitedComponents .standard ⟨"app"⟩ "4.6" = sharedPage.classes := by
  cbv

/-- Both tags of the page count twice. -/
theorem shared_page_counts_twice :
    let file : FileId := ⟨"src/Page.mxml"⟩
    sharedPage.checked = .ok sharedPage ∧
      (sharedPage.project.document? file).map
        (fun document => (StyleTagSettings.standard.tagsOf document).length) = some 2 ∧
      ∃ outcome artifacts,
        (Host.ofProject sharedPage.project).collect .standard sheetCompiler ⟨"app"⟩ "4.6" .empty
            .empty 0 [] = some outcome ∧
          outcome.result = .ok (some artifacts) ∧
          artifacts.countP (Artifact.inlinedUnder file) = 2 ∧
          outcome.log.problems.toList.countP (fun problem => problem.file == file) = 2 := by
  intro file
  refine ⟨rfl, rfl, ?_⟩
  have parsed : SdkVersion.parse "4.6" = .ok ⟨4, "4.6"⟩ := rfl
  have occupied : sharedPage.project.visitedComponents .standard ⟨"app"⟩ "4.6" ≠ [] := by
    rw [visitedComponents_sharedPage]
    exact List.cons_ne_nil _ _
  obtain ⟨outcome, collected, result, _, problems⟩ := (Host.ofProject sharedPage.project)
    |>.collect_walk .standard sheetCompiler rfl rfl rfl rfl parsed occupied .empty .empty 0 []
  dsimp only [Host.ofProject] at result problems
  rw [visitedComponents_sharedPage] at result problems
  refine ⟨outcome, [.inlined file stylishBytes, .inlined file stylishBytes], collected, ?_, ?_, ?_⟩
  · rw [result]
    decide +kernel
  · decide +kernel
  · rw [problems]
    decide +kernel

end ComponentStyles
