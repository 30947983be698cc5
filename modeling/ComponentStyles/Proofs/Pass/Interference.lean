import ComponentStyles.Proofs.Pass.Renaming
import ComponentStyles.Proofs.Pass.Restoration

/-!
Failing tags do not interfere.

A tag with a problem leaves the store and the compiler as they were, and whether a tag has a problem
does not depend on what was resolved before it.  So a pass without those tags is the same pass.
-/

namespace ComponentStyles

variable {σ : Type}

/-- A compile that fails leaves the state as it was. -/
def StyleCompiler.Restores (compiler : StyleCompiler σ) : Prop :=
  ∀ {sheet : Document} {module : ModuleName} {state after : σ} {failure : HostFailure},
    compiler.compile sheet module state = (.error failure, after) → after = state

theorem sheetCompiler_restores : sheetCompiler.Restores := by
  intro sheet module state after failure compiled
  cases checked : Sheet.checkedRules sheet.text with
  | ok found =>
      simp only [sheetCompiler, Sheet.compileText, checked] at compiled
      cases compiled
  | error fault =>
      simp only [sheetCompiler, Sheet.compileText, checked] at compiled
      cases compiled
      rfl

namespace ResolutionContext

variable {context : ResolutionContext σ} {verdict : Document → Verdict}

theorem resolve_restores (restores : context.compiler.Restores) {site : StyleSite}
    {resolution after : Resolution σ} {failure : PassFailure}
    (resolved : context.resolve site.document site.tag resolution = (.error failure, after)) :
    after = resolution := by
  have step := context.resolve_tagStep site resolution
  rw [resolved] at step
  cases step with
  | unusable invalid asked => rfl
  | broken failure asked => rfl
  | failed sheet failure state asked compiled => rw [restores compiled]

/-- The tag has no usable reference, or a stylesheet that does not compile. -/
def fails (context : ResolutionContext σ) (verdict : Document → Verdict) (site : StyleSite) :
    Prop :=
  match context.demand site with
  | .unusable _ => True
  | .shared sheet => verdict sheet = .rejected
  | .embedded sheet => verdict sheet = .rejected
  | _ => False

def Indexed (context : ResolutionContext σ) (verdict : Document → Verdict)
    (resolution : Resolution σ) : Prop :=
  ∀ identity, (resolution.store.index.get? identity).isSome = true →
    ∃ sheet, context.project.document? identity = some sheet ∧ verdict sheet = .compiles

section Judged

variable (judged : context.compiler.JudgesBy context.module verdict)
include judged

theorem verdict_of_ok {sheet : Document} {state after : σ} {data : List UInt8}
    (compiled : context.compiler.compile sheet context.module state = (.ok data, after)) :
    verdict sheet = .compiles := by
  rw [← judged sheet state, compiled]
  rfl

theorem property_iff_rejected {sheet : Document} {state after : σ} {failure : HostFailure}
    (compiled : context.compiler.compile sheet context.module state = (.error failure, after))
    (site : StyleSite) :
    (∃ invalid, site.compileFailure failure = .property invalid) ↔
      verdict sheet = .rejected := by
  rw [← judged sheet state, compiled]
  cases failure with
  | stylesheet file reason => exact iff_of_true ⟨_, rfl⟩ rfl
  | _ =>
      refine iff_of_false ?_ ?_
      · rintro ⟨invalid, impossible⟩
        cases impossible
      · intro impossible
        cases impossible

theorem indexed_of_tagStep {site : StyleSite} {before after : Resolution σ}
    {answer : Except PassFailure (Option Nat)} (step : TagStep context site before answer after)
    (indexed : context.Indexed verdict before) : context.Indexed verdict after := by
  cases step with
  | nothing asked => exact indexed
  | unusable invalid asked => exact indexed
  | broken failure asked => exact indexed
  | embedded sheet data state asked compiled => exact indexed
  | failed sheet failure state asked compiled => exact indexed
  | referred sheet handle asked present =>
      intro identity known
      rw [ArtifactStore.index_addUser] at known
      exact indexed identity known
  | created sheet data state asked compiled =>
      intro identity known
      change ((before.store.index.put sheet.file before.store.size).get? identity).isSome = true
        at known
      rw [Table.get?_put] at known
      by_cases own : sheet.file = identity
      · rw [← own]
        exact ⟨sheet, StyleSite.document?_of_shared asked, verdict_of_ok judged compiled⟩
      · rw [if_neg own] at known
        exact indexed identity known

/-- Whether a tag has a problem follows from the tag alone. -/
theorem property_iff_fails {site : StyleSite} {before after : Resolution σ}
    {answer : Except PassFailure (Option Nat)} (step : TagStep context site before answer after)
    (indexed : context.Indexed verdict before) :
    (∃ invalid, answer = .error (.property invalid)) ↔ context.fails verdict site := by
  have compiles : ∀ {sheet : Document}, verdict sheet = .compiles → verdict sheet ≠ .rejected := by
    intro sheet compiles rejected
    rw [compiles] at rejected
    cases rejected
  unfold fails
  cases step with
  | nothing asked =>
      rw [asked]
      exact iff_of_false (by rintro ⟨_, ⟨⟩⟩) id
  | unusable invalid asked =>
      rw [asked]
      exact iff_of_true ⟨invalid, rfl⟩ trivial
  | broken failure asked =>
      rw [asked]
      refine iff_of_false ?_ id
      rintro ⟨invalid, same⟩
      exact StyleSite.not_property_of_broken asked invalid (Except.error.inj same)
  | embedded sheet data state asked compiled =>
      rw [asked]
      exact iff_of_false (by rintro ⟨_, ⟨⟩⟩) (compiles (verdict_of_ok judged compiled))
  | created sheet data state asked compiled =>
      rw [asked]
      exact iff_of_false (by rintro ⟨_, ⟨⟩⟩) (compiles (verdict_of_ok judged compiled))
  | referred sheet handle asked present =>
      -- A stylesheet in the index has compiled, so no tag that refers to it fails.
      obtain ⟨stored, found, good⟩ := indexed sheet.file (by rw [present]; rfl)
      rw [StyleSite.document?_of_shared asked, Option.some.injEq] at found
      rw [← found] at good
      rw [asked]
      exact iff_of_false (by rintro ⟨_, ⟨⟩⟩) (compiles good)
  | failed sheet failure state asked compiled =>
      have rejected := property_iff_rejected judged compiled site
      simp only [Except.error.injEq]
      rcases asked with asked | asked
      · rw [asked]
        exact rejected
      · rw [asked]
        exact rejected

theorem problem_iff_fails {sites : List StyleSite} {state : σ} {visit : Visit σ}
    (inside : visit ∈ context.visits sites (.start state)) :
    visit.problem?.isSome = true ↔ context.fails verdict visit.site := by
  have empty : context.Indexed verdict (.start state) := by
    intro identity known
    cases known
  have indexed : context.Indexed verdict visit.before :=
    visits_keep (context.Indexed verdict)
      (fun site resolution kept =>
        indexed_of_tagStep judged (context.resolve_tagStep site resolution) kept)
      empty visit inside
  rw [← property_iff_fails judged (tagStep_of_mem_visits inside) indexed]
  unfold Visit.problem?
  constructor
  · intro told
    split at told
    · rename_i invalid answer
      exact ⟨invalid, answer⟩
    · cases told
  · rintro ⟨invalid, answer⟩
    rw [answer]
    rfl

end Judged

def withNames (context : ResolutionContext σ) (names : StyleSite → Option String) :
    ResolutionContext σ :=
  { context with project := context.project.withNames names }

variable {names : StyleSite → Option String}

theorem resolve_withNames (context : ResolutionContext σ) (site : StyleSite)
    (resolution : Resolution σ) :
    (context.withNames names).resolve (site.withNames names).document (site.withNames names).tag
        resolution =
      context.resolve site.document site.tag resolution := by
  have asked : (context.withNames names).demand (site.withNames names) = context.demand site :=
    site.demand_withNames context.project context.sourceAttribute
  have file : (site.withNames names).document.file = site.document.file :=
    site.document.file_withNames
  have failure : (site.withNames names).compileFailure = site.compileFailure := by
    funext failure
    cases failure with
    | stylesheet file reason =>
        simp only [StyleSite.compileFailure, StyleSite.invalid, site.location_withNames]
    | _ => rfl
  rw [resolve_eq, resolve_eq, asked]
  cases context.demand site with
  | nothing => rfl
  | unusable invalid => rfl
  | broken failure => rfl
  | shared sheet =>
      simp only [resolveShared, file, failure]
      rfl
  | embedded sheet =>
      simp only [resolveEmbedded, failure]
      rfl

/-- A walk that comes to its end comes to the same end, and to no problem, without the tags that
have one. -/
theorem resolveSites_withNames {context : ResolutionContext σ}
    (restores : context.compiler.Restores) {sites : List StyleSite}
    {resolution last : Resolution σ} {problems found : Array Problem}
    (walked : context.resolveSites sites resolution problems = (.ok (), last, found))
    (marked : ∀ visit ∈ context.visits sites resolution,
      (names visit.site).isSome = visit.problem?.isSome) (quiet : Array Problem) :
    (context.withNames names).resolveSites
        ((sites.filter fun site => (names site).isNone).map (StyleSite.withNames names))
        resolution quiet =
      (.ok (), last, quiet) := by
  -- Both walks go through the same resolutions; the one without the failing tags skips a step
  -- exactly where the other one does not move.
  induction sites generalizing resolution problems with
  | nil =>
      cases walked
      rfl
  | cons site rest inductionHypothesis =>
      have own := marked _ List.mem_cons_self
      have others := fun visit inside => marked visit (List.mem_cons_of_mem _ inside)
      cases resolved : context.resolve site.document site.tag resolution with
      | mk answer next =>
          rw [resolved] at own others
          cases answer with
          | ok handle? =>
              have kept : (names site).isNone = true := Option.isSome_eq_false_iff.mp own
              rw [resolveSites_ok resolved] at walked
              simp only [List.filter_cons, kept, if_true, List.map_cons]
              rw [resolveSites_ok ((context.resolve_withNames site resolution).trans resolved)]
              exact inductionHypothesis walked others
          | error failure =>
              cases failure with
              | property invalid =>
                  have dropped : (names site).isNone = false :=
                    Option.isNone_eq_false_iff.mpr own
                  rw [resolveSites_property resolved] at walked
                  rw [resolve_restores restores resolved] at walked others
                  simp only [List.filter_cons, dropped, Bool.false_eq_true, if_false]
                  exact inductionHypothesis walked others
              | _ =>
                  rw [resolveSites_failure resolved (by rintro _ ⟨⟩)] at walked
                  cases walked

end ResolutionContext

theorem collectApplication_of_walk {settings : Settings} {compiler : StyleCompiler σ}
    {project : Project} {module : ModuleName} {version : SdkVersion} {state : σ}
    {log : ProblemLog} {last : Resolution σ} {found : Array Problem}
    (based : project.baseClasses settings module version ≠ [])
    (walked : (project.context settings compiler module).resolveSites
        (project.styleSites settings.style
          (project.components module (project.baseClasses settings module version)))
        (.start state) log.problems = (.ok (), last, found)) :
    ∃ told, collectApplication settings compiler project module version state log =
        (.ok (some last.store.artifacts.toList), last.compilerState, told) ∧
      told.problems = found := by
  obtain ⟨answer, compilerState, problems⟩ :=
    collectApplication_walk settings compiler based state log
  unfold Project.context at walked
  rw [walked] at answer compilerState problems
  exact ⟨_, Prod.ext answer (Prod.ext compilerState rfl), problems⟩

theorem collectApplication_withNames {settings : Settings} {compiler : StyleCompiler σ}
    {project : Project} {module : ModuleName} {version : SdkVersion} {state after : σ}
    {log told : ProblemLog} {result : Option (List Artifact)}
    {names : StyleSite → Option String} (restores : compiler.Restores)
    (other : ∀ site name, names site = some name → name ≠ settings.style.tag)
    (marked : ∀ visit ∈ (project.context settings compiler module).visits
        (project.styleSites settings.style
          (project.components module (project.baseClasses settings module version)))
        (.start state),
      (names visit.site).isSome = visit.problem?.isSome)
    (collected : collectApplication settings compiler project module version state log =
      (.ok result, after, told)) :
    ∃ silent, collectApplication settings compiler (project.withNames names) module version state
        log = (.ok result, after, silent) ∧ silent.problems = log.problems := by
  have bases : (project.withNames names).baseClasses settings module version =
      project.baseClasses settings module version := rfl
  by_cases based : project.baseClasses settings module version = []
  · simp only [collectApplication, based, List.isEmpty_nil, if_true] at collected
    cases collected
    simp only [collectApplication, bases, based, List.isEmpty_nil, if_true]
    exact ⟨log, rfl, rfl⟩
  · obtain ⟨walked, _⟩ := collectApplication_visits collected
    obtain ⟨_, loud, _⟩ := collectApplication_of_walk based walked
    have quiet := ResolutionContext.resolveSites_withNames restores walked marked log.problems
    rw [← styleSites_withNames other project] at quiet
    obtain ⟨silent, renamed, unchanged⟩ :=
      collectApplication_of_walk (bases ▸ based) quiet
    rw [loud, Prod.mk.injEq, Prod.mk.injEq] at collected
    rw [← collected.1, ← collected.2.1]
    exact ⟨silent, renamed, unchanged⟩

/-- Every style tag with a problem may as well be no style tag: under other names for just these
tags the pass gives the same artifacts and leaves the same strings and counts, without a problem. -/
theorem failing_tags_do_not_interfere (host : Host) (settings : Settings) {module : ModuleName}
    {found : ComponentModule} {sdk : String} {sinks : Sheet.Sinks} {log : ProblemLog}
    {thread : Nat} {events : List SourceEvent} {outcome : PassOutcome Sheet.Sinks}
    {result : Option (List Artifact)} (known : host.project.module? module = some found)
    (application : found.nature = .application)
    (collected : host.collect settings sheetCompiler module sdk sinks log thread events =
      some outcome)
    (ok : outcome.result = .ok result) (names : StyleSite → Option String)
    (failing : ∀ site, (names site).isSome = true ↔
      ∃ visit ∈ host.project.visits settings sheetCompiler module sdk sinks,
        visit.site = site ∧ visit.problem?.isSome = true)
    (other : ∀ site name, names site = some name → name ≠ settings.style.tag) :
    outcome.log.problems.toList = log.problems.toList ++
        (host.project.visits settings sheetCompiler module sdk sinks).filterMap Visit.problem? ∧
      ∃ renamed,
        { host with project := host.project.withNames names }.collect settings sheetCompiler module
            sdk sinks log thread events = some renamed ∧
          renamed.result = outcome.result ∧ renamed.compilerState = outcome.compilerState ∧
          renamed.log.problems = log.problems := by
  obtain ⟨_, _, walked⟩ := collect_visits known application collected ok
  obtain ⟨_, told, _⟩ := ResolutionContext.resolveSites_visits walked
  refine ⟨told, ?_⟩
  obtain ⟨version, parsed, extracted⟩ := collectApplication_of_consistent known application
    (Host.collectConsistent_of_ok collected ok)
  -- A tag that has a problem once has one at each of its visits.
  have marked : ∀ visit ∈ host.project.visits settings sheetCompiler module sdk sinks,
      (names visit.site).isSome = visit.problem?.isSome := by
    intro visit inside
    rw [Bool.eq_iff_iff, failing]
    constructor
    · rintro ⟨first, among, same, problem⟩
      have fails := (ResolutionContext.problem_iff_fails (sheetCompiler_judgesBy module) among).mp
        problem
      rw [same] at fails
      exact (ResolutionContext.problem_iff_fails (sheetCompiler_judgesBy module) inside).mpr fails
    · intro problem
      exact ⟨visit, inside, rfl, problem⟩
  unfold Project.visits Project.visitedComponents at marked
  rw [parsed] at marked
  obtain ⟨silent, renamed, unchanged⟩ :=
    collectApplication_withNames sheetCompiler_restores other marked extracted
  have consistent : collectConsistent settings sheetCompiler (host.project.withNames names) module
      sdk sinks log = (.ok result, outcome.compilerState, silent) := by
    have stillKnown : (host.project.withNames names).module? module = some found := known
    simp only [collectConsistent, Project.knownModule, stillKnown, application, parsed]
    exact renamed
  rcases host.collect_cases collected with ⟨signals, waited, _, _⟩ | ⟨_, _, _, heldUp, _⟩
  · simp only [Host.collect, waited, consistent]
    exact ⟨_, rfl, ok.symm, rfl, unchanged⟩
  · rw [ok] at heldUp
    cases heldUp

open Classical in
noncomputable def nameForProblems (visits : List (Visit σ)) (name : String) (site : StyleSite) :
    Option String :=
  if ∃ visit ∈ visits, visit.site = site ∧ visit.problem?.isSome = true then some name else none

theorem visitedComponents_twoPages :
    twoPages.visitedComponents .standard ⟨"app"⟩ "3.6" = twoPages.classes := by
  have parsed : SdkVersion.parse "3.6" = .ok ⟨3, "3.6"⟩ := rfl
  rw [Project.visitedComponents, parsed]
  exact (twoPages.components_eq _ _).trans twoPages_visited

theorem failing_tag_of_twoPages :
    let names := nameForProblems
      (twoPages.visits .standard sheetCompiler ⟨"app"⟩ "3.6" .empty) "Note"
    ∃ outcome renamed artifacts,
      (Host.ofProject twoPages).collect .standard sheetCompiler ⟨"app"⟩ "3.6" .empty .empty 0 [] =
          some outcome ∧
        outcome.result = .ok (some artifacts) ∧ outcome.log.problems.size = 1 ∧
        (Host.ofProject (twoPages.withNames names)).collect .standard sheetCompiler ⟨"app"⟩ "3.6"
            .empty .empty 0 [] = some renamed ∧
        renamed.result = .ok (some artifacts) ∧ renamed.compilerState = outcome.compilerState ∧
        renamed.log.problems = #[] := by
  intro names
  have parsed : SdkVersion.parse "3.6" = .ok ⟨3, "3.6"⟩ := rfl
  have occupied : twoPages.visitedComponents .standard ⟨"app"⟩ "3.6" ≠ [] := by
    rw [visitedComponents_twoPages]
    exact List.cons_ne_nil _ _
  obtain ⟨outcome, collected, result, _, problems⟩ := (Host.ofProject twoPages).collect_walk
    .standard sheetCompiler rfl rfl rfl rfl parsed occupied .empty .empty 0 []
  dsimp only [Host.ofProject] at result problems
  rw [visitedComponents_twoPages] at result problems
  have failing : ∀ site, (names site).isSome = true ↔
      ∃ visit ∈ twoPages.visits .standard sheetCompiler ⟨"app"⟩ "3.6" .empty,
        visit.site = site ∧ visit.problem?.isSome = true := by
    intro site
    unfold names nameForProblems
    split
    · rename_i problem
      exact iff_of_true rfl problem
    · rename_i fine
      exact iff_of_false Bool.false_ne_true fine
  have other : ∀ site name, names site = some name → name ≠ StyleTagSettings.standard.tag := by
    intro site name named
    unfold names nameForProblems at named
    split at named
    · cases named
      decide
    · cases named
  have ok : outcome.result = .ok (some
      [.inlined ⟨"src/First.mxml"⟩ stylishBytes,
        { file := ⟨"src/theme.css"⟩
          data := [1, 0, 255, 255, 255, 255, 3, 0, 0, 0, 1, 0, 4, 0, 0, 0, 5, 0, 0, 0]
          origin := .external ⟨"src/First.mxml"⟩ [⟨"src/Second.mxml"⟩] }]) := by
    rw [result]
    decide +kernel
  obtain ⟨_, renamed, collectedRenamed, same, counts, quiet⟩ := failing_tags_do_not_interfere
    (Host.ofProject twoPages) .standard rfl rfl collected ok names failing other
  refine ⟨outcome, renamed, _, collected, ok, ?_, collectedRenamed, same.trans ok, counts, quiet⟩
  rw [problems]
  decide +kernel

end ComponentStyles
