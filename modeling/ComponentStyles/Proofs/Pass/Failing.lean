import ComponentStyles.Proofs.Pass.Restoration
import ComponentStyles.Proofs.Pass.Visits

/-!
What a pass fails with.

A property of a tag never ends a pass.  Every failure that does comes from one of five places, and
each of them is told once here; a statement about failures looks at the places, not at the loops.
-/

namespace ComponentStyles

variable {σ : Type}

/-- A failure of a pass, with the place that it comes from. -/
inductive ResolutionContext.EndsWith (context : ResolutionContext σ) (sdk : String) :
    PassFailure → Prop where
  | refused : EndsWith context sdk .commitWait
  | stopped : EndsWith context sdk (.host .executorStopped)
  | unknownModule (unknown : context.project.module? context.module = none) :
      EndsWith context sdk (.host (.unknownModule context.module.text))
  | unparsed (fault : InvalidSdkVersion) (refused : SdkVersion.parse sdk = .error fault) :
      EndsWith context sdk (.sdk fault)
  | compiler (sheet : Document) (before after : σ) (failure : HostFailure)
      (compiled : context.compiler.compile sheet context.module before = (.error failure, after)) :
      EndsWith context sdk (.host failure)
  | broken (site : StyleSite) (failure : PassFailure)
      (asked : context.demand site = .broken failure) :
      EndsWith context sdk failure

namespace ResolutionContext

theorem resolve_endsWith {context : ResolutionContext σ} {site : StyleSite}
    {before after : Resolution σ} {failure : PassFailure}
    (failed : context.resolve site.document site.tag before = (.error failure, after))
    (fatal : ∀ invalid, failure ≠ .property invalid) (sdk : String) :
    context.EndsWith sdk failure := by
  have step := context.resolve_tagStep site before
  rw [failed] at step
  cases step with
  | unusable invalid asked => exact absurd rfl (fatal invalid)
  | broken failure asked => exact .broken site failure asked
  | failed sheet reason state asked compiled =>
      cases reason with
      | stylesheet file text => exact absurd rfl (fatal _)
      | unknownModule name => exact .compiler sheet _ state _ compiled
      | executorStopped => exact .compiler sheet _ state _ compiled
      | fixture text => exact .compiler sheet _ state _ compiled
      | unreadable text => exact .compiler sheet _ state _ compiled
      | malformed text => exact .compiler sheet _ state _ compiled

theorem resolveSites_endsWith (context : ResolutionContext σ) (sdk : String)
    (sites : List StyleSite) (resolution : Resolution σ) (problems : Array Problem)
    {failure : PassFailure}
    (failed : (context.resolveSites sites resolution problems).1 = .error failure) :
    context.EndsWith sdk failure := by
  induction sites generalizing resolution problems with
  | nil => cases failed
  | cons site rest inductionHypothesis =>
      cases resolved : context.resolve site.document site.tag resolution with
      | mk answer after =>
          cases answer with
          | ok made =>
              rw [resolveSites_ok resolved] at failed
              exact inductionHypothesis after problems failed
          | error reason =>
              by_cases authored : ∃ invalid, reason = .property invalid
              · obtain ⟨invalid, same⟩ := authored
                rw [same] at resolved
                rw [resolveSites_property resolved] at failed
                exact inductionHypothesis after _ failed
              · have fatal : ∀ invalid, reason ≠ .property invalid :=
                  fun invalid same => authored ⟨invalid, same⟩
                rw [resolveSites_failure resolved fatal] at failed
                cases failed
                exact resolve_endsWith resolved fatal sdk

end ResolutionContext

section Passes

variable {project : Project} (settings : Settings) (compiler : StyleCompiler σ)
  (module : ModuleName) (sdk : String) (state : σ) (log : ProblemLog) {failure : PassFailure}

theorem collectApplication_endsWith (version : SdkVersion)
    (failed : (collectApplication settings compiler project module version state log).1 =
      .error failure) : (project.context settings compiler module).EndsWith sdk failure := by
  by_cases based : project.baseClasses settings module version = []
  · simp only [collectApplication, based, List.isEmpty_nil, if_true, reduceCtorEq] at failed
  · let context := project.context settings compiler module
    let sites := project.styleSites settings.style
      (project.components module (project.baseClasses settings module version))
    have walked := (collectApplication_walk settings compiler based state log).1
    rw [failed] at walked
    have ended : (context.resolveSites sites (.start state) log.problems).1 = .error failure := by
      cases answer : (context.resolveSites sites (.start state) log.problems).1 with
      | ok made =>
          simp only [context, Project.context, sites] at answer
          rw [answer] at walked
          cases walked
      | error reason =>
          simp only [context, Project.context, sites] at answer
          rw [answer] at walked
          cases walked
          rfl
    exact context.resolveSites_endsWith sdk sites _ _ ended

theorem collectLibrary_endsWith (library : ComponentModule)
    (failed : (collectLibrary settings compiler project module library state log).1 =
      .error failure) : (project.context settings compiler module).EndsWith sdk failure := by
  unfold collectLibrary at failed
  split at failed
  · cases failed
  · rename_i document _found
    split at failed
    · cases failed
    · cases failed
    · rename_i reason after _notStylesheet compiled
      cases failed
      exact .compiler document state after reason compiled

theorem collectConsistent_endsWith
    (failed : (collectConsistent settings compiler project module sdk state log).1 =
      .error failure) : (project.context settings compiler module).EndsWith sdk failure := by
  unfold collectConsistent at failed
  split at failed
  · rename_i reason known
    cases failed
    unfold Project.knownModule at known
    split at known
    · cases known
    · rename_i unknown
      cases known
      exact .unknownModule unknown
  · rename_i found _known
    split at failed
    · exact collectLibrary_endsWith settings compiler module sdk state log found failed
    · split at failed
      · rename_i fault refused
        cases failed
        exact .unparsed fault refused
      · exact collectApplication_endsWith settings compiler module sdk state log _ failed

theorem Host.collect_endsWith {host : Host} {thread : Nat} {events : List SourceEvent}
    {outcome : PassOutcome σ}
    (collected : host.collect settings compiler module sdk state log thread events = some outcome)
    (failed : outcome.result = .error failure) :
    (host.project.context settings compiler module).EndsWith sdk failure := by
  rcases host.collect_cases collected with ⟨_, _, _, answer⟩ | ⟨phase, _, ended, heldUp, _⟩
  · have same := congrArg Prod.fst answer
    exact collectConsistent_endsWith settings compiler module sdk state log
      (same.symm.trans failed)
  · rw [heldUp] at failed
    cases failed
    rcases ended with rfl | rfl
    · exact .refused
    · exact .stopped

end Passes

end ComponentStyles
