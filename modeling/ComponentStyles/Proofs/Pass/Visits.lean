import ComponentStyles.Proofs.Pass.Coverage
import ComponentStyles.Proofs.Pass.Identity

/-!
The visits of a pass.

A visit is one style tag with what was resolved in front of it, the answer, and what is resolved
then.  A pass that succeeds leaves what its last visit leaves, and its problems are those of its
visits in turn.
-/

namespace ComponentStyles

variable {σ : Type}

/-- What resolving a tag may do, with the answer it gives: one case for each demand, and for a
stylesheet one for each reply of the compiler. -/
inductive TagStep (context : ResolutionContext σ) (site : StyleSite) (before : Resolution σ) :
    Except PassFailure (Option Nat) → Resolution σ → Prop where
  | nothing (asked : context.demand site = .nothing) : TagStep context site before (.ok none) before
  | unusable (invalid : InvalidProperty) (asked : context.demand site = .unusable invalid) :
      TagStep context site before (.error (.property invalid)) before
  | broken (failure : PassFailure) (asked : context.demand site = .broken failure) :
      TagStep context site before (.error failure) before
  | embedded (sheet : Document) (data : List UInt8) (state : σ)
      (asked : context.demand site = .embedded sheet)
      (compiled : context.compiler.compile sheet context.module before.compilerState =
        (.ok data, state)) :
      TagStep context site before (.ok (some before.store.size))
        { store := (before.store.push (.inlined (Project.hostingFile sheet) data)).2
          compilerState := state }
  | created (sheet : Document) (data : List UInt8) (state : σ)
      (asked : context.demand site = .shared sheet)
      (compiled : context.compiler.compile sheet context.module before.compilerState =
        (.ok data, state)) :
      TagStep context site before (.ok (some before.store.size))
        { store := (before.store.pushUnder sheet.file
            (.external sheet.file data site.document.file)).2
          compilerState := state }
  | referred (sheet : Document) (handle : Nat) (asked : context.demand site = .shared sheet)
      (present : before.store.index.get? sheet.file = some handle) :
      TagStep context site before (.ok none)
        { before with store := (before.store.addUser handle site.document.file).2 }
  | failed (sheet : Document) (failure : HostFailure) (state : σ)
      (asked : context.demand site = .shared sheet ∨ context.demand site = .embedded sheet)
      (compiled : context.compiler.compile sheet context.module before.compilerState =
        (.error failure, state)) :
      TagStep context site before (.error (site.compileFailure failure))
        { before with compilerState := state }

theorem ResolutionContext.resolve_tagStep (context : ResolutionContext σ) (site : StyleSite)
    (before : Resolution σ) :
    TagStep context site before (context.resolve site.document site.tag before).1
      (context.resolve site.document site.tag before).2 := by
  rw [context.resolve_eq site]
  cases asked : context.demand site with
  | nothing => exact .nothing asked
  | unusable invalid => exact .unusable invalid asked
  | broken failure => exact .broken failure asked
  | embedded sheet =>
      dsimp only [resolveEmbedded]
      split
      · rename_i data state compiled
        exact .embedded sheet data state asked compiled
      · rename_i failure state compiled
        exact .failed sheet failure state (Or.inr asked) compiled
  | shared sheet =>
      dsimp only [resolveShared]
      split
      · rename_i handle present
        exact .referred sheet handle asked present
      · split
        · rename_i data state compiled
          exact .created sheet data state asked compiled
        · rename_i failure state compiled
          exact .failed sheet failure state (Or.inl asked) compiled

structure Visit (σ : Type) where
  site : StyleSite
  before : Resolution σ
  answer : Except PassFailure (Option Nat)
  after : Resolution σ

namespace Visit

def problem? (visit : Visit σ) : Option Problem :=
  match visit.answer with
  | .error (.property invalid) => some (visit.site.problem invalid)
  | _ => none

def artifact? (visit : Visit σ) : Option Artifact :=
  match visit.answer with
  | .ok (some handle) => visit.after.store.artifact? handle
  | _ => none

end Visit

namespace ResolutionContext

def visits (context : ResolutionContext σ) (sites : List StyleSite) (resolution : Resolution σ) :
    List (Visit σ) :=
  match sites with
  | [] => []
  | site :: rest =>
      let resolved := context.resolve site.document site.tag resolution
      { site, before := resolution, answer := resolved.1, after := resolved.2 } ::
        context.visits rest resolved.2

def resolveAll (context : ResolutionContext σ) (sites : List StyleSite)
    (resolution : Resolution σ) : Resolution σ :=
  StyleCall.runAll (sites.map (StyleCall.mk context)) resolution

theorem map_site_visits (context : ResolutionContext σ) (sites : List StyleSite)
    (resolution : Resolution σ) : (context.visits sites resolution).map Visit.site = sites := by
  induction sites generalizing resolution with
  | nil => rfl
  | cons site rest inductionHypothesis =>
      rw [visits, List.map_cons, inductionHypothesis]

theorem resolve_of_mem_visits {context : ResolutionContext σ} {sites : List StyleSite}
    {resolution : Resolution σ} {visit : Visit σ}
    (inside : visit ∈ context.visits sites resolution) :
    context.resolve visit.site.document visit.site.tag visit.before =
      (visit.answer, visit.after) := by
  induction sites generalizing resolution with
  | nil => cases inside
  | cons site rest inductionHypothesis =>
      rcases List.mem_cons.mp inside with same | behind
      · rw [same]
      · exact inductionHypothesis behind

theorem tagStep_of_mem_visits {context : ResolutionContext σ} {sites : List StyleSite}
    {resolution : Resolution σ} {visit : Visit σ}
    (inside : visit ∈ context.visits sites resolution) :
    TagStep context visit.site visit.before visit.answer visit.after := by
  have step := context.resolve_tagStep visit.site visit.before
  rw [resolve_of_mem_visits inside] at step
  exact step

theorem visits_keep {context : ResolutionContext σ} (holds : Resolution σ → Prop)
    (kept : ∀ (site : StyleSite) (resolution : Resolution σ), holds resolution →
      holds (context.resolve site.document site.tag resolution).2)
    {sites : List StyleSite} {resolution : Resolution σ} (start : holds resolution) :
    ∀ visit ∈ context.visits sites resolution, holds visit.before := by
  induction sites generalizing resolution with
  | nil =>
      intro visit inside
      cases inside
  | cons site rest inductionHypothesis =>
      intro visit inside
      rcases List.mem_cons.mp inside with same | behind
      · rw [same]
        exact start
      · exact inductionHypothesis (kept site resolution start) visit behind

/-- The store at a visit is consistent, and what the visit leaves only grows behind it. -/
theorem visits_grow {context : ResolutionContext σ} {sites : List StyleSite}
    {resolution : Resolution σ} (consistent : resolution.store.Consistent) {visit : Visit σ}
    (inside : visit ∈ context.visits sites resolution) :
    visit.before.store.Consistent ∧
      visit.after.store.GrowsTo (context.resolveAll sites resolution).store := by
  induction sites generalizing resolution with
  | nil => cases inside
  | cons site rest inductionHypothesis =>
      have step := context.resolve_storeStep site resolution
      rcases List.mem_cons.mp inside with same | behind
      · rw [same]
        exact ⟨consistent, StyleCall.runAll_growsTo (rest.map (StyleCall.mk context)) _
          (step.consistent consistent)⟩
      · exact inductionHypothesis (step.consistent consistent) behind

/-- A walk that comes to its end is the visits in turn, none of which has ended it. -/
theorem resolveSites_visits {context : ResolutionContext σ} {sites : List StyleSite}
    {resolution after : Resolution σ} {problems found : Array Problem}
    (walked : context.resolveSites sites resolution problems = (.ok (), after, found)) :
    after = context.resolveAll sites resolution ∧
      found.toList =
        problems.toList ++ (context.visits sites resolution).filterMap Visit.problem? ∧
      ∀ visit ∈ context.visits sites resolution,
        (∃ handle?, visit.answer = .ok handle?) ∨
          ∃ invalid, visit.answer = .error (.property invalid) := by
  induction sites generalizing resolution problems with
  | nil =>
      cases walked
      refine ⟨rfl, (List.append_nil found.toList).symm, ?_⟩
      intro visit inside
      cases inside
  | cons site rest inductionHypothesis =>
      rw [visits]
      cases resolved : context.resolve site.document site.tag resolution with
      | mk answer next =>
          cases answer with
          | ok handle? =>
              rw [resolveSites_ok resolved] at walked
              obtain ⟨last, told, answered⟩ := inductionHypothesis walked
              refine ⟨?_, told, ?_⟩
              · rw [last]
                simp only [resolveAll, StyleCall.runAll, List.map_cons, List.foldl_cons,
                  StyleCall.run, resolved]
              · intro visit inside
                rcases List.mem_cons.mp inside with same | behind
                · rw [same]
                  exact Or.inl ⟨handle?, rfl⟩
                · exact answered visit behind
          | error failure =>
              cases failure with
              | property invalid =>
                  rw [resolveSites_property resolved] at walked
                  obtain ⟨last, told, answered⟩ := inductionHypothesis walked
                  refine ⟨?_, ?_, ?_⟩
                  · rw [last]
                    simp only [resolveAll, StyleCall.runAll, List.map_cons, List.foldl_cons,
                      StyleCall.run, resolved]
                  · rw [told, Array.toList_push, List.append_assoc]
                    rfl
                  · intro visit inside
                    rcases List.mem_cons.mp inside with same | behind
                    · rw [same]
                      exact Or.inr ⟨invalid, rfl⟩
                    · exact answered visit behind
              | _ =>
                  rw [resolveSites_failure resolved (by rintro _ ⟨⟩)] at walked
                  cases walked

end ResolutionContext

namespace Project

def context (project : Project) (settings : Settings) (compiler : StyleCompiler σ)
    (module : ModuleName) : ResolutionContext σ :=
  { project, compiler, sourceAttribute := settings.style.sourceAttribute, module }

def visitedComponents (project : Project) (settings : Settings) (module : ModuleName)
    (sdk : String) : List ComponentClass :=
  match SdkVersion.parse sdk with
  | .ok version => project.components module (project.baseClasses settings module version)
  | .error _ => []

def visits (project : Project) (settings : Settings) (compiler : StyleCompiler σ)
    (module : ModuleName) (sdk : String) (state : σ) : List (Visit σ) :=
  (project.context settings compiler module).visits
    (project.styleSites settings.style (project.visitedComponents settings module sdk))
    (.start state)

end Project

theorem collectApplication_visits {settings : Settings} {compiler : StyleCompiler σ}
    {project : Project} {module : ModuleName} {version : SdkVersion} {state after : σ}
    {log told : ProblemLog} {result : Option (List Artifact)}
    (collected : collectApplication settings compiler project module version state log =
      (.ok result, after, told)) :
    let context := project.context settings compiler module
    let sites := project.styleSites settings.style
      (project.components module (project.baseClasses settings module version))
    let last := context.resolveAll sites (.start state)
    context.resolveSites sites (.start state) log.problems = (.ok (), last, told.problems) ∧
      result.getD [] = last.store.artifacts.toList ∧ after = last.compilerState := by
  intro context sites last
  by_cases noBase : project.baseClasses settings module version = []
  · simp only [collectApplication, noBase, List.isEmpty_nil, if_true] at collected
    have untagged : sites = [] := by
      change project.styleSites settings.style
        (project.components module (project.baseClasses settings module version)) = []
      rw [noBase]
      rfl
    have unchanged : last = .start state := by
      change context.resolveAll sites (.start state) = _
      rw [untagged]
      rfl
    cases collected
    rw [unchanged, untagged]
    exact ⟨rfl, rfl, rfl⟩
  · obtain ⟨answer, compilerState, problems⟩ :=
      collectApplication_walk settings compiler noBase state log
    rw [collected] at answer compilerState problems
    cases walked : context.resolveSites sites (.start state) log.problems with
    | mk ended rest =>
        obtain ⟨behind, found⟩ := rest
        have unfolded : ResolutionContext.resolveSites
            { project, compiler, sourceAttribute := settings.style.sourceAttribute, module } sites
              (.start state) log.problems = (ended, behind, found) := walked
        rw [unfolded] at answer compilerState problems
        cases ended with
        | error failure => cases answer
        | ok done =>
            have same : last = behind := (ResolutionContext.resolveSites_visits walked).1.symm
            cases answer
            rw [same]
            exact ⟨Prod.ext rfl (Prod.ext rfl problems.symm), rfl, compilerState⟩

/-- A pass over an application that succeeds, told visit by visit. -/
theorem collect_visits {host : Host} {settings : Settings} {compiler : StyleCompiler σ}
    {module : ModuleName} {found : ComponentModule} {sdk : String} {state : σ} {log : ProblemLog}
    {thread : Nat} {events : List SourceEvent} {outcome : PassOutcome σ}
    {result : Option (List Artifact)} (known : host.project.module? module = some found)
    (application : found.nature = .application)
    (collected : host.collect settings compiler module sdk state log thread events = some outcome)
    (ok : outcome.result = .ok result) :
    let context := host.project.context settings compiler module
    let sites := host.project.styleSites settings.style
      (host.project.visitedComponents settings module sdk)
    let last := context.resolveAll sites (.start state)
    result.getD [] = last.store.artifacts.toList ∧ outcome.compilerState = last.compilerState ∧
      context.resolveSites sites (.start state) log.problems =
        (.ok (), last, outcome.log.problems) := by
  obtain ⟨version, parsed, extracted⟩ := collectApplication_of_consistent known application
    (Host.collectConsistent_of_ok collected ok)
  have visited : host.project.visitedComponents settings module sdk =
      host.project.components module (host.project.baseClasses settings module version) := by
    rw [Project.visitedComponents, parsed]
  rw [visited]
  obtain ⟨walked, made, final⟩ := collectApplication_visits extracted
  exact ⟨made, final, walked⟩

/-- A pass over an application whose sources are consistent is one walk over the tags of its
components. -/
theorem Host.collect_walk (host : Host) (settings : Settings) (compiler : StyleCompiler σ)
    {module : ModuleName} {found : ComponentModule} {sdk : String} {version : SdkVersion}
    (indexed : host.signals.indexing = false) (committed : host.signals.uncommitted = false)
    (known : host.project.module? module = some found)
    (application : found.nature = .application) (parsed : SdkVersion.parse sdk = .ok version)
    (occupied : host.project.visitedComponents settings module sdk ≠ []) (state : σ)
    (log : ProblemLog) (thread : Nat) (events : List SourceEvent) :
    ∃ outcome,
      host.collect settings compiler module sdk state log thread events = some outcome ∧
      let walk := (host.project.context settings compiler module).resolveSites
        (host.project.styleSites settings.style
          (host.project.visitedComponents settings module sdk)) (.start state) log.problems
      outcome.result = walk.1.map (fun _ => some walk.2.1.store.artifacts.toList) ∧
        outcome.compilerState = walk.2.1.compilerState ∧ outcome.log.problems = walk.2.2 := by
  obtain ⟨signals, collected⟩ := host.collect_application settings compiler indexed committed known
    application parsed state log thread events
  have visited : host.project.visitedComponents settings module sdk =
      host.project.components module (host.project.baseClasses settings module version) := by
    rw [Project.visitedComponents, parsed]
  rw [visited] at occupied ⊢
  have based : host.project.baseClasses settings module version ≠ [] := by
    intro none
    rw [none] at occupied
    exact occupied rfl
  exact ⟨_, collected, collectApplication_walk settings compiler based state log⟩

theorem collect_visited {project : Project} (compiler : StyleCompiler σ) {module : ModuleName}
    {found : ComponentModule} {sdk : String} {version : SdkVersion}
    {classes : List ComponentClass} (known : project.module? module = some found)
    (application : found.nature = .application) (parsed : SdkVersion.parse sdk = .ok version)
    (visited : project.visitedComponents .standard module sdk = classes) (occupied : classes ≠ [])
    (state : σ) :
    ∃ outcome,
      (Host.ofProject project).collect .standard compiler module sdk state .empty 0 [] =
          some outcome ∧
        let walk := (project.context .standard compiler module).resolveSites
          (project.styleSites .standard classes) (.start state) #[]
        outcome.result = walk.1.map fun _ => some walk.2.1.store.artifacts.toList := by
  rw [← visited] at occupied ⊢
  obtain ⟨outcome, collected, result, _, _⟩ := (Host.ofProject project).collect_walk .standard
    compiler rfl rfl known application parsed occupied state .empty 0 []
  exact ⟨outcome, collected, result⟩

end ComponentStyles
