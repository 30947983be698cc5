import Mathlib
import ComponentStyles.Proofs.Pass.Refinement

/-!
Collecting the styles of an application, told tag by tag.

The main statement gives the artifacts and the problems of a pass from the tags alone, for every
compiler that takes a stylesheet the same way whenever it is asked.
-/

namespace ComponentStyles

variable {σ : Type}

def sheetVerdict (document : Document) : Verdict :=
  match Sheet.checkedRules document.text with
  | .ok _ => .compiles
  | .error _ => .rejected

theorem sheetCompiler_judgesBy (module : ModuleName) :
    sheetCompiler.JudgesBy module sheetVerdict := by
  intro document sinks
  simp only [sheetCompiler, Sheet.compileText, sheetVerdict]
  cases Sheet.checkedRules document.text with
  | ok found => rfl
  | error fault => rfl

/-- A pass over an application whose sources are consistent is one extraction of its
components. -/
theorem Host.collect_application (host : Host) (settings : Settings)
    (compiler : StyleCompiler σ) {module : ModuleName} {found : ComponentModule} {sdk : String}
    {version : SdkVersion} (indexed : host.signals.indexing = false)
    (committed : host.signals.uncommitted = false)
    (known : host.project.module? module = some found)
    (application : found.nature = .application) (parsed : SdkVersion.parse sdk = .ok version)
    (state : σ) (log : ProblemLog) (thread : Nat) (events : List SourceEvent) :
    ∃ signals,
      let collected := collectApplication settings compiler host.project module version state log
      host.collect settings compiler module sdk state log thread events =
        some { result := collected.1, compilerState := collected.2.1, log := collected.2.2,
               signals } := by
  have consistent : collectConsistent settings compiler host.project module sdk state log =
      collectApplication settings compiler host.project module version state log := by
    simp only [collectConsistent, Project.knownModule, known, application, parsed]
  have waited := Signals.awaitConsistency_consistent indexed committed thread events
  simp only [Host.collect, waited, consistent]
  exact ⟨_, rfl⟩

def gathered (extracted : Except PassFailure Unit × PassState σ) :
    Except PassFailure (Option (List Artifact)) × σ × ProblemLog :=
  (extracted.1.map fun _ => some extracted.2.resolution.store.artifacts.toList,
    extracted.2.resolution.compilerState, extracted.2.log)

theorem collectApplication_extracted (settings : Settings) (compiler : StyleCompiler σ)
    {project : Project} {module : ModuleName} {version : SdkVersion}
    (based : project.baseClasses settings module version ≠ []) (state : σ) (log : ProblemLog) :
    let context : ResolutionContext σ :=
      { project, compiler, sourceAttribute := settings.style.sourceAttribute, module }
    collectApplication settings compiler project module version state log =
      gathered (context.extractAll settings.style
        (project.components module (project.baseClasses settings module version))
        { resolution := .start state, log }) := by
  intro context
  have notEmpty : (project.baseClasses settings module version).isEmpty = false :=
    List.isEmpty_eq_false_iff.mpr based
  simp only [context, collectApplication, notEmpty, Bool.false_eq_true, if_false]
  split
  · rename_i after found
    rw [found]
    rfl
  · rename_i failure after found
    rw [found]
    rfl

/-- What extracting the components gives is what the walk over their style tags gives. -/
theorem collectApplication_walk (settings : Settings) (compiler : StyleCompiler σ)
    {project : Project} {module : ModuleName} {version : SdkVersion}
    (based : project.baseClasses settings module version ≠ []) (state : σ) (log : ProblemLog) :
    let context : ResolutionContext σ :=
      { project, compiler, sourceAttribute := settings.style.sourceAttribute, module }
    let sites := project.styleSites settings.style
      (project.components module (project.baseClasses settings module version))
    let walk := context.resolveSites sites (.start state) log.problems
    let collected := collectApplication settings compiler project module version state log
    collected.1 = walk.1.map (fun _ => some walk.2.1.store.artifacts.toList) ∧
      collected.2.1 = walk.2.1.compilerState ∧ collected.2.2.problems = walk.2.2 := by
  intro context sites walk collected
  obtain ⟨ended, resolved, problems⟩ := context.extractAll_follows settings.style
    (project.components module (project.baseClasses settings module version))
    { resolution := .start state, log }
  have shape : collected = _ := collectApplication_extracted settings compiler based state log
  have stores : walk.2.1 = _ := resolved.symm
  have endings : walk.1 = _ := ended.symm
  rw [shape, stores, endings]
  refine ⟨?_, rfl, problems⟩
  cases context.extractAll settings.style
      (project.components module (project.baseClasses settings module version))
      { resolution := .start state, log } with
  | mk answer after => cases answer <;> rfl

theorem collectApplication_reference (settings : Settings) (compiler : StyleCompiler σ)
    {project : Project} {module : ModuleName} {version : SdkVersion}
    {verdict : Document → Verdict}
    (based : project.baseClasses settings module version ≠ [])
    (judged : compiler.JudgesBy module verdict) (state : σ) (log : ProblemLog) :
    let sites := project.styleSites settings.style
      (project.components module (project.baseClasses settings module version))
    let reference : PassReference :=
      { demand := StyleSite.demand project settings.style.sourceAttribute, verdict }
    let replies := compiler.replies module (reference.requests [] sites) state
    let collected := collectApplication settings compiler project module version state log
    ((∃ result, collected.1 = .ok result) ↔ ∀ site ∈ sites, reference.aborts site = false) ∧
      (∀ result, collected.1 = .ok result →
        ∃ artifacts, result = some artifacts ∧
          artifacts.map Artifact.summary = reference.artifacts sites replies.1 ∧
          collected.2.2.problems.toList =
            log.problems.toList ++ reference.problems [] sites replies.1 ∧
          collected.2.1 = replies.2) := by
  intro sites reference replies collected
  let context : ResolutionContext σ :=
    { project, compiler, sourceAttribute := settings.style.sourceAttribute, module }
  obtain ⟨result, compilerState, problems⟩ :=
    collectApplication_walk settings compiler based state log
  have start : Reflects (context.reference verdict) [] [] (Resolution.start state).store :=
    reflects_empty (context.reference verdict)
  rcases ResolutionContext.resolveSites_reference judged sites start log.problems with
    ⟨⟨site, inside, aborts⟩, failure, last, found, walked⟩ |
      ⟨clean, last, found, walked, told, final, holds⟩
  · rw [walked] at result
    have failed : collected.1 = .error failure := result
    rw [failed]
    refine ⟨⟨?_, ?_⟩, ?_⟩
    · rintro ⟨_, impossible⟩
      cases impossible
    · intro clean
      have goesOn : (context.reference verdict).aborts site = false := clean site inside
      rw [goesOn] at aborts
      cases aborts
    · intro _ impossible
      cases impossible
  · rw [walked] at result compilerState problems
    have succeeded : collected.1 = .ok (some last.store.artifacts.toList) := result
    have stated : collected.2.1 = last.compilerState := compilerState
    have reported : collected.2.2.problems = found := problems
    have summaries := holds.summaries
    rw [List.nil_append, List.nil_append] at summaries
    rw [succeeded, stated, reported]
    refine ⟨⟨?_, ?_⟩, ?_⟩
    · intro _
      exact clean
    · intro _
      exact ⟨_, rfl⟩
    · intro _ same
      cases same
      exact ⟨_, rfl, summaries, told, final⟩

/-- A pass over an application succeeds unless a tag ends it.  Its artifacts are then those at
the places of their tags, each with its owners, and its problems those of the tags without a
usable stylesheet, in the order in which the tags are visited. -/
theorem collect_eq_reference (host : Host) (settings : Settings) (compiler : StyleCompiler σ)
    {module : ModuleName} {found : ComponentModule} {sdk : String} {version : SdkVersion}
    {verdict : Document → Verdict} (indexed : host.signals.indexing = false)
    (committed : host.signals.uncommitted = false)
    (known : host.project.module? module = some found)
    (application : found.nature = .application) (parsed : SdkVersion.parse sdk = .ok version)
    (based : host.project.baseClasses settings module version ≠ [])
    (judged : compiler.JudgesBy module verdict) (state : σ) (log : ProblemLog) (thread : Nat)
    (events : List SourceEvent) :
    let bases := host.project.baseClasses settings module version
    let visited := (bases.flatMap fun base =>
      host.project.findInheritors base true (.own module)).eraseDupsBy
        fun later earlier => later.name == earlier.name
    let sites := host.project.styleSites settings.style visited
    let reference : PassReference :=
      { demand := StyleSite.demand host.project settings.style.sourceAttribute, verdict }
    let replies := compiler.replies module (reference.requests [] sites) state
    ∃ outcome,
      host.collect settings compiler module sdk state log thread events = some outcome ∧
      ((∃ result, outcome.result = .ok result) ↔
        ∀ site ∈ sites, reference.aborts site = false) ∧
      (∀ result, outcome.result = .ok result →
        ∃ artifacts, result = some artifacts ∧
          artifacts.map Artifact.summary = reference.artifacts sites replies.1 ∧
          outcome.log.problems.toList =
            log.problems.toList ++ reference.problems [] sites replies.1 ∧
          outcome.compilerState = replies.2) := by
  intro bases visited sites reference replies
  obtain ⟨signals, collected⟩ := host.collect_application settings compiler indexed committed
    known application parsed state log thread events
  have account := collectApplication_reference settings compiler based judged state log
  rw [host.project.components_eq] at account
  exact ⟨_, collected, account⟩

def styleTag (attributes : Table String (Option String)) (text : Option String) : Element :=
  { id := 0
    space := StyleTagSettings.standard.space
    name := StyleTagSettings.standard.tag
    attributes
    children := []
    text
    language := none
    line := some 2 }

def pageOf (tags : List Element) : Element :=
  { id := 0
    space := ""
    name := "Page"
    attributes := []
    children := tags
    text := none
    language := none
    line := some 1 }

def applicationBase : ClassName :=
  ⟨"mx.core.Application"⟩

def twoPages : Project :=
  { modules :=
      [(⟨"app"⟩, { nature := .application, sourceRoots := [⟨"src"⟩], dependencies := [] })]
    documents :=
      [.markup ⟨"src/First.mxml"⟩
        (some (pageOf
          [styleTag [] (some "A{b:c}"), styleTag [("source", some "theme.css")] none])),
        .markup ⟨"src/Second.mxml"⟩
          (some (pageOf
            [styleTag [("source", some "theme.css")] none,
              styleTag [("source", some "missing.css")] none])),
        .stylesheet ⟨"src/theme.css"⟩ "B{d:e}"]
    classes :=
      [{ name := applicationBase, module := ⟨"app"⟩, extends? := none, file := none },
        { name := ⟨"First"⟩, module := ⟨"app"⟩, extends? := some applicationBase,
          file := some ⟨"src/First.mxml"⟩ },
        { name := ⟨"Second"⟩, module := ⟨"app"⟩, extends? := some applicationBase,
          file := some ⟨"src/Second.mxml"⟩ }]
    overrides := [] }

theorem twoPages_visited :
    ((twoPages.baseClasses .standard ⟨"app"⟩ ⟨3, "3.6"⟩).flatMap fun base =>
      twoPages.findInheritors base true (.own ⟨"app"⟩)).eraseDupsBy
        (fun later earlier => later.name == earlier.name) = twoPages.classes := by
  cbv

theorem collect_twoPages :
    ∃ outcome artifacts,
      (Host.ofProject twoPages).collect .standard sheetCompiler ⟨"app"⟩ "3.6" .empty .empty 0 [] =
        some outcome ∧
      outcome.result = .ok (some artifacts) ∧
      artifacts.map Artifact.summary =
        [{ file := ⟨"src/First.mxml"⟩
           kind := "inline"
           data := [1, 0, 255, 255, 255, 255, 0, 0, 0, 0, 1, 0, 1, 0, 0, 0, 2, 0, 0, 0]
           users := [] },
          { file := ⟨"src/theme.css"⟩
            kind := "external"
            data := [1, 0, 255, 255, 255, 255, 3, 0, 0, 0, 1, 0, 4, 0, 0, 0, 5, 0, 0, 0]
            users := [⟨"src/First.mxml"⟩, ⟨"src/Second.mxml"⟩] }] ∧
      outcome.log.problems.toList =
        [{ file := ⟨"src/Second.mxml"⟩
           line := some 2
           message := "Cannot resolve embedded source: missing.css" }] := by
  have parsed : SdkVersion.parse "3.6" = .ok ⟨3, "3.6"⟩ := by rfl
  have based : twoPages.baseClasses .standard ⟨"app"⟩ ⟨3, "3.6"⟩ ≠ [] := by
    intro empty
    have visited := twoPages_visited
    rw [empty] at visited
    cases visited
  have account := collect_eq_reference (.ofProject twoPages) .standard sheetCompiler
    rfl rfl rfl rfl parsed based (sheetCompiler_judgesBy ⟨"app"⟩) .empty .empty 0 []
  have visited := twoPages_visited
  dsimp only [Host.ofProject] at account
  rw [visited] at account
  obtain ⟨outcome, collected, succeeds, gives⟩ := account
  have clean := succeeds.mpr (by decide +kernel)
  obtain ⟨result, ok⟩ := clean
  obtain ⟨artifacts, some, summaries, problems, _⟩ := gives result ok
  refine ⟨outcome, artifacts, collected, ?_, ?_, ?_⟩
  · rw [ok, some]
  · rw [summaries]
    decide +kernel
  · rw [problems]
    decide +kernel

end ComponentStyles
