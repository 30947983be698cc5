import ComponentStyles.Proofs.Pass.Failing
import ComponentStyles.Proofs.Pass.Hosting

/-!
Passes over projects whose elements have no given fragments.

The content of an element is then its own body, in one piece.  So the demand of a tag is never
broken, and no pass ends because of injected content, whatever module it is over.
-/

namespace ComponentStyles

variable {σ : Type}

/-- What is injected into an element is not what the element hosts. -/
def PassFailure.breaksInjection : PassFailure → Bool
  | severalFragments _ _ | strayShreds _ _ _ => true
  | _ => false

theorem StyleSite.injectionDemand_ne_broken {project : Project} (plain : project.overrides = [])
    (host : InjectionHost) (failure : PassFailure) :
    injectionDemand project host ≠ .broken failure := by
  intro asked
  unfold injectionDemand at asked
  rw [Project.injectedFragments_plain plain] at asked
  cases found : project.fragmentOf? host with
  | none => simp only [found, Option.toList_none, reduceCtorEq] at asked
  | some fragment =>
      obtain ⟨_, element, text, _, _, _, same⟩ := Project.fragmentOf?_eq_some.mp found
      have own : fragment.shreds.map Shred.host = [host] := by
        rw [same]
        rfl
      simp only [found, Option.toList_some, own, if_true] at asked
      split at asked <;> cases asked

theorem StyleSite.demand_ne_broken {project : Project} (plain : project.overrides = [])
    (sourceAttribute : String) (site : StyleSite) (failure : PassFailure) :
    site.demand project sourceAttribute ≠ .broken failure := by
  intro asked
  obtain ⟨host, _, broken⟩ := injectionDemand_of_demand asked rfl
  exact injectionDemand_ne_broken plain host failure broken

theorem ResolutionContext.EndsWith.keepsInjection {context : ResolutionContext σ} {sdk : String}
    {failure : PassFailure} (plain : context.project.overrides = [])
    (ends : context.EndsWith sdk failure) : failure.breaksInjection = false := by
  cases ends with
  | refused => rfl
  | stopped => rfl
  | unknownModule unknown => rfl
  | unparsed fault refused => rfl
  | compiler sheet before after failure compiled => rfl
  | broken site failure asked => exact absurd asked (site.demand_ne_broken plain _ failure)

theorem Host.collect_keepsInjection {project : Project} (plain : project.overrides = [])
    (settings : Settings) (compiler : StyleCompiler σ) (module : ModuleName) (state : σ)
    (log : ProblemLog) {failure : PassFailure} {host : Host} (described : host.project = project)
    {sdk : String} {thread : Nat} {events : List SourceEvent} {outcome : PassOutcome σ}
    (collected : host.collect settings compiler module sdk state log thread events = some outcome)
    (failed : outcome.result = .error failure) : failure.breaksInjection = false := by
  have ends := Host.collect_endsWith settings compiler module sdk state log collected failed
  rw [described] at ends
  exact ends.keepsInjection plain

/-- Without given fragments, an element of a stored document that hosts content hosts its own body
in one piece, which is a stylesheet unless the element names another language.  So no pass ends
because of injected content.  And no two elements have fragments of one identity. -/
theorem injected_content_is_own (project : Project) (plain : project.overrides = [])
    (numbered : project.Numbered) :
    (∀ (file : FileId) (document : Document) (root element : Element) (host : InjectionHost),
      project.document? file = some document → document.root = some root →
      element ∈ root.preorder → project.injectionHost? document element = some host →
      host = { file, element := element.id } ∧
        ∃ fragment, project.injectedFragments host = [fragment] ∧
          element.text = some fragment.document.text ∧
          fragment.shreds =
            [{ host, start := 0, stop := fragment.document.text.utf8ByteSize }] ∧
          (fragment.document.isStylesheet = true ↔
            element.language = none ∨ ∃ language, element.language = some language ∧
              Text.sameIgnoringCase language "css" = true) ∧
          fragment.document.file = Project.fragmentFile host) ∧
    (∀ (σ : Type) (signals : Signals) (settings : Settings) (compiler : StyleCompiler σ)
      (module : ModuleName) (sdk : String) (state : σ) (log : ProblemLog) (thread : Nat)
      (events : List SourceEvent) (outcome : PassOutcome σ) (failure : PassFailure),
      Host.collect { project, signals } settings compiler module sdk state log thread events =
        some outcome →
      outcome.result = .error failure → failure.breaksInjection = false) ∧
    ∀ host other : InjectionHost,
      Project.fragmentFile host = Project.fragmentFile other → host = other := by
  refine ⟨?_, ?_, ?_⟩
  · intro file document root element host stored rooted inside hosts
    obtain ⟨text, written, fragments⟩ :=
      numbered.injectedFragments_eq plain stored rooted inside hosts
    have own := ((Project.injectionHost?_eq_some plain).mp hosts).1
    rw [Project.file_of_document? stored] at own
    refine ⟨own, Project.bodyFragment host element.language text, fragments, ?_, ?_, ?_, ?_⟩
    · rw [Project.text_bodyFragment]
      exact written
    · rw [Project.text_bodyFragment]
      rfl
    · rw [Project.isStylesheet_bodyFragment]
      exact Project.isStyleLanguage_iff
    · exact Project.file_bodyFragment host element.language text
  · intro σ signals settings compiler module sdk state log thread events outcome failure collected
      failed
    exact Host.collect_keepsInjection plain settings compiler module state log rfl collected failed
  · intro host other same
    exact Project.fragmentFile_injective same

def nestedPage : Fixture :=
  pageBehind "src/A#1.mxml"
    [pageOf [{ styleTag [] (some "A{b:c}") with language := some "CSS" }]] [⟨"Page"⟩]

/-- The stylesheet below the element is a fragment of its own, and a pass that fails does so for
another reason. -/
theorem injected_content_of_nestedPage :
    let project := nestedPage.project
    (∃ fragment, project.injectedFragments ⟨⟨"src/A#1.mxml"⟩, 2⟩ = [fragment] ∧
      fragment.document.text = "A{b:c}" ∧
      fragment.shreds = [⟨⟨⟨"src/A#1.mxml"⟩, 2⟩, 0, fragment.document.text.utf8ByteSize⟩] ∧
      fragment.document.isStylesheet = true ∧ fragment.document.file = ⟨"src/A#1.mxml#2"⟩) ∧
    (∃ outcome failure,
      (Host.ofProject project).collect .standard sheetCompiler ⟨"lib"⟩ "4.6" .empty .empty 0 [] =
        some outcome ∧
      outcome.result = .error failure ∧ failure.breaksInjection = false) ∧
    Project.fragmentFile ⟨⟨"src/A"⟩, 12⟩ ≠ Project.fragmentFile ⟨⟨"src/A#1"⟩, 2⟩ := by
  intro project
  obtain ⟨own, whole, different⟩ := injected_content_is_own project rfl nestedPage.project_numbered
  refine ⟨?_, ?_, ?_⟩
  · have inside : { styleTag [] (some "A{b:c}") with id := 2, language := some "CSS" } ∈
        ((pageOf [pageOf [{ styleTag [] (some "A{b:c}") with language := some "CSS" }]]).numbered
          0).1.preorder :=
      List.mem_of_getElem? (i := 2) rfl
    obtain ⟨_, fragment, fragments, text, shreds, language, file⟩ :=
      own ⟨"src/A#1.mxml"⟩ _ _ _ ⟨⟨"src/A#1.mxml"⟩, 2⟩ rfl rfl inside (by decide +kernel)
    refine ⟨fragment, fragments, (Option.some.inj text).symm, shreds, ?_, file⟩
    exact language.mpr (Or.inr ⟨"CSS", rfl, by decide +kernel⟩)
  · have passed : (Host.ofProject project).signals.awaitConsistency 0 [] = some (.passed, _) :=
      Signals.awaitConsistency_consistent rfl rfl 0 []
    obtain ⟨outcome, collected⟩ :=
      Host.collect_returns passed .standard sheetCompiler ⟨"lib"⟩ "4.6" .empty .empty
    have failed : outcome.result = .error (.host (.unknownModule "lib")) := by
      have answered := collected
      rw [Host.collect, passed] at answered
      cases answered
      rfl
    exact ⟨outcome, _, collected, failed, whole _ .initial .standard sheetCompiler ⟨"lib"⟩ "4.6"
      .empty .empty 0 [] outcome _ collected failed⟩
  · intro same
    have sameElement := congrArg InjectionHost.element (different _ _ same)
    exact absurd sameElement (by decide)

end ComponentStyles
