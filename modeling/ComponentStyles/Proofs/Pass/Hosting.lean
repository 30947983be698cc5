import ComponentStyles.Proofs.Pass.Visits
import ComponentStyles.Proofs.Project.Injection

/-!
The file that an artifact for a body goes by.

The identity of injected content is the hosting file, a number sign and the number of the element.
It is cut at the first number sign, so it leads back to the hosting file only if that has none of
its own.
-/

namespace ComponentStyles

variable {σ : Type}

namespace Text

theorem cutFirst?_behind (separator : Char) (text more : List Char) :
    cutFirst? separator (text ++ separator :: more) =
      match cutFirst? separator text with
      | some (front, back) => some (front, back ++ separator :: more)
      | none => some (text, more) := by
  cases cut : cutFirst? separator text with
  | none => exact cutFirst?_append (not_mem_of_cutFirst? cut)
  | some parts =>
      obtain ⟨front, back⟩ := parts
      obtain ⟨shape, absent⟩ := append_of_cutFirst? cut
      rw [shape, List.append_assoc, List.cons_append]
      exact cutFirst?_append absent

end Text

/-- The part of a path in front of its first number sign. -/
def FileId.front (file : FileId) : FileId :=
  match Text.cutFirst? '#' file.path.toList with
  | some (front, _) => { path := String.ofList front }
  | none => file

theorem FileId.front_eq_self {file : FileId} : file.front = file ↔ '#' ∉ file.path.toList := by
  unfold front
  cases cut : Text.cutFirst? '#' file.path.toList with
  | none => exact iff_of_true rfl (Text.not_mem_of_cutFirst? cut)
  | some parts =>
      obtain ⟨front, back⟩ := parts
      obtain ⟨shape, absent⟩ := Text.append_of_cutFirst? cut
      constructor
      · intro same
        rw [← same, String.toList_ofList]
        exact absent
      · intro unmarked
        rw [shape] at unmarked
        exact absurd (List.mem_append_right front List.mem_cons_self) unmarked

namespace Project

/-- A fragment leads back to as much of its host's path as stands in front of a number sign. -/
theorem front_fragmentFile (host : InjectionHost) :
    (fragmentFile host).front = host.file.front := by
  unfold FileId.front
  rw [toList_fragmentFile, Text.cutFirst?_behind]
  cases cut : Text.cutFirst? '#' host.file.path.toList with
  | none =>
      dsimp only
      rw [String.ofList_toList]
  | some parts => rfl

theorem hostingFile_eq_front (document : Document) :
    hostingFile document = document.file.front :=
  rfl

end Project

section Plain

variable {project : Project} {sourceAttribute : String} {site : StyleSite}

theorem host_of_injected {hosting : InjectionHost}
    (attached : Attachment.of project sourceAttribute site.document site.tag =
      .injected hosting) : hosting = site.host := by
  unfold Attachment.of at attached
  split at attached
  · cases attached
  · cases attached
  · split at attached
    · rename_i own found
      cases attached
      exact (Option.some.inj (Option.ite_none_right_eq_some.mp found).2).symm
    · cases attached

/-- Without given fragments, the stylesheet in the body of a tag has the identity made for the
tag. -/
theorem file_of_injectionDemand (plain : project.overrides = []) {hosting : InjectionHost}
    {sheet : Document} (asked : StyleSite.injectionDemand project hosting = .embedded sheet) :
    sheet.file = Project.fragmentFile hosting := by
  unfold StyleSite.injectionDemand at asked
  rw [Project.injectedFragments_plain plain] at asked
  cases found : project.fragmentOf? hosting with
  | none => simp only [found, Option.toList_none, reduceCtorEq] at asked
  | some fragment =>
      have file : fragment.document.file = Project.fragmentFile hosting := by
        obtain ⟨_, element, text, _, _, _, same⟩ := Project.fragmentOf?_eq_some.mp found
        rw [same]
        exact Project.file_bodyFragment hosting element.language text
      simp only [found, Option.toList_some] at asked
      split at asked
      · split at asked
        · cases asked
          exact file
        · cases asked
      · cases asked

theorem file_of_embedded (plain : project.overrides = []) {sheet : Document}
    (asked : site.demand project sourceAttribute = .embedded sheet) :
    sheet.file = Project.fragmentFile site.host := by
  obtain ⟨hosting, attached, embedded⟩ := StyleSite.injectionDemand_of_demand asked rfl
  rw [← host_of_injected attached]
  exact file_of_injectionDemand plain embedded

theorem not_injected_of_shared {sheet : Document}
    (asked : site.demand project sourceAttribute = .shared sheet) (hosting : InjectionHost) :
    Attachment.of project sourceAttribute site.document site.tag ≠ .injected hosting := by
  intro attached
  unfold StyleSite.demand StyleSite.injectionDemand at asked
  rw [attached] at asked
  dsimp only at asked
  split at asked
  · cases asked
  · split at asked
    · split at asked <;> cases asked
    · cases asked
  · cases asked

end Plain

theorem ArtifactStore.artifact?_push_size (store : ArtifactStore) (artifact : Artifact) :
    (store.push artifact).2.artifact? store.size = some artifact := by
  rw [artifact?_push, if_pos rfl]

section Resolved

variable {context : ResolutionContext σ} {site : StyleSite} {before after : Resolution σ}
  {handle : Nat}

/-- An artifact is made for injected content only if it is a stylesheet, and goes by the file that
the content leads back to. -/
theorem TagStep.made_of_injected (step : TagStep context site before (.ok (some handle)) after)
    {hosting : InjectionHost}
    (attached : Attachment.of context.project context.sourceAttribute site.document site.tag =
      .injected hosting) :
    ∃ sheet data, context.demand site = .embedded sheet ∧
      after.store.artifact? handle = some (.inlined (Project.hostingFile sheet) data) := by
  cases step with
  | embedded sheet data state asked _compiled =>
      exact ⟨sheet, data, asked, ArtifactStore.artifact?_push_size _ _⟩
  | created sheet data state asked _compiled =>
      exact absurd attached (not_injected_of_shared asked hosting)

theorem TagStep.inlined_of_injected (plain : context.project.overrides = [])
    (step : TagStep context site before (.ok (some handle)) after) {hosting : InjectionHost}
    (attached : Attachment.of context.project context.sourceAttribute site.document site.tag =
      .injected hosting) :
    ∃ data, after.store.artifact? handle = some (.inlined site.document.file.front data) := by
  obtain ⟨sheet, data, asked, stored⟩ := step.made_of_injected attached
  have file : Project.hostingFile sheet = site.document.file.front := by
    rw [Project.hostingFile_eq_front, file_of_embedded plain asked, Project.front_fragmentFile]
    rfl
  rw [file] at stored
  exact ⟨data, stored⟩

end Resolved

theorem Artifact.eq_of_growsTo_inlined {file : FileId} {data : List UInt8} {later : Artifact}
    (grown : (Artifact.inlined file data).GrowsTo later) : later = .inlined file data := by
  obtain ⟨sameFile, kind, sameData, _⟩ := grown
  cases later with
  | mk laterFile laterData origin =>
      cases origin with
      | inlined =>
          cases sameFile
          cases sameData
          rfl
      | external firstUser otherUsers =>
          have different : "external" = "inline" := kind
          exact absurd different (by decide)
      | defaults =>
          have different : "defaults" = "inline" := kind
          exact absurd different (by decide)

/-- Without given fragments, the artifact for the body of a tag goes by the part of the hosting
document's path in front of its first number sign, and so by the document itself exactly if there
is no number sign.  This is so of each tag as it is resolved, and of what a pass returns. -/
theorem inlined_at_front {host : Host} (settings : Settings) (compiler : StyleCompiler σ)
    (module : ModuleName) (plain : host.project.overrides = []) :
    (∀ (hosting : InjectionHost) (kind : DocumentKind) (text : String),
      let fragment := Document.ofKind kind (Project.fragmentFile hosting) none text
      Project.hostingFile fragment = hosting.file.front ∧
        (Project.hostingFile fragment = hosting.file ↔ '#' ∉ hosting.file.path.toList)) ∧
    (∀ (site : StyleSite) (hosting : InjectionHost) (before after : Resolution σ) (handle : Nat),
      Attachment.of host.project settings.style.sourceAttribute site.document site.tag =
        .injected hosting →
      (host.project.context settings compiler module).resolve site.document site.tag before =
        (.ok (some handle), after) →
      ∃ data, after.store.artifact? handle = some (.inlined site.document.file.front data)) ∧
    ∀ (found : ComponentModule) (sdk : String) (state : σ) (log : ProblemLog) (thread : Nat)
      (events : List SourceEvent) (outcome : PassOutcome σ) (artifacts : List Artifact),
      host.project.module? module = some found → found.nature = .application →
      host.collect settings compiler module sdk state log thread events = some outcome →
      outcome.result = .ok (some artifacts) →
      ∀ visit ∈ host.project.visits settings compiler module sdk state,
        ∀ (hosting : InjectionHost) (handle : Nat),
          Attachment.of host.project settings.style.sourceAttribute visit.site.document
            visit.site.tag = .injected hosting →
          visit.answer = .ok (some handle) →
          ∃ artifact, artifacts[handle]? = some artifact ∧ artifact.origin = .inlined ∧
            artifact.file = visit.site.document.file.front ∧
            (artifact.file = visit.site.document.file ↔
              '#' ∉ visit.site.document.file.path.toList) := by
  refine ⟨?_, ?_, ?_⟩
  · intro hosting kind text fragment
    have file : Project.hostingFile fragment = hosting.file.front := by
      rw [← Project.front_fragmentFile]
      cases kind <;> rfl
    rw [file]
    exact ⟨rfl, FileId.front_eq_self⟩
  · intro site hosting before after handle attached resolved
    have step := (host.project.context settings compiler module).resolve_tagStep site before
    rw [resolved] at step
    exact step.inlined_of_injected plain attached
  · intro found sdk state log thread events outcome artifacts known application collected ok visit
      inside hosting handle attached made
    have final := (collect_visits known application collected ok).1
    rw [Option.getD_some] at final
    have step := ResolutionContext.tagStep_of_mem_visits inside
    rw [made] at step
    obtain ⟨data, stored⟩ := step.inlined_of_injected plain attached
    -- What is resolved behind the visit leaves the artifact at its place.
    have grown := (ResolutionContext.visits_grow ArtifactStore.consistent_empty inside).2
    obtain ⟨later, laterFound, same⟩ := grown _ _ stored
    rw [Artifact.eq_of_growsTo_inlined same] at laterFound
    refine ⟨.inlined visit.site.document.file.front data, ?_, rfl, rfl, FileId.front_eq_self⟩
    rw [final, Array.getElem?_toList]
    exact laterFound

def pageBehind (path : String) (tags : List Element) (names : List ClassName) : Fixture :=
  { modules := [{ name := ⟨"app"⟩, nature := .application, sourceRoots := [], dependencies := [] }]
    documents := [{ file := ⟨path⟩, kind := .markup, root := some (pageOf tags), text := "" }]
    classes :=
      { name := applicationBase, module := ⟨"app"⟩, extends? := none, file := none } ::
        names.map fun name =>
          { name, module := ⟨"app"⟩, extends? := some applicationBase, file := some ⟨path⟩ } }

def stylishPage (path : String) : Fixture :=
  pageBehind path [styleTag [] (some "A{b:c}")] [⟨"Page"⟩]

theorem visitedComponents_stylishPage (path : String) :
    (stylishPage path).project.visitedComponents .standard ⟨"app"⟩ "4.6" =
      (stylishPage path).classes := by
  cbv

theorem collect_stylishPage (path : String) :
    ∃ outcome,
      (Host.ofProject (stylishPage path).project).collect .standard sheetCompiler ⟨"app"⟩ "4.6"
          .empty .empty 0 [] = some outcome ∧
        let project := (stylishPage path).project
        let walk := (project.context .standard sheetCompiler ⟨"app"⟩).resolveSites
          (project.styleSites .standard project.classes) (.start .empty) #[]
        outcome.result = walk.1.map (fun _ => some walk.2.1.store.artifacts.toList) ∧
          outcome.log.problems = walk.2.2 := by
  have parsed : SdkVersion.parse "4.6" = .ok ⟨4, "4.6"⟩ := rfl
  have occupied : (stylishPage path).project.visitedComponents .standard ⟨"app"⟩ "4.6" ≠ [] := by
    rw [visitedComponents_stylishPage]
    exact List.cons_ne_nil _ _
  obtain ⟨outcome, collected, result, _, problems⟩ :=
    (Host.ofProject (stylishPage path).project).collect_walk .standard sheetCompiler rfl rfl rfl rfl
      parsed occupied .empty .empty 0 []
  dsimp only [Host.ofProject] at result problems
  rw [visitedComponents_stylishPage] at result problems
  exact ⟨outcome, collected, result, problems⟩

def stylishBytes : List UInt8 :=
  [1, 0, 255, 255, 255, 255, 0, 0, 0, 0, 1, 0, 1, 0, 0, 0, 2, 0, 0, 0]

/-- The artifact for a page with a number sign in its path goes by another file. -/
theorem marked_page_misplaced :
    let fixture := stylishPage "src/A#1.mxml"
    fixture.checked = .ok fixture ∧
      (fixture.project.visits .standard sheetCompiler ⟨"app"⟩ "4.6" .empty).map
          (fun visit => (visit.site.document.file, visit.answer)) =
        [(⟨"src/A#1.mxml"⟩, .ok (some 0))] ∧
      ∃ outcome artifacts,
        (Host.ofProject fixture.project).collect .standard sheetCompiler ⟨"app"⟩ "4.6" .empty .empty
            0 [] = some outcome ∧
          outcome.result = .ok (some artifacts) ∧
          artifacts.map (fun artifact => (artifact.file, artifact.origin)) =
            [(⟨"src/A"⟩, .inlined)] := by
  intro fixture
  refine ⟨rfl, ?_, ?_⟩
  · unfold Project.visits
    rw [visitedComponents_stylishPage]
    decide +kernel
  · obtain ⟨outcome, collected, result, _⟩ := collect_stylishPage "src/A#1.mxml"
    refine ⟨outcome, [.inlined ⟨"src/A"⟩ stylishBytes], collected, ?_, rfl⟩
    rw [result]
    decide +kernel

theorem inlined_at_stylishPage :
    ∃ outcome artifacts artifact,
      (Host.ofProject (stylishPage "src/A.mxml").project).collect .standard sheetCompiler ⟨"app"⟩
          "4.6" .empty .empty 0 [] = some outcome ∧
        outcome.result = .ok (some artifacts) ∧ artifacts[0]? = some artifact ∧
        artifact.origin = .inlined ∧ artifact.file = ⟨"src/A.mxml"⟩ := by
  obtain ⟨outcome, collected, result, _⟩ := collect_stylishPage "src/A.mxml"
  have ok : outcome.result = .ok (some [.inlined ⟨"src/A.mxml"⟩ stylishBytes]) := by
    rw [result]
    decide +kernel
  obtain ⟨_, _, placed⟩ := inlined_at_front .standard sheetCompiler ⟨"app"⟩
    (show (Host.ofProject (stylishPage "src/A.mxml").project).project.overrides = [] from rfl)
  -- The page has one tag, and its visit makes the first artifact.
  have visited : ((stylishPage "src/A.mxml").project.visits .standard sheetCompiler ⟨"app"⟩ "4.6"
      .empty).map (fun visit => (visit.site.document.file, Attachment.of
        (stylishPage "src/A.mxml").project "source" visit.site.document visit.site.tag,
        visit.answer)) =
      [(⟨"src/A.mxml"⟩, .injected ⟨⟨"src/A.mxml"⟩, 1⟩, .ok (some 0))] := by
    unfold Project.visits
    rw [visitedComponents_stylishPage]
    decide +kernel
  obtain ⟨visit, only, told⟩ := List.map_eq_singleton_iff.mp visited
  rw [Prod.mk.injEq, Prod.mk.injEq] at told
  obtain ⟨file, attached, answer⟩ := told
  obtain ⟨artifact, first, inlined, _, whole⟩ := placed _ _ _ _ _ _ _ _ rfl rfl collected ok visit
    (only ▸ List.mem_singleton.mpr rfl) _ _ attached answer
  rw [file] at whole
  exact ⟨outcome, _, artifact, collected, ok, first, inlined,
    whole.mpr (by decide +kernel)⟩

end ComponentStyles
