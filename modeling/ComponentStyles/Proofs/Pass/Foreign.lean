import ComponentStyles.Proofs.Pass.Calls
import ComponentStyles.Proofs.Pass.Hosting
import ComponentStyles.Proofs.Project.Descent

/-!
Documents that a pass over an application does not read for style tags.

Tags are those of the documents behind components of the module, and any other markup document
is at most found not to be a stylesheet.  So its tree may be another one and the pass stays the
same, call by call.
-/

namespace ComponentStyles

variable {σ : Type}

namespace Project

def withDocuments (project : Project) (documents : List Document) : Project :=
  { project with documents }

def Backs (project : Project) (module : ModuleName) (file : FileId) : Prop :=
  ∃ declared ∈ project.classes, declared.module = module ∧ declared.file = some file

instance (project : Project) (module : ModuleName) (file : FileId) :
    Decidable (project.Backs module file) :=
  inferInstanceAs (Decidable
    (∃ declared ∈ project.classes, declared.module = module ∧ declared.file = some file))

/-- The documents are those of the project but for markup documents behind no class of the
module, whose trees may be others. -/
def DiffersInForeignTrees (project : Project) (module : ModuleName) (documents : List Document) :
    Prop :=
  ∀ file : FileId,
    (project.withDocuments documents).document? file = project.document? file ∨
      ¬ project.Backs module file ∧ ∃ stored other, project.document? file = some stored ∧
        (project.withDocuments documents).document? file = some other ∧
        stored.kind = .markup ∧ other.kind = .markup

/-- A markup document behind no class of the module may be exchanged for another. -/
theorem differsInForeignTrees_putDocument {project : Project} {module : ModuleName}
    {stored document : Document} (foreign : ¬ project.Backs module document.file)
    (found : project.document? document.file = some stored) (storedMarkup : stored.kind = .markup)
    (markup : document.kind = .markup) :
    project.DiffersInForeignTrees module (putDocument document project.documents) := by
  intro file
  have put : (project.withDocuments (putDocument document project.documents)).document? file =
      if document.file = file then some document else project.document? file :=
    project.document?_addDocument document file
  rw [put]
  by_cases same : document.file = file
  · rw [if_pos same, ← same]
    exact Or.inr ⟨foreign, stored, document, found, rfl, storedMarkup, markup⟩
  · rw [if_neg same]
    exact Or.inl rfl

section Differing

variable {project : Project} {module : ModuleName} {documents : List Document}
  (differs : project.DiffersInForeignTrees module documents)
include differs

theorem document?_of_backs {file : FileId} (backs : project.Backs module file) :
    (project.withDocuments documents).document? file = project.document? file := by
  rcases differs file with same | ⟨foreign, _⟩
  · exact same
  · exact absurd backs foreign

theorem map_file_withDocuments (file : FileId) :
    ((project.withDocuments documents).document? file).map Document.file =
      (project.document? file).map Document.file := by
  rcases differs file with same | ⟨_, stored, other, found, otherFound, _⟩
  · rw [same]
  · rw [found, otherFound, Option.map_some, Option.map_some, file_of_document? found,
      file_of_document? otherFound]

theorem sheet_withDocuments (file : FileId) :
    ((project.withDocuments documents).document? file).filter Document.isStylesheet =
      (project.document? file).filter Document.isStylesheet := by
  rcases differs file with same | ⟨_, stored, other, found, otherFound, markup, otherMarkup⟩
  · rw [same]
  · rw [found, otherFound]
    simp only [Option.filter_some, Document.isStylesheet, markup, otherMarkup]
    rfl

theorem resolveReference?_withDocuments (origin : FileId) (value : String) :
    (project.withDocuments documents).resolveReference? origin value =
      project.resolveReference? origin value := by
  apply resolveReference?_congr
  · rfl
  · exact map_file_withDocuments differs

theorem backingDocument?_withDocuments {declared : ComponentClass}
    (inside : declared ∈ project.classes) (belongs : declared.module = module) :
    (project.withDocuments documents).backingDocument? declared =
      project.backingDocument? declared := by
  unfold backingDocument?
  cases filed : declared.file with
  | none => rfl
  | some file =>
      simp only [Option.bind_eq_bind, Option.bind_some]
      rw [document?_of_backs differs ⟨declared, inside, belongs, filed⟩]

/-- A tag in a document behind a class of the module asks for what it asked for. -/
theorem demand_withDocuments (sourceAttribute : String) {site : StyleSite}
    (backs : project.Backs module site.document.file) :
    site.demand (project.withDocuments documents) sourceAttribute =
      site.demand project sourceAttribute := by
  have attached : Attachment.of (project.withDocuments documents) sourceAttribute site.document
      site.tag = Attachment.of project sourceAttribute site.document site.tag := rfl
  unfold StyleSite.demand
  rw [attached]
  cases attachment : Attachment.of project sourceAttribute site.document site.tag with
  | nothing => rfl
  | reference value =>
      simp only [StyleSite.referenceDemand, resolveReference?_withDocuments differs,
        sheet_withDocuments differs]
  | injected hosting =>
      have own : hosting.file = site.document.file :=
        congrArg InjectionHost.file (host_of_injected attachment)
      have fragments : (project.withDocuments documents).injectedFragments hosting =
          project.injectedFragments hosting := by
        unfold injectedFragments fragmentOf?
        rw [own, document?_of_backs differs backs]
        rfl
      simp only [StyleSite.injectionDemand, fragments]

end Differing

end Project

namespace ResolutionContext

def withProject (context : ResolutionContext σ) (project : Project) : ResolutionContext σ :=
  { context with project }

section Projects

variable {context : ResolutionContext σ} {project : Project}

theorem resolve_withProject {site : StyleSite}
    (same : site.demand project context.sourceAttribute = context.demand site)
    (resolution : Resolution σ) :
    (context.withProject project).resolve site.document site.tag resolution =
      context.resolve site.document site.tag resolution := by
  have demand : (context.withProject project).demand site = context.demand site := same
  rw [resolve_eq, resolve_eq, demand]
  rfl

theorem resolveTags_withProject {document : Document} {tags : List Element}
    (same : ∀ tag ∈ tags, StyleSite.demand project context.sourceAttribute { document, tag } =
      context.demand { document, tag })
    (state : PassState σ) (made : Nat) :
    (context.withProject project).resolveTags document tags state made =
      context.resolveTags document tags state made := by
  induction tags generalizing state made with
  | nil => rfl
  | cons tag rest inductionHypothesis =>
      have first := resolve_withProject (same tag List.mem_cons_self) state.resolution
      have later := inductionHypothesis fun other inside =>
        same other (List.mem_cons_of_mem tag inside)
      simp only [resolveTags, first, later]

theorem extract_withProject {style : StyleTagSettings} {declared : ComponentClass}
    (backed : project.backingDocument? declared = context.project.backingDocument? declared)
    (same : ∀ site ∈ context.project.sitesOf style declared,
      site.demand project context.sourceAttribute = context.demand site)
    (state : PassState σ) :
    (context.withProject project).extract style declared state =
      context.extract style declared state := by
  have answer : (context.withProject project).project.backingDocument? declared =
      context.project.backingDocument? declared := backed
  unfold extract
  rw [answer]
  cases found : context.project.backingDocument? declared with
  | none => rfl
  | some document =>
      have tags : ∀ tag ∈ style.tagsOf document,
          StyleSite.demand project context.sourceAttribute { document, tag } =
            context.demand { document, tag } := by
        intro tag tagged
        apply same
        rw [Project.sitesOf, found]
        exact List.mem_map.mpr ⟨tag, tagged, rfl⟩
      simp only [resolveTags_withProject tags]

theorem extractAll_withProject {style : StyleTagSettings} {classes : List ComponentClass}
    (backed : ∀ declared ∈ classes,
      project.backingDocument? declared = context.project.backingDocument? declared)
    (same : ∀ site ∈ context.project.styleSites style classes,
      site.demand project context.sourceAttribute = context.demand site)
    (state : PassState σ) :
    (context.withProject project).extractAll style classes state =
      context.extractAll style classes state := by
  induction classes generalizing state with
  | nil => rfl
  | cons declared rest inductionHypothesis =>
      have first := extract_withProject (backed declared List.mem_cons_self)
        (fun site inside => same site (List.mem_append_left _ inside)) state
      have later := inductionHypothesis
        (fun other inside => backed other (List.mem_cons_of_mem declared inside))
        (fun site inside => same site (List.mem_append_right _ inside))
      simp only [extractAll, first, later]

end Projects

end ResolutionContext

section Differing

variable {project : Project} {module : ModuleName} {documents : List Document}
  (differs : project.DiffersInForeignTrees module documents)
include differs

theorem collectApplication_withDocuments (settings : Settings) (compiler : StyleCompiler σ)
    (version : SdkVersion) (state : σ) (log : ProblemLog) :
    collectApplication settings compiler (project.withDocuments documents) module version state
        log = collectApplication settings compiler project module version state log := by
  have bases : (project.withDocuments documents).baseClasses settings module version =
      project.baseClasses settings module version := rfl
  by_cases noBase : project.baseClasses settings module version = []
  · simp only [collectApplication, bases, noBase, List.isEmpty_nil, if_true]
  · let context : ResolutionContext σ :=
      { project, compiler, sourceAttribute := settings.style.sourceAttribute, module }
    have own : ∀ declared ∈ project.components module
        (project.baseClasses settings module version),
          declared ∈ project.classes ∧ declared.module = module := by
      intro declared component
      obtain ⟨inside, belongs, _⟩ :=
        Project.of_mem_components (fun _ among => mem_baseClasses among) component
      exact ⟨inside, belongs⟩
    have extracted : (context.withProject (project.withDocuments documents)).extractAll
        settings.style (project.components module (project.baseClasses settings module version))
        { resolution := .start state, log } = context.extractAll settings.style
          (project.components module (project.baseClasses settings module version))
          { resolution := .start state, log } := by
      apply ResolutionContext.extractAll_withProject
      · intro declared component
        obtain ⟨inside, belongs⟩ := own declared component
        exact Project.backingDocument?_withDocuments differs inside belongs
      · intro site inside
        obtain ⟨declared, component, among⟩ := List.mem_flatMap.mp inside
        obtain ⟨declaredInside, belongs⟩ := own declared component
        obtain ⟨⟨file, filed, stored⟩, _, _⟩ := Project.mem_sitesOf.mp among
        have backs : project.Backs module site.document.file := by
          rw [Project.file_of_document? stored]
          exact ⟨declared, declaredInside, belongs, filed⟩
        exact Project.demand_withDocuments differs settings.style.sourceAttribute backs
    rw [collectApplication_extracted settings compiler noBase,
      collectApplication_extracted settings compiler (bases ▸ noBase)]
    exact congrArg gathered extracted

theorem collect_withDocuments {host : Host} (described : host.project = project)
    {found : ComponentModule} (known : project.module? module = some found)
    (application : found.nature = .application) (settings : Settings)
    (compiler : StyleCompiler σ) (sdk : String) (state : σ) (log : ProblemLog) (thread : Nat)
    (events : List SourceEvent) :
    { host with project := project.withDocuments documents }.collect settings compiler module sdk
        state log thread events =
      host.collect settings compiler module sdk state log thread events := by
  have consistent : collectConsistent settings compiler (project.withDocuments documents) module
      sdk state log = collectConsistent settings compiler project module sdk state log := by
    have stillKnown : (project.withDocuments documents).module? module = some found := known
    simp only [collectConsistent, Project.knownModule, known, stillKnown, application]
    cases SdkVersion.parse sdk with
    | error fault => rfl
    | ok version =>
        exact collectApplication_withDocuments differs settings compiler version state log
  simp only [Host.collect, described, consistent]

end Differing

/-- The trees of markup documents behind no class of the module have no effect on a pass over
it: neither on what it gives nor on what it asks of its compiler. -/
theorem foreign_trees_unread (host : Host) (settings : Settings) (compiler : StyleCompiler σ)
    {module : ModuleName} {found : ComponentModule} {documents : List Document}
    (known : host.project.module? module = some found)
    (application : found.nature = .application)
    (differs : host.project.DiffersInForeignTrees module documents) (sdk : String) (state : σ)
    (log : ProblemLog) (thread : Nat) (events : List SourceEvent) :
    let other : Host := { host with project := host.project.withDocuments documents }
    other.collect settings compiler module sdk state log thread events =
        host.collect settings compiler module sdk state log thread events ∧
      other.calls settings compiler module sdk state log thread events =
        host.calls settings compiler module sdk state log thread events := by
  intro other
  refine ⟨collect_withDocuments differs rfl known application settings compiler sdk state log
    thread events, ?_⟩
  -- The calls are the state of the recording compiler, to which the same applies.
  unfold Host.calls
  rw [collect_withDocuments differs rfl known application settings compiler.recorded sdk
    (state, []) log thread events]

def borrowedPages : Project :=
  { twoPages with
    classes :=
      [{ name := applicationBase, module := ⟨"app"⟩, extends? := none, file := none },
        { name := ⟨"First"⟩, module := ⟨"app"⟩, extends? := some applicationBase,
          file := some ⟨"src/First.mxml"⟩ },
        { name := ⟨"Second"⟩, module := ⟨"lib"⟩, extends? := some applicationBase,
          file := some ⟨"src/Second.mxml"⟩ }] }

theorem visitedComponents_borrowedPages :
    borrowedPages.visitedComponents .standard ⟨"app"⟩ "3.6" = borrowedPages.classes.take 2 := by
  cbv

/-- The application of the first page does not see that the second one is emptied. -/
theorem foreign_page_unread :
    let host := Host.ofProject borrowedPages
    let emptied : Document := .markup ⟨"src/Second.mxml"⟩ none
    let other := Host.ofProject
      (borrowedPages.withDocuments (Project.putDocument emptied borrowedPages.documents))
    ∃ outcome,
      host.collect .standard sheetCompiler ⟨"app"⟩ "3.6" .empty .empty 0 [] = some outcome ∧
        outcome.result = .ok (some
          [.inlined ⟨"src/First.mxml"⟩ stylishBytes,
            .external ⟨"src/theme.css"⟩
              [1, 0, 255, 255, 255, 255, 3, 0, 0, 0, 1, 0, 4, 0, 0, 0, 5, 0, 0, 0]
              ⟨"src/First.mxml"⟩]) ∧
        other.collect .standard sheetCompiler ⟨"app"⟩ "3.6" .empty .empty 0 [] = some outcome ∧
        other.calls .standard sheetCompiler ⟨"app"⟩ "3.6" .empty .empty 0 [] =
          host.calls .standard sheetCompiler ⟨"app"⟩ "3.6" .empty .empty 0 [] := by
  intro host emptied other
  have parsed : SdkVersion.parse "3.6" = .ok ⟨3, "3.6"⟩ := rfl
  obtain ⟨outcome, collected, result⟩ :=
    collect_visited sheetCompiler rfl rfl parsed visitedComponents_borrowedPages
      (List.cons_ne_nil _ _) .empty
  have foreign : ¬ borrowedPages.Backs ⟨"app"⟩ emptied.file := by decide
  have differs : borrowedPages.DiffersInForeignTrees ⟨"app"⟩
      (Project.putDocument emptied borrowedPages.documents) :=
    Project.differsInForeignTrees_putDocument foreign rfl rfl rfl
  obtain ⟨same, calls⟩ := foreign_trees_unread host .standard sheetCompiler rfl rfl differs "3.6"
    .empty .empty 0 []
  refine ⟨outcome, collected, ?_, same.trans collected, calls⟩
  rw [result]
  decide +kernel

end ComponentStyles
