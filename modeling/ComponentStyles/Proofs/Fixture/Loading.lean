import ComponentStyles.Proofs.Fixture.Project
import ComponentStyles.Proofs.Fixture.Validation
import ComponentStyles.Proofs.Pass.Failing

/-!
The project of an accepted fixture holds what the fixture describes, and nothing else.

Modules and documents are put under their names and paths.  As these are distinct, nothing is put in
the place of anything, and each name leads to what was described under it.
-/

namespace ComponentStyles

structure FixtureDocument.StoredAs (described : FixtureDocument) (stored : Document) : Prop where
  file : stored.file = described.file
  kind : stored.kind = described.kind
  tree : stored.root.map Element.unnumbered = described.root.map Element.unnumbered
  text : described.kind ≠ .markup → stored.text = described.text

/-- The project has the described modules, documents and classes in their order, each module and
document under its name or path, and no more. -/
structure Fixture.LoadedAs (fixture : Fixture) (project : Project) : Prop where
  moduleNames : project.modules.keys = fixture.modules.map FixtureModule.name
  modules : ∀ module ∈ fixture.modules,
    project.module? module.name =
      some
        { nature := module.nature, sourceRoots := module.sourceRoots
          dependencies := module.dependencies }
  files : project.documents.map Document.file = fixture.documents.map FixtureDocument.file
  documents : ∀ described ∈ fixture.documents,
    ∃ stored, project.document? described.file = some stored ∧ described.StoredAs stored
  classes : project.classes = fixture.classes
  overrides : project.overrides = []

theorem Project.putDocument_of_new {document : Document} {documents : List Document}
    (new : document.file ∉ documents.map Document.file) :
    putDocument document documents = documents ++ [document] := by
  induction documents with
  | nil => rfl
  | cons stored rest inductionHypothesis =>
      rw [List.map_cons, List.mem_cons, not_or] at new
      rw [putDocument, if_neg fun same => new.1 same.symm, inductionHypothesis new.2,
        List.cons_append]

theorem FixtureDocument.file_document (described : FixtureDocument) :
    described.document.file = described.file := by
  unfold FixtureDocument.document
  cases described.kind <;> rfl

theorem FixtureDocument.storedAs_document {described : FixtureDocument}
    (inMarkup : described.root ≠ none → described.kind = .markup) :
    described.StoredAs described.document := by
  have noTree : described.kind ≠ .markup → described.root = none :=
    fun other => not_not.mp fun rooted => other (inMarkup rooted)
  unfold FixtureDocument.document
  cases kind : described.kind with
  | markup =>
      refine ⟨rfl, kind.symm, ?_, fun other => absurd kind other⟩
      rw [Document.ofKind, Document.markup, Option.map_map]
      congr 1
      funext element
      exact element.unnumbered_numbered 0
  | stylesheet =>
      rw [kind] at noTree
      refine ⟨rfl, kind.symm, ?_, fun _ => rfl⟩
      rw [noTree (by decide)]
      rfl
  | other =>
      rw [kind] at noTree
      refine ⟨rfl, kind.symm, ?_, fun _ => rfl⟩
      rw [noTree (by decide)]
      rfl

namespace Fixture

theorem addModules_modules (modules : List FixtureModule) (project : Project)
    (distinct : (project.modules.keys ++ modules.map FixtureModule.name).Nodup) :
    (modules.foldl
      (fun (current : Project) module => current.addModule module.name module.componentModule)
      project).modules =
      project.modules ++ modules.map fun module => (module.name, module.componentModule) := by
  induction modules generalizing project with
  | nil => simp
  | cons module rest inductionHypothesis =>
      have new : module.name ∉ project.modules.keys := by
        intro known
        exact (List.nodup_append.mp distinct).2.2 _ known _ List.mem_cons_self rfl
      have added : (project.addModule module.name module.componentModule).modules =
          project.modules ++ [(module.name, module.componentModule)] :=
        Table.put_of_new new module.componentModule
      rw [List.foldl_cons, inductionHypothesis, added, List.append_assoc]
      · rfl
      · rw [added, Table.keys, List.map_append, List.append_assoc]
        exact distinct

theorem addDocuments_modules (documents : List FixtureDocument) (project : Project) :
    (documents.foldl
      (fun (current : Project) described => current.addDocument described.document)
      project).modules = project.modules := by
  induction documents generalizing project with
  | nil => rfl
  | cons described rest inductionHypothesis =>
      exact inductionHypothesis (project.addDocument described.document)

theorem addDocuments_documents (documents : List FixtureDocument) (project : Project)
    (distinct : (project.documents.map Document.file ++
      documents.map FixtureDocument.file).Nodup) :
    (documents.foldl
      (fun (current : Project) described => current.addDocument described.document)
      project).documents = project.documents ++ documents.map FixtureDocument.document := by
  induction documents generalizing project with
  | nil => simp
  | cons described rest inductionHypothesis =>
      have new : described.document.file ∉ project.documents.map Document.file := by
        intro known
        rw [described.file_document] at known
        exact (List.nodup_append.mp distinct).2.2 _ known _ List.mem_cons_self rfl
      have added : (project.addDocument described.document).documents =
          project.documents ++ [described.document] :=
        Project.putDocument_of_new new
      rw [List.foldl_cons, inductionHypothesis, added, List.append_assoc]
      · rfl
      · rw [added, List.map_append, List.append_assoc, List.map_singleton,
          described.file_document]
        exact distinct

namespace WellFormed

variable {fixture : Fixture} (formed : fixture.WellFormed)
include formed

theorem project_modules :
    fixture.project.modules =
      fixture.modules.map fun module => (module.name, module.componentModule) := by
  have documents := addDocuments_modules fixture.documents
    (fixture.modules.foldl
      (fun (current : Project) module => current.addModule module.name module.componentModule)
      .empty)
  have modules := addModules_modules fixture.modules .empty formed.modules
  exact documents.trans modules

theorem project_documents :
    fixture.project.documents = fixture.documents.map FixtureDocument.document := by
  have modules := (addModules_only fixture.modules .empty).1
  have documents := addDocuments_documents fixture.documents
    (fixture.modules.foldl
      (fun (current : Project) module => current.addModule module.name module.componentModule)
      .empty)
  rw [modules] at documents
  exact documents formed.documents

/-- A well-formed fixture is loaded as it is described. -/
theorem loadedAs : fixture.LoadedAs fixture.project where
  moduleNames := by
    rw [formed.project_modules, Table.keys, List.map_map]
    rfl
  modules := by
    intro module inside
    have distinct : fixture.project.modules.keys.Nodup := by
      rw [formed.project_modules, Table.keys, List.map_map]
      exact formed.modules
    have stored : (module.name, module.componentModule) ∈ fixture.project.modules := by
      rw [formed.project_modules]
      exact List.mem_map.mpr ⟨module, inside, rfl⟩
    exact Table.get?_of_distinct distinct stored
  files := by
    rw [formed.project_documents, List.map_map]
    exact List.map_congr_left fun described _ => described.file_document
  documents := by
    intro described inside
    refine ⟨described.document, ?_,
      FixtureDocument.storedAs_document (formed.trees described inside)⟩
    have distinct : (fixture.project.documents.map Document.file).Nodup := by
      rw [formed.project_documents, List.map_map]
      have same : Document.file ∘ FixtureDocument.document = FixtureDocument.file :=
        funext FixtureDocument.file_document
      rw [same]
      exact formed.documents
    have stored : described.document ∈ fixture.project.documents := by
      rw [formed.project_documents]
      exact List.mem_map_of_mem inside
    rw [← described.file_document]
    exact Table.find?_of_distinct distinct stored
  classes := fixture.project_classes
  overrides := fixture.project_overrides

end WellFormed

end Fixture

/-- A pass over a known module does not say that it is unknown, unless its compiler does. -/
theorem ResolutionContext.EndsWith.ne_unknownModule {σ : Type} {context : ResolutionContext σ}
    {sdk : String} {failure : PassFailure} (known : context.project.module? context.module ≠ none)
    (silent : ∀ sheet before name,
      (context.compiler.compile sheet context.module before).1 ≠ .error (.unknownModule name))
    (ends : context.EndsWith sdk failure) (name : String) :
    failure ≠ .host (.unknownModule name) := by
  intro same
  cases ends with
  | refused => cases same
  | stopped => cases same
  | unknownModule unknown => exact known unknown
  | unparsed fault refused => cases same
  | compiler sheet before after reason compiled =>
      cases same
      exact silent sheet before name (congrArg Prod.fst compiled)
  | broken site failure asked =>
      rw [same] at asked
      rcases StyleSite.failure_of_broken asked with ⟨_, _, impossible⟩ | ⟨_, _, _, impossible⟩ <;>
        cases impossible

/-- A fixture passes its check exactly if it is well formed.  The project is then what the fixture
describes, neither less nor more, and no pass over a module of it ends because the module is
unknown. -/
theorem checked_fixture_loads (fixture : Fixture) :
    (fixture.checked = .ok fixture ↔ fixture.WellFormed) ∧
    (fixture.checked = .ok fixture → fixture.LoadedAs fixture.project) ∧
    (fixture.checked = .ok fixture →
      ∀ (σ : Type) (signals : Signals) (settings : Settings) (compiler : StyleCompiler σ)
        (module : ModuleName) (sdk : String) (state : σ) (log : ProblemLog) (thread : Nat)
        (events : List SourceEvent) (outcome : PassOutcome σ) (name : String),
        module ∈ fixture.moduleNames →
        (∀ sheet before other,
          (compiler.compile sheet module before).1 ≠ .error (.unknownModule other)) →
        Host.collect { project := fixture.project, signals } settings compiler module sdk state
          log thread events = some outcome →
        outcome.result ≠ .error (.host (.unknownModule name))) := by
  refine ⟨fixture.checked_eq_ok, ?_, ?_⟩
  · intro accepted
    exact (fixture.checked_eq_ok.mp accepted).loadedAs
  · intro accepted σ signals settings compiler module sdk state log thread events outcome name
      declared silent collected failed
    have loaded := (fixture.checked_eq_ok.mp accepted).loadedAs
    obtain ⟨described, inside, named⟩ := Fixture.mem_moduleNames.mp declared
    have known : fixture.project.module? module ≠ none := by
      rw [← named, loaded.modules described inside]
      exact Option.some_ne_none _
    have ends := Host.collect_endsWith settings compiler module sdk state log collected failed
    exact ends.ne_unknownModule known silent name rfl

def smallShop : Fixture :=
  { modules :=
      [{ name := ⟨"shop"⟩, nature := .application, sourceRoots := [⟨"src"⟩]
         dependencies := [⟨"kit"⟩] },
        { name := ⟨"kit"⟩, nature := .library, sourceRoots := [⟨"kit"⟩], dependencies := [] }]
    documents :=
      [{ file := ⟨"src/Cart.mxml"⟩, kind := .markup
         root := some (pageOf [styleTag [] (some "A{b:c}")]), text := "" },
        { file := ⟨"kit/defaults.css"⟩, kind := .stylesheet, root := none, text := "A{b:d}" },
        { file := ⟨"src/notes.txt"⟩, kind := .other, root := none, text := "todo" }]
    classes :=
      [{ name := applicationBase, module := ⟨"kit"⟩, extends? := none, file := none },
        { name := ⟨"Cart"⟩, module := ⟨"shop"⟩, extends? := some applicationBase
          file := some ⟨"src/Cart.mxml"⟩ }] }

theorem smallShop_loads :
    smallShop.checked = .ok smallShop ∧ smallShop.LoadedAs smallShop.project ∧
      ∃ outcome,
        (Host.ofProject smallShop.project).collect .standard sheetCompiler ⟨"shop"⟩ "4.6" .empty
          .empty 0 [] = some outcome ∧
        ∀ name, outcome.result ≠ .error (.host (.unknownModule name)) := by
  obtain ⟨_, loads, known⟩ := checked_fixture_loads smallShop
  have accepted : smallShop.checked = .ok smallShop := rfl
  have silent : ∀ (sheet : Document) (before : Sheet.Sinks) (other : String),
      (sheetCompiler.compile sheet ⟨"shop"⟩ before).1 ≠ .error (.unknownModule other) := by
    intro sheet before other failed
    simp only [sheetCompiler] at failed
    split at failed <;> cases failed
  have passed : (Host.ofProject smallShop.project).signals.awaitConsistency 0 [] =
      some (.passed, _) := Signals.awaitConsistency_consistent rfl rfl 0 []
  obtain ⟨outcome, collected⟩ :=
    Host.collect_returns passed .standard sheetCompiler ⟨"shop"⟩ "4.6" .empty .empty
  refine ⟨accepted, loads accepted, outcome, collected, ?_⟩
  intro name
  exact known accepted _ .initial .standard sheetCompiler ⟨"shop"⟩ "4.6" .empty .empty 0 []
    outcome name List.mem_cons_self silent collected

end ComponentStyles
