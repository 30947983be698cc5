import ComponentStyles.Fixture.Basic
import ComponentStyles.Proofs.Project.Injection

/-!
The project of a fixture.

Its documents are the described ones, its classes stay in their order, and nothing stands in for
injected content.
-/

namespace ComponentStyles

theorem Project.mem_putDocument {document stored : Document} {documents : List Document}
    (inside : stored ∈ putDocument document documents) :
    stored = document ∨ stored ∈ documents := by
  induction documents with
  | nil => exact Or.inl (List.mem_singleton.mp inside)
  | cons first rest inductionHypothesis =>
      rw [putDocument] at inside
      split at inside
      · rcases List.mem_cons.mp inside with same | behind
        · exact Or.inl same
        · exact Or.inr (List.mem_cons_of_mem first behind)
      · rcases List.mem_cons.mp inside with same | behind
        · exact Or.inr (List.mem_cons.mpr (Or.inl same))
        · rcases inductionHypothesis behind with same | kept
          · exact Or.inl same
          · exact Or.inr (List.mem_cons_of_mem first kept)

namespace Fixture

theorem addModules_only (modules : List FixtureModule) (project : Project) :
    let added := modules.foldl
      (fun (current : Project) module => current.addModule module.name module.componentModule)
      project
    added.documents = project.documents ∧ added.overrides = project.overrides := by
  induction modules generalizing project with
  | nil => exact ⟨rfl, rfl⟩
  | cons module rest inductionHypothesis =>
      exact inductionHypothesis (project.addModule module.name module.componentModule)

theorem addDocuments_only (documents : List FixtureDocument) (project : Project) :
    let added := documents.foldl
      (fun (current : Project) described => current.addDocument described.document) project
    added.overrides = project.overrides ∧
      ∀ stored ∈ added.documents,
        stored ∈ project.documents ∨ ∃ described ∈ documents, stored = described.document := by
  induction documents generalizing project with
  | nil => exact ⟨rfl, fun stored inside => Or.inl inside⟩
  | cons described rest inductionHypothesis =>
      obtain ⟨overrides, origin⟩ := inductionHypothesis (project.addDocument described.document)
      refine ⟨overrides, ?_⟩
      intro stored inside
      rcases origin stored inside with before | ⟨later, behind, same⟩
      · rcases Project.mem_putDocument before with same | kept
        · exact Or.inr ⟨described, List.mem_cons_self, same⟩
        · exact Or.inl kept
      · exact Or.inr ⟨later, List.mem_cons_of_mem described behind, same⟩

theorem project_classes (fixture : Fixture) : fixture.project.classes = fixture.classes :=
  rfl

theorem project_overrides (fixture : Fixture) : fixture.project.overrides = [] := by
  have modules := addModules_only fixture.modules .empty
  have documents := addDocuments_only fixture.documents
    (fixture.modules.foldl
      (fun (current : Project) module => current.addModule module.name module.componentModule)
      .empty)
  exact documents.1.trans modules.2

theorem described_of_document? {fixture : Fixture} {file : FileId} {document : Document}
    (found : fixture.project.document? file = some document) :
    ∃ described ∈ fixture.documents, document = described.document := by
  have modules := addModules_only fixture.modules .empty
  have documents := addDocuments_only fixture.documents
    (fixture.modules.foldl
      (fun (current : Project) module => current.addModule module.name module.componentModule)
      .empty)
  have inside := List.mem_of_find?_eq_some found
  rcases documents.2 document inside with before | described
  · rw [modules.1] at before
    cases before
  · exact described

/-- A stored document with a tree is markup, its elements numbered from zero. -/
theorem project_numbered (fixture : Fixture) : fixture.project.Numbered := by
  intro file document root found rooted
  obtain ⟨described, _, same⟩ := described_of_document? found
  cases kind : described.kind with
  | stylesheet =>
      rw [same, FixtureDocument.document, kind] at rooted
      cases rooted
  | other =>
      rw [same, FixtureDocument.document, kind] at rooted
      cases rooted
  | markup =>
      rw [same, FixtureDocument.document, kind] at rooted ⊢
      obtain ⟨element, written, _⟩ := Option.map_eq_some_iff.mp rooted
      rw [written]
      exact ⟨element, rfl⟩

theorem numbered_of_root {fixture : Fixture} {file : FileId} {document : Document}
    {root : Element} (found : fixture.project.document? file = some document)
    (rooted : document.root = some root) :
    document.kind = .markup ∧ ∃ element : Element, root = (element.numbered 0).1 := by
  obtain ⟨element, same⟩ := fixture.project_numbered file document root found rooted
  rw [same] at rooted ⊢
  cases rooted
  exact ⟨rfl, element, rfl⟩

theorem element?_child {fixture : Fixture} {file : FileId} {document : Document} {root : Element}
    (found : fixture.project.document? file = some document) (rooted : document.root = some root)
    {child : Element} (inside : child ∈ root.children) :
    document.element? child.id = some child := by
  apply fixture.project_numbered.element?_of_mem_preorder found rooted
  rw [Element.preorder_eq]
  exact List.mem_cons_of_mem root ((Element.sublist_preorderAll root.children).subset inside)

end Fixture

end ComponentStyles
