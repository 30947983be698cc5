import ComponentStyles.Fixture.Basic

/-!
Which fixtures are accepted.

The checks go through the modules, the documents and the classes in turn and stop at the first
fault.  No fault is found exactly if the fixture is well formed: its names are distinct, and what it
names it declares.
-/

namespace ComponentStyles.Fixture

/-- Names are distinct, everything named is declared, and trees stand in markup only. -/
structure WellFormed (fixture : Fixture) : Prop where
  modules : (fixture.modules.map FixtureModule.name).Nodup
  dependencies : ∀ module ∈ fixture.modules, ∀ dependency ∈ module.dependencies,
    ∃ other ∈ fixture.modules, other.name = dependency
  documents : (fixture.documents.map FixtureDocument.file).Nodup
  trees : ∀ described ∈ fixture.documents, described.root ≠ none → described.kind = .markup
  classModules : ∀ declared ∈ fixture.classes,
    ∃ module ∈ fixture.modules, module.name = declared.module
  classFiles : ∀ declared ∈ fixture.classes, ∀ file, declared.file = some file →
    ∃ described ∈ fixture.documents, described.file = file

theorem mem_moduleNames {fixture : Fixture} {name : ModuleName} :
    name ∈ fixture.moduleNames ↔ ∃ module ∈ fixture.modules, module.name = name :=
  List.mem_map

theorem mem_files {fixture : Fixture} {file : FileId} :
    file ∈ fixture.files ↔ ∃ described ∈ fixture.documents, described.file = file :=
  List.mem_map

theorem unseen_cons {α κ : Type} (key : α → κ) (seen : List κ) (item : α) (rest : List α) :
    (((item :: rest).map key).Nodup ∧ ∀ other ∈ item :: rest, key other ∉ seen) ↔
      key item ∉ seen ∧
        ((rest.map key).Nodup ∧ ∀ other ∈ rest, key other ∉ key item :: seen) := by
  rw [List.map_cons, List.nodup_cons, List.forall_mem_cons]
  constructor
  · rintro ⟨⟨first, distinct⟩, new, unseen⟩
    refine ⟨new, distinct, ?_⟩
    intro other behind known
    rcases List.mem_cons.mp known with same | known
    · exact first (List.mem_map.mpr ⟨other, behind, same⟩)
    · exact unseen other behind known
  · rintro ⟨new, distinct, unseen⟩
    refine ⟨⟨?_, distinct⟩, new, ?_⟩
    · intro inside
      obtain ⟨other, behind, same⟩ := List.mem_map.mp inside
      exact unseen other behind (same ▸ List.mem_cons_self)
    · intro other behind known
      exact unseen other behind (List.mem_cons_of_mem (key item) known)

theorem duplicateModule?_eq_none (seen : List ModuleName) (modules : List FixtureModule) :
    duplicateModule? seen modules = none ↔
      (modules.map FixtureModule.name).Nodup ∧ ∀ module ∈ modules, module.name ∉ seen := by
  induction modules generalizing seen with
  | nil => simp [duplicateModule?]
  | cons module rest inductionHypothesis =>
      rw [duplicateModule?, unseen_cons]
      by_cases again : module.name ∈ seen
      · rw [if_pos again]
        exact iff_of_false (by simp) fun both => both.1 again
      · rw [if_neg again, inductionHypothesis, and_iff_right again]

theorem dependencyFault?_eq_none (declared : List ModuleName) (module : FixtureModule) :
    dependencyFault? declared module = none ↔
      ∀ dependency ∈ module.dependencies, dependency ∈ declared := by
  rw [dependencyFault?, Option.map_eq_none_iff, List.find?_eq_none]
  simp only [decide_eq_true_eq, Decidable.not_not]

theorem documentFault?_eq_none (seen : List FileId) (documents : List FixtureDocument) :
    documentFault? seen documents = none ↔
      ((documents.map FixtureDocument.file).Nodup ∧
        ∀ described ∈ documents, described.file ∉ seen) ∧
      ∀ described ∈ documents, described.root ≠ none → described.kind = .markup := by
  induction documents generalizing seen with
  | nil => simp [documentFault?]
  | cons described rest inductionHypothesis =>
      rw [documentFault?, unseen_cons, List.forall_mem_cons]
      by_cases again : described.file ∈ seen
      · rw [if_pos again]
        exact iff_of_false (by simp) fun all => all.1.1 again
      · have tree : (described.root ≠ none → described.kind = .markup) ↔
            ¬ (described.root.isSome ∧ described.kind ≠ .markup) := by
          rw [Option.isSome_iff_ne_none, not_and, Decidable.not_not]
        rw [if_neg again, tree]
        by_cases outside : described.root.isSome ∧ described.kind ≠ .markup
        · rw [if_pos outside]
          exact iff_of_false (by simp) fun all => all.2.1 outside
        · rw [if_neg outside, inductionHypothesis, and_iff_right again, and_iff_right outside]

theorem classFault?_eq_none (declared : List ModuleName) (stored : List FileId)
    (declaration : ComponentClass) :
    classFault? declared stored declaration = none ↔
      declaration.module ∈ declared ∧
        ∀ file, declaration.file = some file → file ∈ stored := by
  unfold classFault?
  by_cases known : declaration.module ∈ declared
  · rw [if_neg (not_not_intro known)]
    cases backed : declaration.file with
    | none => simp [known]
    | some file =>
        by_cases inside : file ∈ stored
        · simp [known, inside]
        · simp [inside]
  · rw [if_pos known]
    simp [known]

/-- A fixture without a fault is well formed, and the other way round. -/
theorem fault?_eq_none (fixture : Fixture) : fixture.fault? = none ↔ fixture.WellFormed := by
  rw [fault?, Option.or_eq_none_iff, Option.or_eq_none_iff, Option.or_eq_none_iff,
    duplicateModule?_eq_none, documentFault?_eq_none, List.findSome?_eq_none_iff,
    List.findSome?_eq_none_iff]
  simp only [dependencyFault?_eq_none, classFault?_eq_none, mem_moduleNames, mem_files]
  constructor
  · rintro ⟨⟨⟨modules, _⟩, dependencies⟩, ⟨⟨documents, _⟩, trees⟩, classes⟩
    exact
      { modules
        dependencies
        documents
        trees
        classModules := fun declared inside => (classes declared inside).1
        classFiles := fun declared inside => (classes declared inside).2 }
  · intro formed
    refine ⟨⟨⟨formed.modules, fun _ _ => List.not_mem_nil⟩, formed.dependencies⟩,
      ⟨⟨formed.documents, fun _ _ => List.not_mem_nil⟩, formed.trees⟩, ?_⟩
    intro declared inside
    exact ⟨formed.classModules declared inside, formed.classFiles declared inside⟩

theorem checked_eq_ok (fixture : Fixture) :
    fixture.checked = .ok fixture ↔ fixture.WellFormed := by
  rw [← fault?_eq_none, checked]
  cases fixture.fault? with
  | none => exact iff_of_true rfl rfl
  | some fault => exact iff_of_false (by simp) (by simp)

end ComponentStyles.Fixture
