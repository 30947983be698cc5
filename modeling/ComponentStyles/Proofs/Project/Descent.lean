import Mathlib.Data.List.Flatten
import Mathlib.Data.List.Nodup
import Mathlib.Data.List.Perm.Subperm
import ComponentStyles.Proofs.Project.Search

/-!
Components as a set.

Where class names are distinct, a class is a component of a module exactly if it belongs to the
module and its chain of extended names leads to a base.  So the order of declaration decides the
order of the components alone, and under more bases there are no fewer of them.
-/

namespace ComponentStyles.Project

theorem leadsTo_of_inheritorsByName {project : Project} {name : ClassName}
    {found : ComponentClass} (taken : found ∈ project.inheritorsByName name) :
    project.LeadsTo name found.name := by
  have handedOn : ∀ item : ComponentClass, project.LeadsTo name item.name →
      ∀ later ∈ project.directInheritors item.name, project.LeadsTo name later.name := by
    intro item leads later follows
    obtain ⟨inside, extended⟩ := mem_directInheritors.mp follows
    exact .behind inside extended leads
  have waits : ∀ item ∈ project.directInheritors name, project.LeadsTo name item.name := by
    intro item follows
    obtain ⟨inside, extended⟩ := mem_directInheritors.mp follows
    exact .behind inside extended .here
  exact breadthFirst_sound handedOn waits taken

theorem leadsTo_of_taken? {project : Project} {base found : ComponentClass} {name : ClassName}
    (taken : project.taken? base name = some found) : project.LeadsTo base.name name := by
  have named := name_of_taken? taken
  unfold taken? at taken
  split at taken
  · rename_i same
    rw [same]
    exact .here
  · rw [← named]
    exact leadsTo_of_inheritorsByName (List.mem_of_find?_eq_some taken)

theorem LeadsTo.within {project other : Project} {base name : ClassName}
    (included : project.classes ⊆ other.classes) (leads : project.LeadsTo base name) :
    other.LeadsTo base name := by
  induction leads with
  | here => exact .here
  | behind inside extended _ inductionHypothesis =>
      exact .behind (included inside) extended inductionHypothesis

def DistinctNames (project : Project) : Prop :=
  (project.classes.map ComponentClass.name).Nodup

instance (project : Project) : Decidable project.DistinctNames :=
  inferInstanceAs (Decidable (project.classes.map ComponentClass.name).Nodup)

theorem DistinctNames.unique {project : Project} (distinct : project.DistinctNames)
    {declared other : ComponentClass} (inside : declared ∈ project.classes)
    (otherInside : other ∈ project.classes) (named : other.name = declared.name) :
    other = declared :=
  List.inj_on_of_nodup_map distinct otherInside inside named

theorem DistinctNames.findClass?_eq_some {project : Project} (distinct : project.DistinctNames)
    {name : ClassName} {scope : Scope} {declared : ComponentClass} :
    project.findClass? name scope = some declared ↔
      declared ∈ project.classes ∧ declared.name = name ∧
        declared.module ∈ project.scopeModules scope := by
  have suits : ∀ other : ComponentClass,
      (other.name == name && (project.scopeModules scope).contains other.module) = true ↔
        other.name = name ∧ other.module ∈ project.scopeModules scope := by
    intro other
    rw [Bool.and_eq_true, beq_iff_eq, List.contains_iff_mem]
  unfold findClass?
  constructor
  · intro found
    have suited := List.find?_some found
    exact ⟨List.mem_of_find?_eq_some found, (suits declared).mp suited⟩
  · rintro ⟨inside, named, inScope⟩
    cases found : project.classes.find? fun other =>
        other.name == name && (project.scopeModules scope).contains other.module with
    | none =>
        have missed := List.find?_eq_none.mp found declared inside
        exact absurd ((suits declared).mpr ⟨named, inScope⟩) missed
    | some other =>
        have suited := List.find?_some found
        have otherNamed := ((suits other).mp suited).1
        exact congrArg some (distinct.unique inside (List.mem_of_find?_eq_some found)
          (otherNamed.trans named.symm))

theorem nodup_firstOfEachName (seen : List ClassName) (classes : List ComponentClass) :
    (firstOfEachName seen classes).Nodup := by
  induction classes generalizing seen with
  | nil => exact List.nodup_nil
  | cons declared rest inductionHypothesis =>
      rw [firstOfEachName]
      split
      · exact inductionHypothesis seen
      · rw [List.nodup_cons]
        refine ⟨?_, inductionHypothesis (declared.name :: seen)⟩
        intro again
        exact ((mem_firstOfEachName _ _ _).mp again).1 List.mem_cons_self

theorem nodup_components (project : Project) (module : ModuleName)
    (bases : List ComponentClass) : (project.components module bases).Nodup :=
  nodup_firstOfEachName [] _

section Components

variable {project : Project} {module : ModuleName} {bases : List ComponentClass}
  (known : ∀ base ∈ bases, base ∈ project.classes)
include known

theorem of_mem_components {declared : ComponentClass}
    (component : declared ∈ project.components module bases) :
    declared ∈ project.classes ∧ declared.module = module ∧
      ∃ base ∈ bases, project.LeadsTo base.name declared.name := by
  rw [mem_components] at component
  obtain ⟨base, among, filtered⟩ := List.exists_of_findSome?_eq_some component
  obtain ⟨taken, belongs⟩ := Option.filter_eq_some_iff.mp filtered
  exact ⟨mem_classes_of_taken? (known base among) taken, beq_iff_eq.mp belongs, base, among,
    leadsTo_of_taken? taken⟩

theorem mem_components_iff (distinct : project.DistinctNames) {declared : ComponentClass} :
    declared ∈ project.components module bases ↔
      declared ∈ project.classes ∧ declared.module = module ∧
        ∃ base ∈ bases, project.LeadsTo base.name declared.name := by
  constructor
  · exact of_mem_components known
  · rintro ⟨inside, belongs, base, among, leads⟩
    exact mem_components_of_unique known belongs among leads
      fun other otherInside named => distinct.unique inside otherInside named

theorem components_subperm (distinct : project.DistinctNames) {more : List ComponentClass}
    (moreKnown : ∀ base ∈ more, base ∈ project.classes) (included : bases ⊆ more) :
    (project.components module bases).Subperm (project.components module more) := by
  refine (project.nodup_components module bases).subperm ?_
  intro declared component
  obtain ⟨inside, belongs, base, among, leads⟩ := of_mem_components known component
  exact (mem_components_iff moreKnown distinct).mpr
    ⟨inside, belongs, base, included among, leads⟩

end Components

def withClasses (project : Project) (classes : List ComponentClass) : Project :=
  { project with classes }

section Reordered

variable {project : Project} {classes : List ComponentClass} (distinct : project.DistinctNames)
  (reordered : classes.Perm project.classes)
include distinct reordered

theorem distinctNames_withClasses : (project.withClasses classes).DistinctNames :=
  (reordered.map ComponentClass.name).nodup_iff.mpr distinct

theorem baseClasses_withClasses (settings : Settings) (module : ModuleName) (sdk : SdkVersion) :
    (project.withClasses classes).baseClasses settings module sdk =
      project.baseClasses settings module sdk := by
  have found : ∀ (name : ClassName) (scope : Scope),
      (project.withClasses classes).findClass? name scope = project.findClass? name scope := by
    intro name scope
    apply Option.ext
    intro declared
    rw [(distinctNames_withClasses distinct reordered).findClass?_eq_some,
      distinct.findClass?_eq_some]
    exact and_congr_left fun _ => reordered.mem_iff
  unfold baseClasses
  simp only [found]

theorem components_withClasses (module : ModuleName) {bases : List ComponentClass}
    (known : ∀ base ∈ bases, base ∈ project.classes) :
    ((project.withClasses classes).components module bases).Perm
      (project.components module bases) := by
  have stillKnown : ∀ base ∈ bases, base ∈ (project.withClasses classes).classes :=
    fun base among => reordered.mem_iff.mpr (known base among)
  rw [List.perm_ext_iff_of_nodup (nodup_components _ module bases)
    (nodup_components project module bases)]
  intro declared
  rw [mem_components_iff stillKnown (distinctNames_withClasses distinct reordered),
    mem_components_iff known distinct]
  constructor
  · rintro ⟨inside, belongs, base, among, leads⟩
    exact ⟨reordered.mem_iff.mp inside, belongs, base, among, leads.within reordered.subset⟩
  · rintro ⟨inside, belongs, base, among, leads⟩
    exact ⟨reordered.mem_iff.mpr inside, belongs, base, among,
      leads.within reordered.symm.subset⟩

end Reordered

theorem baseClasses_sublist (project : Project) (settings : Settings) (module : ModuleName)
    {older newer : SdkVersion} (notOlder : older.major ≤ newer.major) :
    (project.baseClasses settings module older).Sublist
      (project.baseClasses settings module newer) := by
  unfold baseClasses Settings.baseTypesFor
  refine List.Sublist.filterMap _ (List.Sublist.map _ ?_)
  apply List.monotone_filter_right
  intro base applies
  cases minimum : base.minimumMajor with
  | none => simp only [BaseType.appliesTo, minimum]
  | some least =>
      simp only [BaseType.appliesTo, minimum, SdkVersion.supports, decide_eq_true_eq] at applies ⊢
      exact Nat.le_trans applies notOlder

end ComponentStyles.Project
