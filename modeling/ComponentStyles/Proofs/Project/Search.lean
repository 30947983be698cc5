import ComponentStyles.Pass.Collection

/-!
What the search for inheritors finds.

The search is by name: it reaches every name whose chain of extended names leads to the base,
and takes one class for each name it reaches, whatever module that class belongs to.  A class is
a component of a module when it is the one taken.
-/

namespace ComponentStyles.Project

section BreadthFirst

variable {α κ : Type} [DecidableEq κ] {key : α → κ} {next : α → List α}

theorem key_mem_of_breadthFirst {remaining : List κ} {waiting : List α} {found : α}
    (taken : found ∈ breadthFirst key next remaining waiting) : key found ∈ remaining := by
  induction remaining, waiting using breadthFirst.induct key next with
  | case1 remaining =>
      rw [breadthFirst] at taken
      cases taken
  | case2 remaining item rest member inductionHypothesis =>
      rw [breadthFirst, if_pos member] at taken
      rcases List.mem_cons.mp taken with same | later
      · rw [same]
        exact member
      · exact (mem_withoutKey.mp (inductionHypothesis later)).1
  | case3 remaining item rest absent inductionHypothesis =>
      rw [breadthFirst, if_neg absent] at taken
      exact inductionHypothesis taken

theorem breadthFirst_keys_nodup (remaining : List κ) (waiting : List α) :
    ((breadthFirst key next remaining waiting).map key).Nodup := by
  induction remaining, waiting using breadthFirst.induct key next with
  | case1 remaining =>
      rw [breadthFirst]
      exact List.nodup_nil
  | case2 remaining item rest member inductionHypothesis =>
      rw [breadthFirst, if_pos member, List.map_cons, List.nodup_cons]
      refine ⟨?_, inductionHypothesis⟩
      intro again
      obtain ⟨other, taken, same⟩ := List.mem_map.mp again
      have left := key_mem_of_breadthFirst taken
      rw [same] at left
      exact (mem_withoutKey.mp left).2 rfl
  | case3 remaining item rest absent inductionHypothesis =>
      rw [breadthFirst, if_neg absent]
      exact inductionHypothesis

/-- What holds of the waiting items and is handed on holds of everything found. -/
theorem breadthFirst_sound {holds : α → Prop}
    (handedOn : ∀ item, holds item → ∀ later ∈ next item, holds later)
    {remaining : List κ} {waiting : List α} (waits : ∀ item ∈ waiting, holds item) {found : α}
    (taken : found ∈ breadthFirst key next remaining waiting) : holds found := by
  induction remaining, waiting using breadthFirst.induct key next with
  | case1 remaining =>
      rw [breadthFirst] at taken
      cases taken
  | case2 remaining item rest member inductionHypothesis =>
      rw [breadthFirst, if_pos member] at taken
      rcases List.mem_cons.mp taken with same | later
      · rw [same]
        exact waits item List.mem_cons_self
      · refine inductionHypothesis ?_ later
        intro other inside
        rcases List.mem_append.mp inside with inside | inside
        · exact waits other (List.mem_cons_of_mem item inside)
        · exact handedOn item (waits item List.mem_cons_self) other inside
  | case3 remaining item rest absent inductionHypothesis =>
      rw [breadthFirst, if_neg absent] at taken
      refine inductionHypothesis ?_ taken
      intro other inside
      exact waits other (List.mem_cons_of_mem item inside)

theorem breadthFirst_waiting {remaining : List κ} {waiting : List α} {item : α}
    (waits : item ∈ waiting) (remains : key item ∈ remaining) :
    ∃ found ∈ breadthFirst key next remaining waiting, key found = key item := by
  induction remaining, waiting using breadthFirst.induct key next with
  | case1 remaining => cases waits
  | case2 remaining first rest member inductionHypothesis =>
      rw [breadthFirst, if_pos member]
      by_cases same : key item = key first
      · exact ⟨first, List.mem_cons_self, same.symm⟩
      · have behind : item ∈ rest := by
          rcases List.mem_cons.mp waits with equal | behind
          · exact absurd (congrArg key equal) same
          · exact behind
        obtain ⟨found, taken, keyed⟩ := inductionHypothesis
          (List.mem_append_left (next first) behind) (mem_withoutKey.mpr ⟨remains, same⟩)
        exact ⟨found, List.mem_cons_of_mem first taken, keyed⟩
  | case3 remaining first rest absent inductionHypothesis =>
      rw [breadthFirst, if_neg absent]
      rcases List.mem_cons.mp waits with equal | behind
      · rw [equal] at remains
        exact absurd remains absent
      · exact inductionHypothesis behind remains

/-- What is found is followed: the keys behind it are taken too. -/
theorem breadthFirst_next {remaining : List κ} {waiting : List α} {found item : α}
    (taken : found ∈ breadthFirst key next remaining waiting) (follows : item ∈ next found)
    (remains : key item ∈ remaining) :
    ∃ other ∈ breadthFirst key next remaining waiting, key other = key item := by
  induction remaining, waiting using breadthFirst.induct key next with
  | case1 remaining =>
      rw [breadthFirst] at taken
      cases taken
  | case2 remaining first rest member inductionHypothesis =>
      rw [breadthFirst, if_pos member] at taken ⊢
      by_cases same : key item = key first
      · exact ⟨first, List.mem_cons_self, same.symm⟩
      · have stillRemains := mem_withoutKey.mpr ⟨remains, same⟩
        rcases List.mem_cons.mp taken with equal | later
        · -- The item begins to wait when the one in front of it is taken.
          rw [equal] at follows
          have waits : item ∈ rest ++ next first := List.mem_append_right rest follows
          obtain ⟨other, otherTaken, keyed⟩ : ∃ other ∈ breadthFirst key next
              (withoutKey remaining (key first)) (rest ++ next first), key other = key item :=
            breadthFirst_waiting waits stillRemains
          exact ⟨other, List.mem_cons_of_mem first otherTaken, keyed⟩
        · obtain ⟨other, otherTaken, keyed⟩ := inductionHypothesis later stillRemains
          exact ⟨other, List.mem_cons_of_mem first otherTaken, keyed⟩
  | case3 remaining first rest absent inductionHypothesis =>
      rw [breadthFirst, if_neg absent] at taken ⊢
      exact inductionHypothesis taken remains

end BreadthFirst

theorem mem_directInheritors {project : Project} {name : ClassName} {declared : ComponentClass} :
    declared ∈ project.directInheritors name ↔
      declared ∈ project.classes ∧ declared.extends? = some name := by
  rw [directInheritors, List.mem_filter, beq_iff_eq]

theorem mem_classes_of_inheritorsByName {project : Project} {name : ClassName}
    {found : ComponentClass} (taken : found ∈ project.inheritorsByName name) :
    found ∈ project.classes := by
  have handedOn : ∀ item : ComponentClass, item ∈ project.classes →
      ∀ later ∈ project.directInheritors item.name, later ∈ project.classes :=
    fun _ _ _ follows => (mem_directInheritors.mp follows).1
  have waits : ∀ item ∈ project.directInheritors name, item ∈ project.classes :=
    fun _ inside => (mem_directInheritors.mp inside).1
  exact breadthFirst_sound handedOn waits taken

theorem ne_base_of_inheritorsByName {project : Project} {name : ClassName}
    {found : ComponentClass} (taken : found ∈ project.inheritorsByName name) :
    found.name ≠ name :=
  (mem_withoutKey.mp (key_mem_of_breadthFirst taken)).2

/-- A chain of extended names, through declared classes of any modules. -/
inductive LeadsTo (project : Project) (base : ClassName) : ClassName → Prop where
  | here : LeadsTo project base base
  | behind {declared : ComponentClass} {parent : ClassName} :
      declared ∈ project.classes → declared.extends? = some parent →
      LeadsTo project base parent → LeadsTo project base declared.name

/-- The search reaches every name whose chain leads to the base. -/
theorem LeadsTo.reached {project : Project} {base name : ClassName}
    (leads : project.LeadsTo base name) :
    name = base ∨ ∃ found ∈ project.inheritorsByName base, found.name = name := by
  -- The induction is on the chain: whether a class is reached depends on its parent alone.
  induction leads with
  | here => exact Or.inl rfl
  | @behind declared parent inside extended _ inductionHypothesis =>
      by_cases same : declared.name = base
      · exact Or.inl same
      · have remains : declared.name ∈
            withoutKey (project.classes.map ComponentClass.name) base :=
          mem_withoutKey.mpr ⟨List.mem_map.mpr ⟨declared, inside, rfl⟩, same⟩
        right
        rcases inductionHypothesis with atBase | ⟨found, taken, named⟩
        · rw [atBase] at extended
          exact breadthFirst_waiting (mem_directInheritors.mpr ⟨inside, extended⟩) remains
        · rw [← named] at extended
          exact breadthFirst_next taken (mem_directInheritors.mpr ⟨inside, extended⟩) remains

def taken? (project : Project) (base : ComponentClass) (name : ClassName) :
    Option ComponentClass :=
  if base.name = name then some base
  else (project.inheritorsByName base.name).find? (·.name == name)

theorem name_of_taken? {project : Project} {base found : ComponentClass} {name : ClassName}
    (taken : project.taken? base name = some found) : found.name = name := by
  unfold taken? at taken
  split at taken
  · rename_i same
    cases taken
    exact same
  · simpa using List.find?_some taken

theorem mem_classes_of_taken? {project : Project} {base found : ComponentClass} {name : ClassName}
    (declared : base ∈ project.classes) (taken : project.taken? base name = some found) :
    found ∈ project.classes := by
  unfold taken? at taken
  split at taken
  · cases taken
    exact declared
  · exact mem_classes_of_inheritorsByName (List.mem_of_find?_eq_some taken)

theorem LeadsTo.taken? {project : Project} {base : ComponentClass} {name : ClassName}
    (leads : project.LeadsTo base.name name) : ∃ found, project.taken? base name = some found := by
  unfold Project.taken?
  by_cases same : base.name = name
  · exact ⟨base, if_pos same⟩
  · rw [if_neg same]
    rcases leads.reached with atBase | ⟨found, taken, named⟩
    · exact absurd atBase.symm same
    · refine Option.isSome_iff_exists.mp (List.find?_isSome.mpr ⟨found, taken, ?_⟩)
      rw [named]
      exact beq_self_eq_true name

theorem find?_filter_of_distinct {classes : List ComponentClass}
    (distinct : (classes.map ComponentClass.name).Nodup) (keeps : ComponentClass → Bool)
    (name : ClassName) :
    (classes.filter keeps).find? (·.name == name) =
      (classes.find? (·.name == name)).filter keeps := by
  induction classes with
  | nil => rfl
  | cons declared rest inductionHypothesis =>
      rw [List.map_cons, List.nodup_cons] at distinct
      have others := inductionHypothesis distinct.2
      by_cases named : declared.name = name
      · have first : (declared.name == name) = true := beq_iff_eq.mpr named
        have noOther : rest.find? (·.name == name) = none := by
          rw [List.find?_eq_none]
          intro other inside same
          rw [beq_iff_eq] at same
          exact distinct.1 (List.mem_map.mpr ⟨other, inside, same.trans named.symm⟩)
        by_cases kept : keeps declared = true
        · simp only [List.filter_cons_of_pos kept, List.find?_cons, first,
            Option.filter_some, kept, if_true]
        · rw [List.filter_cons_of_neg kept, others, noOther]
          simp only [List.find?_cons, first, Option.filter_some, kept, Option.filter_none]
          rfl
      · have notFirst : (declared.name == name) = false := beq_eq_false_iff_ne.mpr named
        by_cases kept : keeps declared = true
        · simp only [List.filter_cons_of_pos kept, List.find?_cons, notFirst, others]
        · simp only [List.filter_cons_of_neg kept, List.find?_cons, notFirst, others]

/-- A module's inheritor of a name is the class taken for the name, if it is the module's. -/
theorem find?_findInheritors (project : Project) (base : ComponentClass) (module : ModuleName)
    (name : ClassName) :
    (project.findInheritors base true (.own module)).find? (·.name == name) =
      (project.taken? base name).filter (·.module == module) := by
  have belongs : ∀ other : ModuleName,
      (project.scopeModules (.own module)).contains other = (other == module) := by
    intro other
    rw [Bool.eq_iff_iff, List.contains_iff_mem, beq_iff_eq]
    exact List.mem_singleton
  have below : ((project.inheritorsByName base.name).filter (·.module == module)).find?
        (·.name == name) =
      ((project.inheritorsByName base.name).find? (·.name == name)).filter
        (·.module == module) :=
    find?_filter_of_distinct (breadthFirst_keys_nodup _ _) _ name
  unfold findInheritors taken?
  simp only [belongs, Bool.true_and]
  by_cases named : base.name = name
  · have first : (base.name == name) = true := beq_iff_eq.mpr named
    by_cases own : (base.module == module) = true
    · rw [if_pos own, if_pos named, List.find?_cons, first]
      simp only [Option.filter_some, own, if_true]
    · have noOther : (project.inheritorsByName base.name).find? (·.name == name) = none := by
        rw [List.find?_eq_none]
        intro other taken same
        rw [beq_iff_eq, ← named] at same
        exact ne_base_of_inheritorsByName taken same
      rw [if_neg own, below, noOther, if_pos named]
      simp only [Option.filter_none, Option.filter_some, own]
      rfl
  · have notFirst : (base.name == name) = false := beq_eq_false_iff_ne.mpr named
    by_cases own : (base.module == module) = true
    · simp only [own, if_true, List.find?_cons, notFirst, below, named, if_false]
    · rw [if_neg own, below, if_neg named]

theorem mem_firstOfEachName (seen : List ClassName) (classes : List ComponentClass)
    (declared : ComponentClass) :
    declared ∈ firstOfEachName seen classes ↔
      declared.name ∉ seen ∧ classes.find? (·.name == declared.name) = some declared := by
  induction classes generalizing seen with
  | nil => simp [firstOfEachName]
  | cons first rest inductionHypothesis =>
      rw [firstOfEachName, List.find?_cons]
      by_cases named : first.name = declared.name
      · have isFirst : (first.name == declared.name) = true := beq_iff_eq.mpr named
        rw [isFirst, named]
        by_cases known : declared.name ∈ seen
        · rw [if_pos known, inductionHypothesis]
          exact iff_of_false (fun both => both.1 known) (fun both => both.1 known)
        · rw [if_neg known, List.mem_cons, inductionHypothesis]
          constructor
          · rintro (same | ⟨unseen, _⟩)
            · exact ⟨known, congrArg some same.symm⟩
            · exact absurd List.mem_cons_self unseen
          · rintro ⟨_, same⟩
            exact Or.inl (Option.some.inj same).symm
      · have notFirst : (first.name == declared.name) = false := beq_eq_false_iff_ne.mpr named
        rw [notFirst]
        by_cases known : first.name ∈ seen
        · rw [if_pos known]
          exact inductionHypothesis seen
        · have different : declared ≠ first := by
            intro same
            exact named (congrArg ComponentClass.name same.symm)
          have otherName : declared.name ≠ first.name := fun same => named same.symm
          rw [if_neg known, List.mem_cons, inductionHypothesis, List.mem_cons]
          constructor
          · rintro (same | ⟨unseen, found⟩)
            · exact absurd same different
            · exact ⟨fun inside => unseen (Or.inr inside), found⟩
          · rintro ⟨unseen, found⟩
            refine Or.inr ⟨?_, found⟩
            rintro (same | inside)
            · exact otherName same
            · exact unseen inside

/-- A class is a component of a module when it belongs to the module and is the one taken for its
name under the first base under which a class of the module is. -/
theorem mem_components (project : Project) (module : ModuleName) (bases : List ComponentClass)
    (declared : ComponentClass) :
    declared ∈ project.components module bases ↔
      bases.findSome? (fun base =>
        (project.taken? base declared.name).filter (·.module == module)) = some declared := by
  rw [components, mem_firstOfEachName, List.find?_flatMap]
  simp only [find?_findInheritors, List.not_mem_nil, not_false_eq_true, true_and]

theorem mem_components_of_unique {project : Project} {module : ModuleName}
    {bases : List ComponentClass} (known : ∀ base ∈ bases, base ∈ project.classes)
    {declared base : ComponentClass} (belongs : declared.module = module)
    (among : base ∈ bases) (leads : project.LeadsTo base.name declared.name)
    (unique : ∀ other ∈ project.classes, other.name = declared.name → other = declared) :
    declared ∈ project.components module bases := by
  rw [mem_components]
  have only : ∀ other ∈ bases, ∀ found, project.taken? other declared.name = some found →
      found = declared := by
    intro other inside found taken
    exact unique found (mem_classes_of_taken? (known other inside) taken) (name_of_taken? taken)
  obtain ⟨found, taken⟩ := leads.taken?
  have same := only base among found taken
  rw [same] at taken
  have own : (declared.module == module) = true := beq_iff_eq.mpr belongs
  cases first : bases.findSome? fun other =>
      (project.taken? other declared.name).filter (·.module == module) with
  | none =>
      have missed := List.findSome?_eq_none_iff.mp first base among
      rw [taken, Option.filter_some, if_pos own] at missed
      cases missed
  | some other =>
      obtain ⟨origin, inside, filtered⟩ := List.exists_of_findSome?_eq_some first
      have otherTaken := (Option.filter_eq_some_iff.mp filtered).1
      rw [only origin inside other otherTaken]

end ComponentStyles.Project
