import Mathlib.Logic.Function.Iterate
import ComponentStyles.Proofs.Project.Inheritance

/-!
What a module depends on.

The search for dependencies takes names off a queue, in which a name may wait more than once, and
passes over those it has seen.  It ends after one round for each name that was ever put into the
queue, on cycles too, and has then seen the names that the module reaches, declared or not.  A
class is looked up among the classes of those modules, so it stays found as the project grows.
-/

namespace ComponentStyles.Project

structure DependencySearch where
  seen : List ModuleName
  waiting : List ModuleName

namespace DependencySearch

def start (module : ModuleName) : DependencySearch :=
  { seen := [], waiting := [module] }

def round (project : Project) (search : DependencySearch) : DependencySearch :=
  match search.waiting with
  | [] => search
  | name :: rest =>
      if name ∈ search.seen then { search with waiting := rest }
      else
        { seen := search.seen ++ [name]
          waiting := rest ++ project.dependenciesOf name }

def unseenDependencies (seen : List ModuleName) : Table ModuleName ComponentModule → Nat
  | [] => 0
  | entry :: rest =>
      (if entry.1 ∈ seen then 0 else entry.2.dependencies.length) + unseenDependencies seen rest

theorem unseenDependencies_nil (modules : Table ModuleName ComponentModule) :
    unseenDependencies [] modules =
      (modules.flatMap fun entry => entry.2.dependencies).length := by
  induction modules with
  | nil => rfl
  | cons entry rest inductionHypothesis =>
      rw [unseenDependencies, if_neg List.not_mem_nil, inductionHypothesis, List.flatMap_cons,
        List.length_append]

theorem unseenDependencies_concat_le (seen : List ModuleName) (name : ModuleName)
    (modules : Table ModuleName ComponentModule) :
    unseenDependencies (seen ++ [name]) modules ≤ unseenDependencies seen modules := by
  induction modules with
  | nil => exact Nat.le_refl 0
  | cons entry rest inductionHypothesis =>
      rw [unseenDependencies, unseenDependencies]
      by_cases inside : entry.1 ∈ seen
      · rw [if_pos (List.mem_append_left [name] inside), if_pos inside]
        exact Nat.add_le_add_left inductionHypothesis 0
      · rw [if_neg inside]
        split <;> omega

/-- What a name brings in when it is seen, no later name brings in again. -/
theorem unseenDependencies_see (project : Project) {seen : List ModuleName} {name : ModuleName}
    (unseen : name ∉ seen) :
    (project.dependenciesOf name).length +
        unseenDependencies (seen ++ [name]) project.modules ≤
      unseenDependencies seen project.modules := by
  unfold dependenciesOf module?
  generalize project.modules = modules
  induction modules with
  | nil => exact Nat.le_refl 0
  | cons entry rest inductionHypothesis =>
      rw [Table.get?_cons, unseenDependencies, unseenDependencies]
      by_cases same : entry.1 = name
      · have fewer := unseenDependencies_concat_le seen name rest
        have dropped : entry.1 ∈ seen ++ [name] :=
          List.mem_append_right seen (List.mem_singleton.mpr same)
        have counted : entry.1 ∉ seen := same ▸ unseen
        rw [if_pos same, if_pos dropped, if_neg counted, Nat.zero_add]
        exact Nat.add_le_add_left fewer _
      · have unchanged : entry.1 ∈ seen ++ [name] ↔ entry.1 ∈ seen := by
          rw [List.mem_append, List.mem_singleton]
          exact or_iff_left same
        rw [if_neg same, if_congr unchanged rfl rfl]
        omega

def rank (project : Project) (search : DependencySearch) : Nat :=
  search.waiting.length + unseenDependencies search.seen project.modules

theorem rank_round_lt (project : Project) (search : DependencySearch)
    (waits : search.waiting ≠ []) : (search.round project).rank project < search.rank project := by
  obtain ⟨seen, waiting⟩ := search
  cases waiting with
  | nil => exact absurd rfl waits
  | cons name rest =>
      unfold round
      dsimp only
      split
      · exact Nat.add_lt_add_right (Nat.lt_succ_self rest.length) _
      · rename_i unseen
        have fewer := unseenDependencies_see project unseen
        unfold rank
        dsimp only
        rw [List.length_append, List.length_cons]
        omega

theorem rounds_of_finished (project : Project) (seen : List ModuleName) (rounds : Nat) :
    (round project)^[rounds] { seen, waiting := [] } = { seen, waiting := [] } :=
  Function.iterate_fixed rfl rounds

/-- Enough rounds see what the breadth-first search finds, and leave no name waiting. -/
theorem rounds_eq_breadthFirst {project : Project} {mentioned : List ModuleName}
    (closed : ∀ name, ∀ dependency ∈ project.dependenciesOf name, dependency ∈ mentioned)
    {remaining waiting : List ModuleName} {seen : List ModuleName}
    (known : ∀ name ∈ waiting, name ∈ mentioned)
    (remains : ∀ name, name ∈ remaining ↔ name ∈ mentioned ∧ name ∉ seen) {rounds : Nat}
    (enough : rank project { seen, waiting } ≤ rounds) :
    (round project)^[rounds] { seen, waiting } =
      { seen := seen ++ breadthFirst id project.dependenciesOf remaining waiting
        waiting := [] } := by
  induction remaining, waiting using breadthFirst.induct id project.dependenciesOf
    generalizing seen rounds with
  | case1 remaining =>
      rw [breadthFirst, List.append_nil]
      exact rounds_of_finished project seen rounds
  | case2 remaining name rest member inductionHypothesis =>
      have unseen : name ∉ seen := ((remains name).mp member).2
      have next : round project { seen, waiting := name :: rest } =
          { seen := seen ++ [name], waiting := rest ++ project.dependenciesOf name } :=
        if_neg unseen
      have fewer := rank_round_lt project { seen, waiting := name :: rest } (List.cons_ne_nil _ _)
      rw [next] at fewer
      obtain ⟨others, rfl⟩ : ∃ others, rounds = others + 1 :=
        Nat.exists_eq_add_one_of_ne_zero (by omega)
      have knownNext : ∀ other ∈ rest ++ project.dependenciesOf name, other ∈ mentioned := by
        intro other waits
        rcases List.mem_append.mp waits with waits | follows
        · exact known other (List.mem_cons_of_mem name waits)
        · exact closed name other follows
      have remainsNext : ∀ other, other ∈ withoutKey remaining (id name) ↔
          other ∈ mentioned ∧ other ∉ seen ++ [name] := by
        intro other
        rw [mem_withoutKey, remains, List.mem_append, List.mem_singleton, not_or, and_assoc]
        rfl
      rw [Function.iterate_succ_apply, next, breadthFirst, if_pos member,
        inductionHypothesis knownNext remainsNext (by omega), List.append_assoc,
        List.singleton_append]
  | case3 remaining name rest absent inductionHypothesis =>
      have seenBefore : name ∈ seen := by
        by_contra unseen
        exact absent ((remains name).mpr ⟨known name List.mem_cons_self, unseen⟩)
      have next : round project { seen, waiting := name :: rest } = { seen, waiting := rest } :=
        if_pos seenBefore
      have fewer := rank_round_lt project { seen, waiting := name :: rest } (List.cons_ne_nil _ _)
      rw [next] at fewer
      obtain ⟨others, rfl⟩ : ∃ others, rounds = others + 1 :=
        Nat.exists_eq_add_one_of_ne_zero (by omega)
      rw [Function.iterate_succ_apply, next, breadthFirst, if_neg absent]
      refine inductionHypothesis ?_ remains ?_
      · exact fun other waits => known other (List.mem_cons_of_mem name waits)
      · omega

theorem rounds_eq_moduleClosure (project : Project) (module : ModuleName) {rounds : Nat}
    (enough : (project.mentionedModules module).length ≤ rounds) :
    (round project)^[rounds] (start module) =
      { seen := project.moduleClosure module, waiting := [] } := by
  have closed : ∀ name, ∀ dependency ∈ project.dependenciesOf name,
      dependency ∈ project.mentionedModules module :=
    fun _ _ depends => mem_mentionedModules_of_dependsOn depends module
  have known : ∀ name ∈ [module], name ∈ project.mentionedModules module := by
    intro name waits
    rw [List.mem_singleton.mp waits]
    exact List.mem_cons_self
  have remains : ∀ name, name ∈ project.mentionedModules module ↔
      name ∈ project.mentionedModules module ∧ name ∉ ([] : List ModuleName) :=
    fun _ => ⟨fun inside => ⟨inside, List.not_mem_nil⟩, And.left⟩
  have bound : rank project (start module) = (project.mentionedModules module).length := by
    unfold rank start mentionedModules
    rw [unseenDependencies_nil, List.length_singleton, List.length_cons, Nat.add_comm]
  exact rounds_eq_breadthFirst closed known remains (Nat.le_trans (Nat.le_of_eq bound) enough)

end DependencySearch

def Reaches (project : Project) (module name : ModuleName) : Prop :=
  Relation.ReflTransGen project.DependsOn module name

/-- The class has the name and belongs to a module within reach. -/
def Offers (project : Project) (module : ModuleName) (name : ClassName)
    (declared : ComponentClass) : Prop :=
  declared.name = name ∧ project.Reaches module declared.module

theorem mem_moduleClosure {project : Project} {module name : ModuleName} :
    name ∈ project.moduleClosure module ↔ project.Reaches module name :=
  @mem_scopeModules project (.withDependencies module) name

theorem moduleClosure_nodup (project : Project) (module : ModuleName) :
    (project.moduleClosure module).Nodup := by
  have distinct : ((breadthFirst id project.dependenciesOf (project.mentionedModules module)
      [module]).map id).Nodup := breadthFirst_keys_nodup _ _
  rwa [List.map_id] at distinct

theorem offers_iff {project : Project} {module : ModuleName} {name : ClassName}
    {declared : ComponentClass} :
    (declared.name == name &&
        (project.scopeModules (.withDependencies module)).contains declared.module) = true ↔
      project.Offers module name declared := by
  rw [Bool.and_eq_true, beq_iff_eq, List.contains_iff_mem]
  exact and_congr_right fun _ => mem_moduleClosure

theorem findClass?_eq_some_iff {project : Project} {module : ModuleName} {name : ClassName}
    {found : ComponentClass} :
    project.findClass? name (.withDependencies module) = some found ↔
      project.Offers module name found ∧ ∃ earlier later,
        project.classes = earlier ++ found :: later ∧
          ∀ other ∈ earlier, ¬ project.Offers module name other := by
  unfold findClass?
  dsimp only
  rw [List.find?_eq_some_iff_append, offers_iff]
  refine and_congr_right fun _ => exists_congr fun earlier => exists_congr fun later =>
    and_congr_right fun _ => forall_congr' fun other => imp_congr_right fun _ => ?_
  rw [Bool.not_eq_true', ← Bool.not_eq_true, offers_iff]

theorem findClass?_eq_none_iff {project : Project} {module : ModuleName} {name : ClassName} :
    project.findClass? name (.withDependencies module) = none ↔
      ∀ declared ∈ project.classes, ¬ project.Offers module name declared := by
  unfold findClass?
  dsimp only
  rw [List.find?_eq_none]
  exact forall_congr' fun declared => imp_congr_right fun _ => not_congr offers_iff

/-- Declared modules keep their dependencies and classes stay declared.  More of each may come. -/
structure GrowsInto (project larger : Project) : Prop where
  classes : project.classes ⊆ larger.classes
  dependencies : ∀ name, project.dependenciesOf name ⊆ larger.dependenciesOf name

theorem GrowsInto.trans {project middle larger : Project} (first : project.GrowsInto middle)
    (second : middle.GrowsInto larger) : project.GrowsInto larger :=
  { classes := fun _ inside => second.classes (first.classes inside)
    dependencies := fun name _ inside => second.dependencies name (first.dependencies name inside) }

theorem growsInto_addClass (project : Project) (declared : ComponentClass) :
    project.GrowsInto (project.addClass declared) :=
  { classes := List.subset_append_left project.classes [declared]
    dependencies := fun _ _ inside => inside }

theorem growsInto_addModule (project : Project) {name : ModuleName} {added : ComponentModule}
    (gains : project.dependenciesOf name ⊆ added.dependencies) :
    project.GrowsInto (project.addModule name added) := by
  refine { classes := fun _ inside => inside, dependencies := ?_ }
  intro other
  have lookedUp : (project.addModule name added).module? other =
      if name = other then some added else project.module? other :=
    Table.get?_put project.modules name other added
  by_cases same : name = other
  · have grown : (project.addModule name added).dependenciesOf other = added.dependencies := by
      unfold dependenciesOf
      rw [lookedUp, if_pos same]
    rw [grown, ← same]
    exact gains
  · have kept : (project.addModule name added).dependenciesOf other =
        project.dependenciesOf other := by
      unfold dependenciesOf
      rw [lookedUp, if_neg same]
    rw [kept]
    exact List.Subset.refl _

theorem GrowsInto.reaches {project larger : Project} (grows : project.GrowsInto larger)
    {module name : ModuleName} (reaches : project.Reaches module name) :
    larger.Reaches module name :=
  Relation.ReflTransGen.mono (fun name _ depends => grows.dependencies name depends) _ _ reaches

theorem GrowsInto.findClass?_isSome {project larger : Project} (grows : project.GrowsInto larger)
    {module : ModuleName} {name : ClassName}
    (found : (project.findClass? name (.withDependencies module)).isSome) :
    (larger.findClass? name (.withDependencies module)).isSome := by
  obtain ⟨declared, found⟩ := Option.isSome_iff_exists.mp found
  obtain ⟨⟨named, reached⟩, earlier, later, parts, _⟩ := findClass?_eq_some_iff.mp found
  have inside : declared ∈ project.classes := by
    rw [parts]
    exact List.mem_append_right earlier List.mem_cons_self
  rw [Option.isSome_iff_ne_none]
  intro none
  exact findClass?_eq_none_iff.mp none declared (grows.classes inside)
    ⟨named, grows.reaches reached⟩

/-- The search for dependencies ends and has then seen each name within reach once.  A class is
looked up among the modules within reach, and growth never loses one. -/
theorem dependencies_are_reachable (project : Project) (module : ModuleName) :
    (∀ rounds, (project.mentionedModules module).length ≤ rounds →
        (DependencySearch.round project)^[rounds] (.start module) =
          { seen := project.moduleClosure module, waiting := [] }) ∧
      (project.moduleClosure module).Nodup ∧
      (∀ name, name ∈ project.moduleClosure module ↔ project.Reaches module name) ∧
      ∀ name : ClassName,
        (∀ found, project.findClass? name (.withDependencies module) = some found ↔
          project.Offers module name found ∧ ∃ earlier later,
            project.classes = earlier ++ found :: later ∧
              ∀ other ∈ earlier, ¬ project.Offers module name other) ∧
        (project.findClass? name (.withDependencies module) = none ↔
          ∀ declared ∈ project.classes, ¬ project.Offers module name declared) ∧
        ∀ larger, project.GrowsInto larger →
          (project.findClass? name (.withDependencies module)).isSome →
            (larger.findClass? name (.withDependencies module)).isSome := by
  refine ⟨?ends, moduleClosure_nodup project module, fun _ => mem_moduleClosure, ?lookUp⟩
  case ends =>
    intro rounds enough
    exact DependencySearch.rounds_eq_moduleClosure project module enough
  case lookUp =>
    intro name
    exact ⟨fun _ => findClass?_eq_some_iff, findClass?_eq_none_iff,
      fun _ grows found => grows.findClass?_isSome found⟩

/-! Two modules that depend on each other, one of them also on a module that is not declared. -/

def drawing : Project :=
  { modules :=
      [(⟨"shapes"⟩,
          { nature := .library, sourceRoots := [], dependencies := [⟨"icons"⟩, ⟨"gone"⟩] }),
        (⟨"icons"⟩, { nature := .library, sourceRoots := [], dependencies := [⟨"shapes"⟩] })]
    documents := [], classes := [badge, emblem, figure], overrides := [] }

def largerDrawing : Project :=
  let larger :=
    drawing.addModule ⟨"gone"⟩ { nature := .library, sourceRoots := [], dependencies := [] }
  larger.addClass { name := ⟨"Emblem"⟩, module := ⟨"gone"⟩, extends? := none, file := none }

theorem emblem_found_in_drawing :
    (drawing.mentionedModules ⟨"shapes"⟩).length = 4 ∧
      (DependencySearch.round drawing)^[4] (.start ⟨"shapes"⟩) =
        { seen := [⟨"shapes"⟩, ⟨"icons"⟩, ⟨"gone"⟩], waiting := [] } ∧
      drawing.findClass? ⟨"Emblem"⟩ (.withDependencies ⟨"shapes"⟩) = some emblem ∧
      drawing.GrowsInto largerDrawing ∧
      (largerDrawing.findClass? ⟨"Emblem"⟩ (.withDependencies ⟨"shapes"⟩)).isSome := by
  have grows : drawing.GrowsInto largerDrawing :=
    (growsInto_addModule drawing (List.nil_subset _)).trans (growsInto_addClass _ _)
  have length : (drawing.mentionedModules ⟨"shapes"⟩).length = 4 := by decide
  obtain ⟨ends, _, _, lookUp⟩ := dependencies_are_reachable drawing ⟨"shapes"⟩
  have finished := ends 4 (Nat.le_of_eq length)
  have searched : (DependencySearch.round drawing)^[4] (.start ⟨"shapes"⟩) =
      { seen := [⟨"shapes"⟩, ⟨"icons"⟩, ⟨"gone"⟩], waiting := [] } := rfl
  have closure : drawing.moduleClosure ⟨"shapes"⟩ = [⟨"shapes"⟩, ⟨"icons"⟩, ⟨"gone"⟩] :=
    congrArg DependencySearch.seen (finished.symm.trans searched)
  have found : drawing.findClass? ⟨"Emblem"⟩ (.withDependencies ⟨"shapes"⟩) = some emblem := by
    unfold findClass? scopeModules
    dsimp only
    rw [closure]
    rfl
  refine ⟨length, searched, found, grows, ?_⟩
  exact (lookUp ⟨"Emblem"⟩).2.2 largerDrawing grows (by rw [found]; rfl)

end ComponentStyles.Project
