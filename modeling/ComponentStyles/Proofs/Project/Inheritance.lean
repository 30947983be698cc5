import Mathlib.Data.Nat.Find
import Mathlib.Logic.Relation
import ComponentStyles.Proofs.Project.Descent

/-!
Inheritors as a transitive closure.

The search takes classes layer by layer.  Its queue is ordered by the layers of what waits in it
and spans two of them at most, and from this the classes come nearest first, whatever cycles
their names make.
-/

namespace ComponentStyles.Project

section Layers

variable {α κ : Type} [DecidableEq κ] {key : α → κ} {next : α → List α}
  {reach : Nat → α → Prop}

def WaitsWithin (marked : List (α × Nat)) (item : α) (layer : Nat) : Prop :=
  ∃ waiting ∈ marked, waiting.1 = item ∧ waiting.2 ≤ layer

theorem WaitsWithin.behind {first : α × Nat} {rest : List (α × Nat)} {item : α} {layer : Nat}
    (waits : WaitsWithin (first :: rest) item layer) (different : item ≠ first.1) :
    WaitsWithin rest item layer := by
  obtain ⟨waiting, inside, same, near⟩ := waits
  rcases List.mem_cons.mp inside with isFirst | behind
  · rw [isFirst] at same
    exact absurd same.symm different
  · exact ⟨waiting, behind, same, near⟩

theorem WaitsWithin.append {marked : List (α × Nat)} {item : α} {layer : Nat}
    (waits : WaitsWithin marked item layer) (added : List (α × Nat)) :
    WaitsWithin (marked ++ added) item layer := by
  obtain ⟨waiting, inside, same, near⟩ := waits
  exact ⟨waiting, List.mem_append_left added inside, same, near⟩

structure Layered (key : α → κ) (next : α → List α) (reach : Nat → α → Prop)
    (remaining : List κ) (marked : List (α × Nat)) : Prop where
  ordered : marked.Pairwise fun earlier later => earlier.2 ≤ later.2
  narrow : ∀ one ∈ marked, ∀ other ∈ marked, other.2 ≤ one.2 + 1
  sound : ∀ waiting ∈ marked, reach waiting.2 waiting.1
  started : ∀ item, reach 0 item → key item ∈ remaining → WaitsWithin marked item 0
  met : ∀ steps parent, reach steps parent → key parent ∉ remaining →
    ∀ item ∈ next parent, key item ∈ remaining → WaitsWithin marked item (steps + 1)

/-- Whatever still remains to be taken lies no nearer than something that waits. -/
theorem Layered.front
    (invert : ∀ steps item, reach (steps + 1) item →
      ∃ parent, reach steps parent ∧ item ∈ next parent)
    {remaining : List κ} {marked : List (α × Nat)}
    (layered : Layered key next reach remaining marked) {steps : Nat} {item : α}
    (reached : reach steps item) (remains : key item ∈ remaining) :
    ∃ waiting ∈ marked, waiting.2 ≤ steps := by
  -- The induction goes back along the steps, to the last one whose key has been taken.
  induction steps generalizing item with
  | zero =>
      obtain ⟨waiting, waits, _, layer⟩ := layered.started item reached remains
      exact ⟨waiting, waits, layer⟩
  | succ steps inductionHypothesis =>
      obtain ⟨parent, parentReached, follows⟩ := invert steps item reached
      by_cases parentRemains : key parent ∈ remaining
      · obtain ⟨waiting, waits, layer⟩ := inductionHypothesis parentReached parentRemains
        exact ⟨waiting, waits, Nat.le_succ_of_le layer⟩
      · obtain ⟨waiting, waits, _, layer⟩ :=
          layered.met steps parent parentReached parentRemains item follows remains
        exact ⟨waiting, waits, layer⟩

theorem Layered.le_of_remains
    (invert : ∀ steps item, reach (steps + 1) item →
      ∃ parent, reach steps parent ∧ item ∈ next parent)
    {remaining : List κ} {first : α} {layer : Nat} {rest : List (α × Nat)}
    (layered : Layered key next reach remaining ((first, layer) :: rest)) {steps : Nat}
    {item : α} (reached : reach steps item) (remains : key item ∈ remaining) :
    layer ≤ steps := by
  obtain ⟨waiting, waits, near⟩ := layered.front invert reached remains
  rcases List.mem_cons.mp waits with same | behind
  · rw [same] at near
    exact near
  · exact Nat.le_trans ((List.pairwise_cons.mp layered.ordered).1 waiting behind) near

theorem Layered.take
    (extend : ∀ steps item, reach steps item → ∀ later ∈ next item, reach (steps + 1) later)
    (invert : ∀ steps item, reach (steps + 1) item →
      ∃ parent, reach steps parent ∧ item ∈ next parent)
    (sameNext : ∀ one other, key one = key other → next one = next other)
    {remaining : List κ} {first : α} {layer : Nat} {rest : List (α × Nat)}
    (layered : Layered key next reach remaining ((first, layer) :: rest)) :
    Layered key next reach (withoutKey remaining (key first))
      (rest ++ (next first).map fun later => (later, layer + 1)) := by
  obtain ⟨firstNearest, restOrdered⟩ := List.pairwise_cons.mp layered.ordered
  have within : ∀ waiting ∈ rest ++ (next first).map fun later => (later, layer + 1),
      layer ≤ waiting.2 ∧ waiting.2 ≤ layer + 1 := by
    intro waiting waits
    rcases List.mem_append.mp waits with behind | added
    · exact ⟨firstNearest waiting behind,
        layered.narrow (first, layer) List.mem_cons_self waiting
          (List.mem_cons_of_mem _ behind)⟩
    · obtain ⟨later, _, same⟩ := List.mem_map.mp added
      rw [← same]
      exact ⟨Nat.le_succ layer, Nat.le_refl _⟩
  have differs : ∀ item, key item ∈ withoutKey remaining (key first) → item ≠ first := by
    intro item remains same
    exact (mem_withoutKey.mp remains).2 (congrArg key same)
  constructor
  case ordered =>
    rw [List.pairwise_append]
    refine ⟨restOrdered, ?_, ?_⟩
    · rw [List.pairwise_map]
      exact List.pairwise_of_forall fun _ _ => Nat.le_refl _
    · intro waiting behind other added
      obtain ⟨later, _, same⟩ := List.mem_map.mp added
      rw [← same]
      exact (within waiting (List.mem_append_left _ behind)).2
  case narrow =>
    intro one oneWaits other otherWaits
    have lower := (within one oneWaits).1
    have upper := (within other otherWaits).2
    omega
  case sound =>
    intro waiting waits
    rcases List.mem_append.mp waits with behind | added
    · exact layered.sound waiting (List.mem_cons_of_mem _ behind)
    · obtain ⟨later, follows, same⟩ := List.mem_map.mp added
      rw [← same]
      exact extend layer first (layered.sound (first, layer) List.mem_cons_self) later follows
  case started =>
    intro item reached remains
    exact ((layered.started item reached (mem_withoutKey.mp remains).1).behind
      (differs item remains)).append _
  case met =>
    intro steps parent parentReached parentTaken item follows remains
    by_cases parentRemained : key parent ∈ remaining
    · -- The parent is taken just now: its layer is the first one, so no nearer than its steps.
      have same : key parent = key first := by
        by_contra different
        exact parentTaken (mem_withoutKey.mpr ⟨parentRemained, different⟩)
      have near := layered.le_of_remains invert parentReached parentRemained
      rw [sameNext parent first same] at follows
      refine ⟨(item, layer + 1), List.mem_append_right _ ?_, rfl, Nat.succ_le_succ near⟩
      exact List.mem_map.mpr ⟨item, follows, rfl⟩
    · exact ((layered.met steps parent parentReached parentRemained item follows
        (mem_withoutKey.mp remains).1).behind (differs item remains)).append _

omit [DecidableEq κ] in
theorem Layered.skip {remaining : List κ} {first : α × Nat} {rest : List (α × Nat)}
    (layered : Layered key next reach remaining (first :: rest))
    (absent : key first.1 ∉ remaining) : Layered key next reach remaining rest := by
  have differs : ∀ item, key item ∈ remaining → item ≠ first.1 := by
    intro item remains same
    exact absent (same ▸ remains)
  constructor
  case ordered => exact (List.pairwise_cons.mp layered.ordered).2
  case narrow =>
    intro one oneWaits other otherWaits
    exact layered.narrow one (List.mem_cons_of_mem _ oneWaits) other
      (List.mem_cons_of_mem _ otherWaits)
  case sound => exact fun waiting waits => layered.sound waiting (List.mem_cons_of_mem _ waits)
  case started =>
    intro item reached remains
    exact (layered.started item reached remains).behind (differs item remains)
  case met =>
    intro steps parent parentReached parentTaken item follows remains
    exact (layered.met steps parent parentReached parentTaken item follows remains).behind
      (differs item remains)

/-- Items are taken nearest first. -/
theorem Layered.breadthFirst_pairwise
    (extend : ∀ steps item, reach steps item → ∀ later ∈ next item, reach (steps + 1) later)
    (invert : ∀ steps item, reach (steps + 1) item →
      ∃ parent, reach steps parent ∧ item ∈ next parent)
    (sameNext : ∀ one other, key one = key other → next one = next other)
    {remaining : List κ} {waiting : List α} {marked : List (α × Nat)}
    (waits : marked.map Prod.fst = waiting)
    (layered : Layered key next reach remaining marked) :
    (breadthFirst key next remaining waiting).Pairwise fun earlier later =>
      ∀ steps, reach steps later → ∃ fewer, fewer ≤ steps ∧ reach fewer earlier := by
  induction remaining, waiting using breadthFirst.induct key next generalizing marked with
  | case1 remaining =>
      rw [breadthFirst]
      exact List.Pairwise.nil
  | case2 remaining item rest member inductionHypothesis =>
      rw [breadthFirst, if_pos member, List.pairwise_cons]
      obtain ⟨⟨first, layer⟩, behind, rfl, rfl, rfl⟩ := List.map_eq_cons_iff.mp waits
      constructor
      · intro later taken steps reached
        have remains := (mem_withoutKey.mp (key_mem_of_breadthFirst taken)).1
        exact ⟨layer, layered.le_of_remains invert reached remains,
          layered.sound (first, layer) List.mem_cons_self⟩
      · refine inductionHypothesis ?_ (layered.take extend invert sameNext)
        rw [List.map_append, List.map_map]
        exact congrArg (behind.map Prod.fst ++ ·) (List.map_id _)
  | case3 remaining item rest absent inductionHypothesis =>
      rw [breadthFirst, if_neg absent]
      obtain ⟨first, behind, rfl, rfl, rfl⟩ := List.map_eq_cons_iff.mp waits
      exact inductionHypothesis rfl (layered.skip absent)

end Layers

/-- A chain of extended names from a declared class to a base, with its length.  Where names are
repeated, any class of an extended name may continue it. -/
inductive Chain (project : Project) (base : ComponentClass) : Nat → ComponentClass → Prop where
  | base : Chain project base 0 base
  | behind {declared parent : ComponentClass} {steps : Nat} :
      declared ∈ project.classes → declared.extends? = some parent.name →
      Chain project base steps parent → Chain project base (steps + 1) declared

def ShortestChain (project : Project) (base : ComponentClass) (steps : Nat)
    (declared : ComponentClass) : Prop :=
  project.Chain base steps declared ∧ ∀ other, project.Chain base other declared → steps ≤ other

section Chains

variable {project : Project} {base : ComponentClass}

theorem Chain.leadsTo {steps : Nat} {declared : ComponentClass}
    (chain : project.Chain base steps declared) :
    project.LeadsTo base.name declared.name := by
  induction chain with
  | base => exact .here
  | behind inside extended _ inductionHypothesis =>
      exact .behind inside extended inductionHypothesis

theorem Chain.exists_shortest {steps : Nat} {declared : ComponentClass}
    (chain : project.Chain base steps declared) :
    ∃ least, project.ShortestChain base least declared := by
  classical
  have some : ∃ steps, project.Chain base steps declared := ⟨steps, chain⟩
  exact ⟨Nat.find some, Nat.find_spec some, fun _ other => Nat.find_min' some other⟩

def ChainBehind (project : Project) (base : ComponentClass) (layer : Nat)
    (declared : ComponentClass) : Prop :=
  project.Chain base (layer + 1) declared

theorem ChainBehind.extend (layer : Nat) (item : ComponentClass)
    (chain : project.ChainBehind base layer item) (later : ComponentClass)
    (follows : later ∈ project.directInheritors item.name) :
    project.ChainBehind base (layer + 1) later := by
  obtain ⟨inside, extended⟩ := mem_directInheritors.mp follows
  exact .behind inside extended chain

theorem ChainBehind.invert (layer : Nat) (item : ComponentClass)
    (chain : project.ChainBehind base (layer + 1) item) :
    ∃ parent, project.ChainBehind base layer parent ∧
      item ∈ project.directInheritors parent.name := by
  cases chain with
  | behind inside extended shorter =>
      exact ⟨_, shorter, mem_directInheritors.mpr ⟨inside, extended⟩⟩

theorem chainBehind_zero {item : ComponentClass} :
    project.ChainBehind base 0 item ↔ item ∈ project.directInheritors base.name := by
  rw [mem_directInheritors]
  constructor
  · intro chain
    cases chain with
    | behind inside extended none =>
        cases none with
        | base => exact ⟨inside, extended⟩
  · rintro ⟨inside, extended⟩
    exact .behind inside extended .base

theorem ChainBehind.mem_classes {layer : Nat} {item : ComponentClass}
    (chain : project.ChainBehind base layer item) : item ∈ project.classes := by
  cases chain with
  | behind inside _ _ => exact inside

theorem chainBehind_of_inheritorsByName {found : ComponentClass}
    (taken : found ∈ project.inheritorsByName base.name) :
    ∃ layer, project.ChainBehind base layer found := by
  have handedOn : ∀ item : ComponentClass, (∃ layer, project.ChainBehind base layer item) →
      ∀ later ∈ project.directInheritors item.name,
        ∃ layer, project.ChainBehind base layer later := by
    rintro item ⟨layer, chain⟩ later follows
    exact ⟨layer + 1, chain.extend layer item later follows⟩
  have waits : ∀ item ∈ project.directInheritors base.name,
      ∃ layer, project.ChainBehind base layer item :=
    fun item follows => ⟨0, chainBehind_zero.mpr follows⟩
  exact breadthFirst_sound handedOn waits taken

theorem layered_start (project : Project) (base : ComponentClass) :
    Layered ComponentClass.name (fun found => project.directInheritors found.name)
      (project.ChainBehind base)
      (withoutKey (project.classes.map ComponentClass.name) base.name)
      ((project.directInheritors base.name).map fun item => (item, 0)) := by
  have atZero : ∀ waiting ∈ (project.directInheritors base.name).map fun item => (item, 0),
      waiting.2 = 0 := by
    intro waiting inside
    obtain ⟨item, _, same⟩ := List.mem_map.mp inside
    rw [← same]
  have waits : ∀ item ∈ project.directInheritors base.name, ∀ layer,
      WaitsWithin ((project.directInheritors base.name).map fun item => (item, 0)) item layer :=
    fun item follows layer =>
      ⟨(item, 0), List.mem_map.mpr ⟨item, follows, rfl⟩, rfl, Nat.zero_le layer⟩
  constructor
  case ordered =>
    rw [List.pairwise_map]
    exact List.pairwise_of_forall fun _ _ => Nat.le_refl _
  case narrow =>
    intro one oneWaits other otherWaits
    rw [atZero other otherWaits]
    exact Nat.zero_le _
  case sound =>
    intro waiting inside
    obtain ⟨item, follows, same⟩ := List.mem_map.mp inside
    rw [← same]
    exact chainBehind_zero.mpr follows
  case started => exact fun item chain _ => waits item (chainBehind_zero.mp chain) 0
  case met =>
    intro steps parent chain taken item follows _
    have named : parent.name = base.name := by
      by_contra different
      exact taken (mem_withoutKey.mpr
        ⟨List.mem_map.mpr ⟨parent, chain.mem_classes, rfl⟩, different⟩)
    rw [named] at follows
    exact waits item follows (steps + 1)

theorem inheritorsByName_pairwise (project : Project) (base : ComponentClass) :
    (project.inheritorsByName base.name).Pairwise fun earlier later =>
      ∀ layer, project.ChainBehind base layer later →
        ∃ nearer, nearer ≤ layer ∧ project.ChainBehind base nearer earlier := by
  refine (layered_start project base).breadthFirst_pairwise ChainBehind.extend
    ChainBehind.invert ?_ ?_
  · intro one other same
    exact congrArg project.directInheritors same
  · rw [List.map_map]
    exact List.map_id _

end Chains

def DependsOn (project : Project) (name dependency : ModuleName) : Prop :=
  dependency ∈ project.dependenciesOf name

/-- The modules of a scope: one module, or it and those it depends on through any number of
others. -/
def InScope (project : Project) : Scope → ModuleName → Prop
  | .own module, name => name = module
  | .withDependencies module, name => Relation.ReflTransGen project.DependsOn module name

theorem mem_mentionedModules_of_dependsOn {project : Project} {name dependency : ModuleName}
    (depends : project.DependsOn name dependency) (root : ModuleName) :
    dependency ∈ project.mentionedModules root := by
  unfold DependsOn dependenciesOf at depends
  cases found : project.module? name with
  | none =>
      rw [found] at depends
      cases depends
  | some stored =>
      rw [found] at depends
      refine List.mem_cons_of_mem root (List.mem_flatMap.mpr ⟨(name, stored), ?_, depends⟩)
      exact Table.mem_of_get? found

theorem mem_scopeModules {project : Project} {scope : Scope} {name : ModuleName} :
    name ∈ project.scopeModules scope ↔ project.InScope scope name := by
  cases scope with
  | own module => exact List.mem_singleton
  | withDependencies module =>
      constructor
      · have handedOn : ∀ item, project.InScope (.withDependencies module) item →
            ∀ later ∈ project.dependenciesOf item,
              project.InScope (.withDependencies module) later :=
          fun item reached later follows => reached.tail follows
        have waits : ∀ item ∈ [module], project.InScope (.withDependencies module) item := by
          intro item waits
          rw [List.mem_singleton.mp waits]
          exact .refl
        exact fun taken => breadthFirst_sound handedOn waits taken
      · intro reached
        have taken : ∃ found ∈ project.moduleClosure module, id found = id name := by
          induction reached with
          | refl =>
              exact breadthFirst_waiting List.mem_cons_self List.mem_cons_self
          | @tail middle _ _ depends inductionHypothesis =>
              obtain ⟨found, inside, same⟩ := inductionHypothesis
              have sameName : found = middle := same
              rw [← sameName] at depends
              exact breadthFirst_next inside depends
                (mem_mentionedModules_of_dependsOn depends module)
        obtain ⟨found, inside, same⟩ := taken
        have sameName : found = name := same
        rw [← sameName]
        exact inside

theorem mem_findInheritors {project : Project} {base : ComponentClass} {includeSelf : Bool}
    {scope : Scope} {found : ComponentClass} :
    found ∈ project.findInheritors base includeSelf scope ↔
      project.InScope scope found.module ∧
        ((found = base ∧ includeSelf = true) ∨ found ∈ project.inheritorsByName base.name) := by
  have kept : ∀ declared : ComponentClass,
      (project.scopeModules scope).contains declared.module = true ↔
        project.InScope scope declared.module := by
    intro declared
    rw [List.contains_iff_mem, mem_scopeModules]
  unfold findInheritors
  dsimp only
  split
  · rename_i wanted
    rw [Bool.and_eq_true, kept] at wanted
    rw [List.mem_cons, List.mem_filter, kept]
    constructor
    · rintro (same | ⟨taken, inScope⟩)
      · rw [same]
        exact ⟨wanted.2, Or.inl ⟨rfl, wanted.1⟩⟩
      · exact ⟨inScope, Or.inr taken⟩
    · rintro ⟨inScope, ⟨same, _⟩ | taken⟩
      · exact Or.inl same
      · exact Or.inr ⟨taken, inScope⟩
  · rename_i unwanted
    rw [Bool.and_eq_true, kept] at unwanted
    rw [List.mem_filter, kept]
    constructor
    · rintro ⟨taken, inScope⟩
      exact ⟨inScope, Or.inr taken⟩
    · rintro ⟨inScope, ⟨same, included⟩ | taken⟩
      · rw [same] at inScope
        exact absurd ⟨included, inScope⟩ unwanted
      · exact ⟨taken, inScope⟩

/-! ### The transitive closure -/

/-- What a list of inheritors is, whatever cycles, unknown names and repeated names the classes
have. -/
structure Inheritors (project : Project) (base : ComponentClass) (includeSelf : Bool)
    (scope : Scope) (found : List ComponentClass) : Prop where
  declared : ∀ one ∈ found, one ∈ project.classes ∧ project.InScope scope one.module
  chained : ∀ one ∈ found, (one = base ∧ includeSelf = true) ∨
    (one ≠ base ∧ ∃ steps, project.Chain base (steps + 1) one)
  namedOnce : (found.map ComponentClass.name).Nodup
  bounded : found.length ≤ project.classes.length
  measured : ∀ one ∈ found, ∃ steps, project.ShortestChain base steps one
  nearestFirst : found.Pairwise fun earlier later => ∀ near far,
    project.ShortestChain base near earlier → project.ShortestChain base far later → near ≤ far

theorem chained_of_findInheritors {project : Project} {base : ComponentClass}
    {includeSelf : Bool} {scope : Scope} {found : ComponentClass}
    (taken : found ∈ project.findInheritors base includeSelf scope) :
    (found = base ∧ includeSelf = true) ∨
      (found ≠ base ∧ ∃ steps, project.Chain base (steps + 1) found) := by
  rcases (mem_findInheritors.mp taken).2 with own | reached
  · exact Or.inl own
  · refine Or.inr ⟨?_, chainBehind_of_inheritorsByName reached⟩
    intro same
    exact ne_base_of_inheritorsByName reached (congrArg ComponentClass.name same)

theorem findInheritors_names_nodup (project : Project) (base : ComponentClass)
    (includeSelf : Bool) (scope : Scope) :
    ((project.findInheritors base includeSelf scope).map ComponentClass.name).Nodup := by
  have below : (((project.inheritorsByName base.name).filter fun declared =>
      (project.scopeModules scope).contains declared.module).map ComponentClass.name).Nodup :=
    (breadthFirst_keys_nodup _ _).sublist (List.filter_sublist.map _)
  unfold findInheritors
  dsimp only
  split
  · rw [List.map_cons, List.nodup_cons]
    refine ⟨?_, below⟩
    intro again
    obtain ⟨other, inside, named⟩ := List.mem_map.mp again
    exact ne_base_of_inheritorsByName (List.mem_filter.mp inside).1 named
  · exact below

theorem findInheritors_nearestFirst (project : Project) (base : ComponentClass)
    (includeSelf : Bool) (scope : Scope) :
    (project.findInheritors base includeSelf scope).Pairwise fun earlier later => ∀ near far,
      project.ShortestChain base near earlier → project.ShortestChain base far later →
        near ≤ far := by
  have below : ((project.inheritorsByName base.name).filter fun declared =>
      (project.scopeModules scope).contains declared.module).Pairwise fun earlier later =>
        ∀ near far, project.ShortestChain base near earlier →
          project.ShortestChain base far later → near ≤ far := by
    refine ((inheritorsByName_pairwise project base).imp_of_mem ?_).filter _
    rintro earlier later _ laterTaken nearer near far ⟨_, nearest⟩ ⟨farChain, _⟩
    -- A chain of no steps would make the later class the base itself, which is not found below.
    cases far with
    | zero =>
        cases farChain
        exact absurd rfl (ne_base_of_inheritorsByName laterTaken)
    | succ layer =>
        obtain ⟨other, notFarther, chain⟩ := nearer layer farChain
        exact Nat.le_trans (nearest (other + 1) chain) (Nat.succ_le_succ notFarther)
  unfold findInheritors
  dsimp only
  split
  · rw [List.pairwise_cons]
    refine ⟨?_, below⟩
    rintro later _ near far ⟨_, nearest⟩ _
    exact Nat.le_trans (nearest 0 .base) (Nat.zero_le far)
  · exact below

theorem findInheritors_spec {project : Project} {base : ComponentClass}
    (known : base ∈ project.classes) (includeSelf : Bool) (scope : Scope) :
    project.Inheritors base includeSelf scope
      (project.findInheritors base includeSelf scope) := by
  have declared : ∀ one ∈ project.findInheritors base includeSelf scope,
      one ∈ project.classes := by
    intro one taken
    rcases (mem_findInheritors.mp taken).2 with ⟨same, _⟩ | reached
    · rw [same]
      exact known
    · exact mem_classes_of_inheritorsByName reached
  have namedOnce := findInheritors_names_nodup project base includeSelf scope
  constructor
  case declared => exact fun one taken => ⟨declared one taken, (mem_findInheritors.mp taken).1⟩
  case chained => exact fun one taken => chained_of_findInheritors taken
  case namedOnce => exact namedOnce
  case bounded => exact (namedOnce.of_map.subperm declared).length_le
  case measured =>
    intro one taken
    rcases chained_of_findInheritors taken with ⟨same, _⟩ | ⟨_, steps, chain⟩
    · rw [same]
      exact Chain.base.exists_shortest
    · exact chain.exists_shortest
  case nearestFirst => exact findInheritors_nearestFirst project base includeSelf scope

theorem DistinctNames.mem_findInheritors {project : Project} (distinct : project.DistinctNames)
    {base declared : ComponentClass} (known : base ∈ project.classes) (includeSelf : Bool)
    {scope : Scope} (inside : declared ∈ project.classes) (other : declared ≠ base)
    (inScope : project.InScope scope declared.module) {steps : Nat}
    (chain : project.Chain base steps declared) :
    declared ∈ project.findInheritors base includeSelf scope := by
  refine Project.mem_findInheritors.mpr ⟨inScope, Or.inr ?_⟩
  rcases chain.leadsTo.reached with named | ⟨found, taken, named⟩
  · exact absurd (distinct.unique known inside named) other
  · rw [← distinct.unique inside (mem_classes_of_inheritorsByName taken) named]
    exact taken

theorem base_mem_findInheritors {project : Project} {base : ComponentClass} {includeSelf : Bool}
    {scope : Scope} :
    base ∈ project.findInheritors base includeSelf scope ↔
      includeSelf = true ∧ project.InScope scope base.module := by
  rw [mem_findInheritors]
  constructor
  · rintro ⟨inScope, ⟨_, included⟩ | reached⟩
    · exact ⟨included, inScope⟩
    · exact absurd rfl (ne_base_of_inheritorsByName reached)
  · rintro ⟨included, inScope⟩
    exact ⟨inScope, Or.inl ⟨rfl, included⟩⟩

/-- The inheritors of a declared class are those with a chain of extended names to it, in the
scope and nearest first.  Where names are distinct none is missing, wherever its chain runs. -/
theorem inheritors_are_transitive (project : Project) (base : ComponentClass)
    (known : base ∈ project.classes) (includeSelf : Bool) (scope : Scope) :
    project.Inheritors base includeSelf scope
        (project.findInheritors base includeSelf scope) ∧
      (project.DistinctNames →
        (∀ declared ∈ project.classes, declared ≠ base →
          project.InScope scope declared.module →
          (∃ steps, project.Chain base steps declared) →
            declared ∈ project.findInheritors base includeSelf scope) ∧
        (base ∈ project.findInheritors base includeSelf scope ↔
          includeSelf = true ∧ project.InScope scope base.module)) := by
  refine ⟨findInheritors_spec known includeSelf scope, ?_⟩
  intro distinct
  refine ⟨?_, base_mem_findInheritors⟩
  rintro declared inside other inScope ⟨steps, chain⟩
  exact distinct.mem_findInheritors known includeSelf inside other inScope chain

/-! Three classes that extend each other in a circle, the one in the middle in a module of its
own. -/

def figure : ComponentClass :=
  { name := ⟨"Figure"⟩, module := ⟨"shapes"⟩, extends? := some ⟨"Badge"⟩, file := none }

def emblem : ComponentClass :=
  { name := ⟨"Emblem"⟩, module := ⟨"icons"⟩, extends? := some ⟨"Figure"⟩, file := none }

def badge : ComponentClass :=
  { name := ⟨"Badge"⟩, module := ⟨"shapes"⟩, extends? := some ⟨"Emblem"⟩, file := none }

def circle : Project :=
  { modules := [], documents := [], classes := [badge, emblem, figure], overrides := [] }

theorem badge_inherits_figure : figure ∈ circle.classes ∧ circle.DistinctNames ∧
    circle.Inheritors figure false (.own ⟨"shapes"⟩)
      (circle.findInheritors figure false (.own ⟨"shapes"⟩)) ∧
    badge ∈ circle.findInheritors figure false (.own ⟨"shapes"⟩) := by
  have known : figure ∈ circle.classes := by decide
  have distinct : circle.DistinctNames := by decide
  have shorter : circle.Chain figure 1 emblem := .behind (by decide) rfl .base
  have chain : circle.Chain figure 2 badge := .behind (by decide) rfl shorter
  obtain ⟨found, complete⟩ :=
    inheritors_are_transitive circle figure known false (.own ⟨"shapes"⟩)
  exact ⟨known, distinct, found,
    (complete distinct).1 badge (by decide) (by decide) rfl ⟨2, chain⟩⟩

end ComponentStyles.Project
