import Mathlib.Data.List.Perm.Basic
import ComponentStyles.Proofs.Pass.Account
import ComponentStyles.Proofs.Pass.Restoration
import ComponentStyles.Proofs.Pass.Visits
import ComponentStyles.Proofs.Project.Descent

/-!
Passes over a project with its classes declared in another order.

The order of the classes decides the order of the components, and so which tag is the first to
refer to a stylesheet.  With one reply for each stylesheet the artifacts and the problems are the
same in another order.
-/

namespace ComponentStyles

variable {σ : Type}

/-- The artifacts of bodies are the same, and those of stylesheets of their own are the same but
for the order of their users. -/
structure SameHolders (artifacts others : List Artifact) : Prop where
  inlined : (artifacts.filter (·.origin = .inlined)).Perm (others.filter (·.origin = .inlined))
  external : ((artifacts.filter Artifact.isExternal).map Artifact.content).Perm
    ((others.filter Artifact.isExternal).map Artifact.content)

abbrev PassResult :=
  Except PassFailure (Option (List Artifact))

/-- Both passes succeed or neither does, and then they give the same. -/
structure SameStyles (result other : PassResult) (log otherLog : ProblemLog) : Prop where
  succeeds : (∃ given, result = .ok given) ↔ ∃ given, other = .ok given
  absent : result = .ok none ↔ other = .ok none
  given : ∀ given otherGiven, result = .ok given → other = .ok otherGiven →
    SameHolders (given.getD []) (otherGiven.getD []) ∧
      log.problems.toList.Perm otherLog.problems.toList

theorem SameStyles.refl (result : PassResult) (log : ProblemLog) :
    SameStyles result result log log := by
  refine ⟨Iff.rfl, Iff.rfl, ?_⟩
  intro given other ok otherOk
  rw [ok, Except.ok.injEq] at otherOk
  rw [otherOk]
  exact ⟨⟨List.Perm.refl _, List.Perm.refl _⟩, List.Perm.refl _⟩

namespace FixedReference

variable {fixed : FixedReference} {sites others : List StyleSite}

theorem content?_perm (reordered : sites.Perm others) :
    fixed.content? sites = fixed.content? others := by
  have owners : ∀ file, (fixed.passReference.owners sites file).toFinset =
      (fixed.passReference.owners others file).toFinset := by
    intro file
    ext user
    rw [List.mem_toFinset, List.mem_toFinset, PassReference.mem_owners, PassReference.mem_owners]
    simp only [reordered.mem_iff]
  funext site
  unfold content?
  simp only [owners]

theorem Accounts.nodup_contents {artifacts : List Artifact} {problems : List Problem}
    (account : fixed.Accounts sites artifacts problems) :
    ((artifacts.filter Artifact.isExternal).map Artifact.content).Nodup := by
  apply List.Nodup.of_map SharedContent.file
  rw [List.map_map]
  exact account.distinct

theorem Accounts.sameHolders (reordered : sites.Perm others)
    {artifacts otherArtifacts : List Artifact} {problems otherProblems : List Problem}
    (account : fixed.Accounts sites artifacts problems)
    (otherAccount : fixed.Accounts others otherArtifacts otherProblems) :
    SameHolders artifacts otherArtifacts := by
  constructor
  · rw [account.inlined, otherAccount.inlined]
    exact reordered.filterMap _
  · rw [List.perm_ext_iff_of_nodup account.nodup_contents otherAccount.nodup_contents]
    intro content
    rw [account.shared, otherAccount.shared, content?_perm reordered]
    simp only [reordered.mem_iff]

end FixedReference

theorem collectApplication_reordered (settings : Settings) {compiler : StyleCompiler σ}
    {project : Project} {module : ModuleName} (version : SdkVersion)
    {reply : Document → SheetReply} {classes : List ComponentClass}
    (distinct : project.DistinctNames) (reordered : classes.Perm project.classes)
    (replied : compiler.RepliesBy module reply) (state : σ) (log : ProblemLog) :
    let collected := collectApplication settings compiler project module version state log
    let other := collectApplication settings compiler (project.withClasses classes) module version
      state log
    SameStyles collected.1 other.1 collected.2.2 other.2.2 := by
  intro collected other
  have bases := Project.baseClasses_withClasses distinct reordered settings module version
  by_cases noBase : project.baseClasses settings module version = []
  · have same : other = collected := by
      simp only [other, collected, collectApplication, bases, noBase, List.isEmpty_nil, if_true]
    rw [same]
    exact .refl collected.1 collected.2.2
  · have otherBased : (project.withClasses classes).baseClasses settings module version ≠ [] := by
      rw [bases]
      exact noBase
    obtain ⟨succeeds, gives⟩ := collectApplication_accounts settings replied noBase state log
    obtain ⟨otherSucceeds, otherGives⟩ :=
      collectApplication_accounts settings replied otherBased state log
    have components : (project.components module
        (project.baseClasses settings module version)).Perm
          ((project.withClasses classes).components module
            ((project.withClasses classes).baseClasses settings module version)) := by
      rw [bases]
      exact (Project.components_withClasses distinct reordered module fun _ inside =>
        mem_baseClasses inside).symm
    -- The documents are the same, so each class has the tags it had.
    have sites := components.flatMap_right (project.sitesOf settings.style)
    refine ⟨?_, ?_, ?_⟩
    · rw [succeeds, otherSucceeds]
      exact forall_congr' fun site => imp_congr_left sites.mem_iff
    · constructor
      · intro absent
        obtain ⟨_, _, impossible, _⟩ := gives none absent
        cases impossible
      · intro absent
        obtain ⟨_, _, impossible, _⟩ := otherGives none absent
        cases impossible
    · intro given otherGiven ok otherOk
      obtain ⟨artifacts, problems, same, told, account⟩ := gives given ok
      obtain ⟨otherArtifacts, otherProblems, otherSame, otherTold, otherAccount⟩ :=
        otherGives otherGiven otherOk
      rw [same, otherSame, told, otherTold, account.problems, otherAccount.problems]
      exact ⟨account.sameHolders sites otherAccount,
        (sites.filterMap _).append_left log.problems.toList⟩

/-- Whatever the order in which classes are declared, a pass over an application returns or does
not, succeeds or fails, and styles the same. -/
theorem collect_reordered (host : Host) (settings : Settings) {compiler : StyleCompiler σ}
    {module : ModuleName} {found : ComponentModule} (sdk : String) {reply : Document → SheetReply}
    {classes : List ComponentClass} (known : host.project.module? module = some found)
    (application : found.nature = .application) (distinct : host.project.DistinctNames)
    (reordered : classes.Perm host.project.classes) (replied : compiler.RepliesBy module reply)
    (state : σ) (log : ProblemLog) (thread : Nat) (events : List SourceEvent) :
    let other : Host := { host with project := host.project.withClasses classes }
    let first := host.collect settings compiler module sdk state log thread events
    let second := other.collect settings compiler module sdk state log thread events
    (first = none ↔ second = none) ∧
      ∀ outcome otherOutcome, first = some outcome → second = some otherOutcome →
        SameStyles outcome.result otherOutcome.result outcome.log otherOutcome.log := by
  intro other first second
  have consistent :
      let collected := collectConsistent settings compiler host.project module sdk state log
      let reordered := collectConsistent settings compiler other.project module sdk state log
      SameStyles collected.1 reordered.1 collected.2.2 reordered.2.2 := by
    have stillKnown : other.project.module? module = some found := known
    simp only [collectConsistent, Project.knownModule, known, stillKnown, application]
    cases SdkVersion.parse sdk with
    | error fault => exact .refl _ log
    | ok version =>
        exact collectApplication_reordered settings version distinct reordered replied state log
  refine ⟨host.collect_eq_none.trans other.collect_eq_none.symm, ?_⟩
  intro outcome otherOutcome collected otherCollected
  -- Both wait on the same signals, so either both pass or both fail for the same reason.
  rcases host.collect_cases collected with
    ⟨_, waited, _, answer⟩ | ⟨phase, waited, ended, heldUp, _, kept⟩
  · rcases other.collect_cases otherCollected with
      ⟨_, _, _, otherAnswer⟩ | ⟨_, otherWaited, otherEnded, _⟩
    · rw [← answer, ← otherAnswer] at consistent
      exact consistent
    · cases waited.symm.trans otherWaited
      exact absurd otherEnded (by decide)
  · rcases other.collect_cases otherCollected with
      ⟨_, otherWaited, _⟩ | ⟨otherPhase, otherWaited, _, otherHeldUp, _, otherKept⟩
    · cases waited.symm.trans otherWaited
      exact absurd ended (by decide)
    · have same : phase = otherPhase :=
        congrArg Prod.fst (Option.some.inj (waited.symm.trans otherWaited))
      rw [heldUp, otherHeldUp, same, kept, otherKept]
      exact .refl _ log

theorem visitedComponents_turnedPages :
    (twoPages.withClasses twoPages.classes.reverse).visitedComponents .standard ⟨"app"⟩ "3.6" =
      [{ name := applicationBase, module := ⟨"app"⟩, extends? := none, file := none },
        { name := ⟨"Second"⟩, module := ⟨"app"⟩, extends? := some applicationBase,
          file := some ⟨"src/Second.mxml"⟩ },
        { name := ⟨"First"⟩, module := ⟨"app"⟩, extends? := some applicationBase,
          file := some ⟨"src/First.mxml"⟩ }] := by
  cbv

/-- The theme of two pages has the same users, whichever page comes first. -/
theorem collect_turnedPages :
    let compiler := StyleCompiler.replying letterReply
    let page : Artifact := .inlined ⟨"src/First.mxml"⟩ [65, 123, 98, 58, 99, 125]
    let theme : FileId → FileId → Artifact := fun first second =>
      { file := ⟨"src/theme.css"⟩
        data := [66, 123, 100, 58, 101, 125]
        origin := .external first [second] }
    let turned := twoPages.withClasses twoPages.classes.reverse
    ∃ outcome other,
      (Host.ofProject twoPages).collect .standard compiler ⟨"app"⟩ "3.6" () .empty 0 [] =
          some outcome ∧
        outcome.result = .ok (some [page, theme ⟨"src/First.mxml"⟩ ⟨"src/Second.mxml"⟩]) ∧
        (Host.ofProject turned).collect .standard compiler ⟨"app"⟩ "3.6" () .empty 0 [] =
          some other ∧
        other.result = .ok (some [theme ⟨"src/Second.mxml"⟩ ⟨"src/First.mxml"⟩, page]) ∧
        SameStyles outcome.result other.result outcome.log other.log := by
  intro compiler page theme turned
  have parsed : SdkVersion.parse "3.6" = .ok ⟨3, "3.6"⟩ := rfl
  have visited : twoPages.visitedComponents .standard ⟨"app"⟩ "3.6" = twoPages.classes := by
    cbv
  obtain ⟨outcome, collected, result⟩ :=
    collect_visited compiler rfl rfl parsed visited (List.cons_ne_nil _ _) ()
  obtain ⟨other, otherCollected, otherResult⟩ :=
    collect_visited compiler rfl rfl parsed visitedComponents_turnedPages (List.cons_ne_nil _ _) ()
  have distinct : twoPages.DistinctNames := by decide
  have same := (collect_reordered (Host.ofProject twoPages) .standard "3.6" rfl rfl
    distinct twoPages.classes.reverse_perm
    (StyleCompiler.replying_repliesBy ⟨"app"⟩ letterReply) () .empty 0 []).2 outcome other
      collected otherCollected
  refine ⟨outcome, other, collected, ?_, otherCollected, ?_, same⟩
  · rw [result]
    decide +kernel
  · rw [otherResult]
    decide +kernel

end ComponentStyles
