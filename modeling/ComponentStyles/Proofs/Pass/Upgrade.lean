import Mathlib.Data.List.Flatten
import Mathlib.Data.List.Perm.Subperm
import ComponentStyles.Proofs.Pass.Account
import ComponentStyles.Proofs.Pass.Visits
import ComponentStyles.Proofs.Project.Descent

/-!
Passes for a newer version of the SDK.

A newer version has more base types, so there are more components and more tags.  With one reply
for each stylesheet nothing is lost: every artifact and every problem of the older version is
there again, though a stylesheet may have further users.
-/

namespace ComponentStyles

variable {σ : Type}

/-- Every artifact of a body is there as often, and every stylesheet of its own is there with all
its users. -/
structure Retains (old new : List Artifact) : Prop where
  inlined : ∀ artifact : Artifact, artifact.origin = .inlined →
    old.count artifact ≤ new.count artifact
  external : ∀ artifact ∈ old, artifact.isExternal = true →
    ∃ other ∈ new, other.isExternal = true ∧ other.file = artifact.file ∧
      other.data = artifact.data ∧ artifact.users ⊆ other.users

theorem count_filterMap_le {α β : Type} [DecidableEq β] {items others : List α}
    (fewer : items.Subperm others) (f : α → Option β) (value : β) :
    (items.filterMap f).count value ≤ (others.filterMap f).count value := by
  obtain ⟨chosen, reordered, within⟩ := fewer
  rw [← (reordered.filterMap f).count_eq]
  exact (within.filterMap f).count_le value

namespace FixedReference

variable {fixed : FixedReference} {sites others : List StyleSite} {old new : List Artifact}
  {problems otherProblems : List Problem}

theorem content?_mono (included : sites ⊆ others) {site : StyleSite} {content : SharedContent}
    (shown : fixed.content? sites site = some content) :
    ∃ other, fixed.content? others site = some other ∧ other.file = content.file ∧
      other.data = content.data ∧ content.users ⊆ other.users := by
  obtain ⟨sheet, data, asked, replied, same⟩ := content?_eq_some.mp shown
  refine ⟨_, content?_eq_some.mpr ⟨sheet, data, asked, replied, rfl⟩, ?_⟩
  rw [same]
  refine ⟨rfl, rfl, ?_⟩
  intro user among
  rw [List.mem_toFinset, PassReference.mem_owners] at among ⊢
  obtain ⟨owner, inside, refers⟩ := among
  exact ⟨owner, included inside, refers⟩

theorem Accounts.retains (fewer : sites.Subperm others)
    (account : fixed.Accounts sites old problems)
    (otherAccount : fixed.Accounts others new otherProblems) : Retains old new := by
  constructor
  · intro artifact inlined
    have counted : ∀ artifacts : List Artifact, artifacts.count artifact =
        (artifacts.filter (·.origin = .inlined)).count artifact := by
      intro artifacts
      symm
      apply List.count_filter
      exact decide_eq_true inlined
    rw [counted old, counted new, account.inlined, otherAccount.inlined]
    exact count_filterMap_le fewer fixed.inlined? artifact
  · intro artifact inside external
    have contained : artifact.content ∈ (old.filter Artifact.isExternal).map Artifact.content :=
      List.mem_map.mpr ⟨artifact, List.mem_filter.mpr ⟨inside, external⟩, rfl⟩
    obtain ⟨site, among, shown⟩ := (account.shared _).mp contained
    obtain ⟨content, otherShown, sameFile, sameData, users⟩ := content?_mono fewer.subset shown
    obtain ⟨other, filtered, same⟩ := List.mem_map.mp
      ((otherAccount.shared content).mpr ⟨site, fewer.subset among, otherShown⟩)
    obtain ⟨otherInside, otherExternal⟩ := List.mem_filter.mp filtered
    rw [← same] at sameFile sameData users
    refine ⟨other, otherInside, otherExternal, sameFile, sameData, ?_⟩
    intro user known
    exact List.mem_toFinset.mp (users (List.mem_toFinset.mpr known))

end FixedReference

theorem Project.styleSites_subperm (project : Project) (style : StyleTagSettings)
    {classes others : List ComponentClass} (fewer : classes.Subperm others) :
    (project.styleSites style classes).Subperm (project.styleSites style others) := by
  obtain ⟨chosen, reordered, within⟩ := fewer
  exact ⟨_, reordered.flatMap_right _, within.flatMap _⟩

/-- A newer version of the SDK keeps what an older one styles, and its problems. -/
theorem collect_newer (host : Host) (settings : Settings) {compiler : StyleCompiler σ}
    {module : ModuleName} {found : ComponentModule} {sdk newerSdk : String}
    {version newer : SdkVersion} {reply : Document → SheetReply} {state newerState : σ}
    {log : ProblemLog} {thread newerThread : Nat} {events newerEvents : List SourceEvent}
    {outcome newerOutcome : PassOutcome σ} {old : List Artifact} {given : Option (List Artifact)}
    (known : host.project.module? module = some found)
    (application : found.nature = .application) (distinct : host.project.DistinctNames)
    (replied : compiler.RepliesBy module reply) (parsed : SdkVersion.parse sdk = .ok version)
    (newerParsed : SdkVersion.parse newerSdk = .ok newer)
    (notOlder : version.major ≤ newer.major)
    (collected : host.collect settings compiler module sdk state log thread events = some outcome)
    (newerCollected : host.collect settings compiler module newerSdk newerState log newerThread
      newerEvents = some newerOutcome)
    (ok : outcome.result = .ok (some old)) (newerOk : newerOutcome.result = .ok given) :
    ∃ new, given = some new ∧ Retains old new ∧
      ∀ problem, outcome.log.problems.toList.count problem ≤
        newerOutcome.log.problems.toList.count problem := by
  obtain ⟨parsedAs, sameVersion, based, extracted⟩ := collectApplication_of_ok known application
    (Host.collectConsistent_of_ok collected ok)
  obtain ⟨newerParsedAs, sameNewer, newerExtracted⟩ := collectApplication_of_consistent known
    application (Host.collectConsistent_of_ok newerCollected newerOk)
  rw [parsed, Except.ok.injEq] at sameVersion
  rw [newerParsed, Except.ok.injEq] at sameNewer
  rw [← sameVersion] at based extracted
  rw [← sameNewer] at newerExtracted
  -- With the older bases there is one newer base at least, so the second answer is not absent.
  have bases := host.project.baseClasses_sublist settings module notOlder
  have newerBased : host.project.baseClasses settings module newer ≠ [] := by
    intro none
    rw [none] at bases
    exact based (List.sublist_nil.mp bases)
  obtain ⟨_, gives⟩ := collectApplication_accounts settings replied based state log
  obtain ⟨_, newerGives⟩ := collectApplication_accounts settings replied newerBased newerState log
  rw [extracted] at gives
  rw [newerExtracted] at newerGives
  obtain ⟨artifacts, problems, same, told, account⟩ := gives _ rfl
  obtain ⟨new, newerProblems, newerSame, newerTold, newerAccount⟩ := newerGives _ rfl
  cases same
  have components : (host.project.components module
      (host.project.baseClasses settings module version)).Subperm
        (host.project.components module (host.project.baseClasses settings module newer)) :=
    Project.components_subperm (fun _ inside => mem_baseClasses inside) distinct
      (fun _ inside => mem_baseClasses inside) bases.subset
  have fewer := host.project.styleSites_subperm settings.style components
  refine ⟨new, newerSame, account.retains fewer newerAccount, ?_⟩
  intro problem
  have more := count_filterMap_le fewer
    (host.project.fixedReference settings reply).problem? problem
  rw [told, newerTold, account.problems, newerAccount.problems, List.count_append,
    List.count_append]
  exact Nat.add_le_add_left more _

def sparkBase : ComponentClass :=
  { name := ⟨"spark.components.Application"⟩, module := ⟨"app"⟩, extends? := none, file := none }

def flexBase : ComponentClass :=
  { name := applicationBase, module := ⟨"app"⟩, extends? := none, file := none }

def pageClass (name : String) (base : ComponentClass) : ComponentClass :=
  { name := ⟨name⟩, module := ⟨"app"⟩, extends? := some base.name,
    file := some ⟨"src/" ++ name ++ ".mxml"⟩ }

def mixedPages : Project :=
  { twoPages with
    classes := [sparkBase, flexBase, pageClass "First" flexBase, pageClass "Second" sparkBase] }

theorem visitedComponents_mixedPages :
    mixedPages.visitedComponents .standard ⟨"app"⟩ "3.6" =
        [flexBase, pageClass "First" flexBase] ∧
      mixedPages.visitedComponents .standard ⟨"app"⟩ "4.6" =
        [sparkBase, pageClass "Second" sparkBase, flexBase, pageClass "First" flexBase] := by
  cbv

theorem collect_newer_mixedPages :
    let compiler := StyleCompiler.replying letterReply
    ∃ outcome newer old new,
      (Host.ofProject mixedPages).collect .standard compiler ⟨"app"⟩ "3.6" () .empty 0 [] =
          some outcome ∧
        outcome.result = .ok (some old) ∧
        (Host.ofProject mixedPages).collect .standard compiler ⟨"app"⟩ "4.6" () .empty 0 [] =
          some newer ∧
        newer.result = .ok (some new) ∧
        old.map Artifact.users = [[], [⟨"src/First.mxml"⟩]] ∧
        new.map Artifact.users = [[⟨"src/Second.mxml"⟩, ⟨"src/First.mxml"⟩], []] ∧
        Retains old new := by
  intro compiler
  obtain ⟨visited, newerVisited⟩ := visitedComponents_mixedPages
  have parsed : SdkVersion.parse "3.6" = .ok ⟨3, "3.6"⟩ := rfl
  have newerParsed : SdkVersion.parse "4.6" = .ok ⟨4, "4.6"⟩ := rfl
  obtain ⟨outcome, collected, result⟩ :=
    collect_visited compiler rfl rfl parsed visited (List.cons_ne_nil _ _) ()
  obtain ⟨newer, newerCollected, newerResult⟩ :=
    collect_visited compiler rfl rfl newerParsed newerVisited (List.cons_ne_nil _ _) ()
  have ok : outcome.result = .ok (some
      [.inlined ⟨"src/First.mxml"⟩ [65, 123, 98, 58, 99, 125],
        .external ⟨"src/theme.css"⟩ [66, 123, 100, 58, 101, 125] ⟨"src/First.mxml"⟩]) := by
    rw [result]
    decide +kernel
  have newerOk : newer.result = .ok (some
      [{ file := ⟨"src/theme.css"⟩
         data := [66, 123, 100, 58, 101, 125]
         origin := .external ⟨"src/Second.mxml"⟩ [⟨"src/First.mxml"⟩] },
        .inlined ⟨"src/First.mxml"⟩ [65, 123, 98, 58, 99, 125]]) := by
    rw [newerResult]
    decide +kernel
  have distinct : mixedPages.DistinctNames := by decide
  have replied := StyleCompiler.replying_repliesBy ⟨"app"⟩ letterReply
  obtain ⟨new, same, retains, _⟩ := collect_newer (Host.ofProject mixedPages) .standard rfl rfl
    distinct replied parsed newerParsed (by decide) collected newerCollected ok newerOk
  cases same
  exact ⟨outcome, newer, _, _, collected, ok, newerCollected, newerOk, rfl, rfl, retains⟩

end ComponentStyles
