import Mathlib
import ComponentStyles.Proofs.Pass.Collection
import ComponentStyles.Proofs.Pass.Coverage

/-!
What a pass makes when every stylesheet has one reply.

The order of the tags then decides the order of what is made and nothing else: which bodies become
artifacts, which stylesheets of their own do and with which users, and which tags have problems
follows from the tags as a collection.
-/

namespace ComponentStyles

variable {σ : Type}

/-- The compiler gives a stylesheet the same reply in every state. -/
def StyleCompiler.RepliesBy (compiler : StyleCompiler σ) (module : ModuleName)
    (reply : Document → SheetReply) : Prop :=
  ∀ (sheet : Document) (state : σ), (compiler.compile sheet module state).1 = reply sheet

def StyleCompiler.replying (reply : Document → SheetReply) : StyleCompiler Unit where
  compile sheet _ _ := (reply sheet, ())

theorem StyleCompiler.replying_repliesBy (module : ModuleName) (reply : Document → SheetReply) :
    (StyleCompiler.replying reply).RepliesBy module reply :=
  fun _ _ => rfl

def letterReply (sheet : Document) : SheetReply :=
  .ok (sheet.text.toList.map fun letter => UInt8.ofNat letter.toNat)

section Replies

variable {compiler : StyleCompiler σ} {module : ModuleName} {reply : Document → SheetReply}
  (replied : compiler.RepliesBy module reply)
include replied

theorem StyleCompiler.RepliesBy.judgesBy :
    compiler.JudgesBy module fun sheet => Verdict.of (reply sheet) := by
  intro sheet state
  rw [replied]

theorem StyleCompiler.RepliesBy.replies (asked : List (Option Document)) (state : σ) :
    (compiler.replies module asked state).1 = asked.map (Option.map reply) := by
  induction asked generalizing state with
  | nil => rfl
  | cons first rest inductionHypothesis =>
      have own : (compiler.reply module first state).1 = first.map reply := by
        cases first with
        | none => rfl
        | some sheet => exact congrArg some (replied sheet state)
      have later := inductionHypothesis (compiler.reply module first state).2
      rw [List.map_cons, ← own, ← later]
      rfl

end Replies

structure SharedContent where
  file : FileId
  data : List UInt8
  users : Finset FileId
  deriving DecidableEq

def Artifact.content (artifact : Artifact) : SharedContent :=
  { file := artifact.file, data := artifact.data, users := artifact.users.toFinset }

theorem Artifact.summary_injective : Function.Injective Artifact.summary := by
  intro left right same
  obtain ⟨leftFile, leftData, leftOrigin⟩ := left
  obtain ⟨rightFile, rightData, rightOrigin⟩ := right
  cases leftOrigin <;> cases rightOrigin <;>
    simp_all [Artifact.summary, ArtifactOrigin.kindName, Artifact.users, ArtifactOrigin.users]

theorem Artifact.kind_external {artifact : Artifact} :
    artifact.summary.kind = "external" ↔ artifact.isExternal = true :=
  ⟨ArtifactStore.summary_external, Artifact.kindName_of_isExternal⟩

def ArtifactSummary.content (summary : ArtifactSummary) : SharedContent :=
  { file := summary.file, data := summary.data, users := summary.users.toFinset }

theorem filter_map_summary {suits : Artifact → Bool} {kind : String}
    (suited : ∀ artifact : Artifact, artifact.summary.kind = kind ↔ suits artifact = true)
    (artifacts : List Artifact) :
    (artifacts.map Artifact.summary).filter (·.kind = kind) =
      (artifacts.filter suits).map Artifact.summary := by
  rw [List.filter_map]
  congr 1
  apply List.filter_congr
  intro artifact _inside
  rw [Function.comp_apply, Bool.eq_iff_iff, decide_eq_true_eq]
  exact suited artifact

theorem PassReference.mem_owners {reference : PassReference} {sites : List StyleSite}
    {identity user : FileId} :
    user ∈ reference.owners sites identity ↔
      ∃ site ∈ sites, reference.refersTo identity site = true ∧ site.document.file = user := by
  unfold owners
  rw [List.mem_eraseDups, List.mem_map]
  constructor
  · rintro ⟨site, filtered, same⟩
    obtain ⟨inside, refers⟩ := List.mem_filter.mp filtered
    exact ⟨site, inside, refers, same⟩
  · rintro ⟨site, inside, refers, same⟩
    exact ⟨site, List.mem_filter.mpr ⟨inside, refers⟩, same⟩

theorem earlier_subset {sites earlier : List StyleSite} {stop : StyleStop}
    (inside : stop ∈ stopsBehind earlier sites) : earlier ⊆ stop.earlier := by
  induction sites generalizing earlier with
  | nil => cases inside
  | cons site rest inductionHypothesis =>
      rcases List.mem_cons.mp inside with same | later
      · rw [same]
        exact List.Subset.refl earlier
      · intro other before
        exact inductionHypothesis later (List.mem_append_left [site] before)

theorem pairwise_stopsBehind (earlier sites : List StyleSite) :
    (stopsBehind earlier sites).Pairwise fun first later => first.site ∈ later.earlier := by
  induction sites generalizing earlier with
  | nil => exact List.Pairwise.nil
  | cons site rest inductionHypothesis =>
      refine List.Pairwise.cons ?_ (inductionHypothesis (earlier ++ [site]))
      intro stop inside
      exact earlier_subset inside (List.mem_append_right earlier (List.mem_singleton.mpr rfl))

theorem exists_first_stop {suits : StyleSite → Bool} {sites earlier : List StyleSite}
    (none : earlier.any suits = false) {site : StyleSite} (inside : site ∈ sites)
    (suited : suits site = true) :
    ∃ stop ∈ stopsBehind earlier sites,
      suits stop.site = true ∧ stop.earlier.any suits = false := by
  induction sites generalizing earlier with
  | nil => cases inside
  | cons first rest inductionHypothesis =>
      by_cases firstSuits : suits first = true
      · exact ⟨{ earlier, site := first }, List.mem_cons_self, firstSuits, none⟩
      · have stillNone : (earlier ++ [first]).any suits = false := by
          rw [List.any_append, none, Bool.false_or]
          simpa using firstSuits
        rcases List.mem_cons.mp inside with same | behind
        · rw [same] at suited
          exact absurd suited firstSuits
        · obtain ⟨stop, later, found⟩ := inductionHypothesis stillNone behind
          exact ⟨stop, List.mem_cons_of_mem _ later, found⟩

structure FixedReference where
  demand : StyleSite → SheetDemand
  reply : Document → SheetReply

namespace FixedReference

variable (fixed : FixedReference)

def passReference : PassReference :=
  { demand := fixed.demand, verdict := fun sheet => Verdict.of (fixed.reply sheet) }

theorem demand_passReference : fixed.passReference.demand = fixed.demand :=
  rfl

def inlined? (site : StyleSite) : Option Artifact :=
  match fixed.demand site with
  | .embedded sheet =>
      match fixed.reply sheet with
      | .ok data => some (.inlined (Project.hostingFile sheet) data)
      | .error _ => none
  | _ => none

def external? (sites : List StyleSite) (stop : StyleStop) : Option ArtifactSummary :=
  match fixed.demand stop.site with
  | .shared sheet =>
      match fixed.reply sheet with
      | .ok data =>
          if stop.earlier.any (fixed.passReference.refersTo sheet.file) = false then
            some
              { file := sheet.file
                kind := "external"
                data
                users := fixed.passReference.owners sites sheet.file }
          else none
      | .error _ => none
  | _ => none

def rejection? (site : StyleSite) (sheet : Document) : Option Problem :=
  match fixed.reply sheet with
  | .error (.stylesheet file reason) =>
      some (site.problem (site.invalid Message.notCompiledKey [file, reason]))
  | _ => none

def problem? (site : StyleSite) : Option Problem :=
  match fixed.demand site with
  | .unusable invalid => some (site.problem invalid)
  | .shared sheet => fixed.rejection? site sheet
  | .embedded sheet => fixed.rejection? site sheet
  | _ => none

def content? (sites : List StyleSite) (site : StyleSite) : Option SharedContent :=
  match fixed.demand site with
  | .shared sheet =>
      match fixed.reply sheet with
      | .ok data =>
          some
            { file := sheet.file
              data
              users := (fixed.passReference.owners sites sheet.file).toFinset }
      | .error _ => none
  | _ => none

def Identified : Prop :=
  ∀ ⦃site other : StyleSite⦄ ⦃sheet otherSheet : Document⦄, fixed.demand site = .shared sheet →
    fixed.demand other = .shared otherSheet → sheet.file = otherSheet.file → sheet = otherSheet

/-- Artifacts and problems are those of the tags. -/
structure Accounts (sites : List StyleSite) (artifacts : List Artifact)
    (problems : List Problem) : Prop where
  inlined : artifacts.filter (·.origin = .inlined) = sites.filterMap fixed.inlined?
  shared : ∀ content, content ∈ (artifacts.filter Artifact.isExternal).map Artifact.content ↔
    ∃ site ∈ sites, fixed.content? sites site = some content
  distinct : ((artifacts.filter Artifact.isExternal).map Artifact.file).Nodup
  problems : problems = sites.filterMap fixed.problem?

variable {fixed : FixedReference} {sites : List StyleSite} {stop : StyleStop}

theorem verdict_eq_compiles {sheet : Document} :
    fixed.passReference.verdict sheet = .compiles ↔ ∃ data, fixed.reply sheet = .ok data := by
  change Verdict.of (fixed.reply sheet) = .compiles ↔ _
  cases fixed.reply sheet with
  | ok data => exact iff_of_true rfl ⟨data, rfl⟩
  | error failure =>
      refine iff_of_false ?_ (by rintro ⟨_, ⟨⟩⟩)
      cases failure <;> exact fun impossible => nomatch impossible

theorem not_compiles_of_error {sheet : Document} {failure : HostFailure}
    (replied : fixed.reply sheet = .error failure) :
    fixed.passReference.verdict sheet ≠ .compiles := by
  rw [Ne, verdict_eq_compiles, replied]
  rintro ⟨_, ⟨⟩⟩

theorem artifact?_eq (sites : List StyleSite) (stop : StyleStop) :
    fixed.passReference.artifact? sites stop ((fixed.passReference.asked? stop).map fixed.reply) =
      ((fixed.inlined? stop.site).map Artifact.summary).or (fixed.external? sites stop) := by
  unfold PassReference.artifact? PassReference.asked? inlined? external?
  rw [fixed.demand_passReference]
  cases fixed.demand stop.site with
  | nothing => rfl
  | unusable invalid => rfl
  | broken failure => rfl
  | embedded sheet =>
      cases replied : fixed.reply sheet with
      | ok data =>
          have compiles := verdict_eq_compiles.mpr ⟨data, replied⟩
          simp only [compiles, if_true, Option.map_some, replied, dataOf, Option.some_or]
          rfl
      | error failure =>
          have fails := not_compiles_of_error replied
          simp only [fails, if_false, replied, Option.map_none, Option.none_or]
  | shared sheet =>
      cases replied : fixed.reply sheet with
      | ok data =>
          have compiles := verdict_eq_compiles.mpr ⟨data, replied⟩
          cases before : stop.earlier.any (fixed.passReference.refersTo sheet.file) with
          | true =>
              simp only [before, replied, Bool.true_eq_false, and_false, if_false]
              rfl
          | false =>
              simp only [before, replied, compiles, Bool.false_eq_true, and_false, and_self,
                if_true, if_false, Option.map_some, dataOf]
              rfl
      | error failure =>
          have fails := not_compiles_of_error replied
          simp only [fails, false_and, if_false, replied]
          rfl

theorem rejection?_eq {sheet : Document} (site : StyleSite) {asked : Option Document}
    (again : fixed.passReference.verdict sheet ≠ .compiles → asked = some sheet) :
    (if fixed.passReference.verdict sheet = .rejected then
        some (site.problem
          (site.invalid Message.notCompiledKey (rejectionOf (asked.map fixed.reply))))
      else none) = fixed.rejection? site sheet := by
  have judged : fixed.passReference.verdict sheet = Verdict.of (fixed.reply sheet) := rfl
  unfold rejection?
  cases replied : fixed.reply sheet with
  | ok data =>
      rw [judged, replied]
      rfl
  | error failure =>
      rw [again (not_compiles_of_error replied), judged, Option.map_some, replied]
      cases failure <;> rfl

theorem problem?_eq (stop : StyleStop) :
    fixed.passReference.problem? stop ((fixed.passReference.asked? stop).map fixed.reply) =
      fixed.problem? stop.site := by
  unfold PassReference.problem? problem?
  rw [fixed.demand_passReference]
  cases asked : fixed.demand stop.site with
  | nothing => rfl
  | unusable invalid => rfl
  | broken failure => rfl
  | embedded sheet =>
      refine rejection?_eq stop.site fun _ => ?_
      simp only [PassReference.asked?, demand_passReference, asked]
  | shared sheet =>
      refine rejection?_eq stop.site fun fails => ?_
      simp only [PassReference.asked?, demand_passReference, asked, fails, false_and, if_false]

/-! ### What all tags make -/

theorem filter_kinds (sites : List StyleSite) (stop : StyleStop) :
    let made := ((fixed.inlined? stop.site).map Artifact.summary).or (fixed.external? sites stop)
    made.filter (·.kind = "inline") = (fixed.inlined? stop.site).map Artifact.summary ∧
      made.filter (·.kind = "external") = fixed.external? sites stop := by
  unfold inlined? external?
  cases fixed.demand stop.site with
  | nothing => exact ⟨rfl, rfl⟩
  | unusable invalid => exact ⟨rfl, rfl⟩
  | broken failure => exact ⟨rfl, rfl⟩
  | embedded sheet =>
      cases replied : fixed.reply sheet with
      | ok data => simp only [replied]; exact ⟨rfl, rfl⟩
      | error failure => simp only [replied]; exact ⟨rfl, rfl⟩
  | shared sheet =>
      cases replied : fixed.reply sheet with
      | ok data => simp only [replied]; split <;> exact ⟨rfl, rfl⟩
      | error failure => simp only [replied]; exact ⟨rfl, rfl⟩

section Summaries

variable {artifacts : List Artifact}
  (summaries : artifacts.map Artifact.summary =
    fixed.passReference.artifacts sites
      ((fixed.passReference.requests [] sites).map (Option.map fixed.reply)))
include summaries

theorem filter_summaries (kind : String) :
    (artifacts.map Artifact.summary).filter (·.kind = kind) =
      (stopsBehind [] sites).filterMap fun stop =>
        (((fixed.inlined? stop.site).map Artifact.summary).or
          (fixed.external? sites stop)).filter (·.kind = kind) := by
  rw [summaries, PassReference.artifacts_of_reply, List.filter_filterMap]
  simp only [artifact?_eq]

theorem inlined_of_summaries :
    artifacts.filter (·.origin = .inlined) = sites.filterMap fixed.inlined? := by
  have kinds : ∀ artifact : Artifact, artifact.summary.kind = "inline" ↔
      decide (artifact.origin = .inlined) = true := by
    intro artifact
    rw [Artifact.kind_inline, decide_eq_true_eq]
  apply List.map_injective_iff.mpr Artifact.summary_injective
  have inline := fun stop => (fixed.filter_kinds sites stop).1
  rw [← filter_map_summary kinds, filter_summaries summaries]
  simp only [inline]
  conv_rhs => rw [← map_site_stopsBehind [] sites]
  rw [List.map_filterMap, List.filterMap_map]
  rfl

theorem external_of_summaries :
    (artifacts.filter Artifact.isExternal).map Artifact.summary =
      (stopsBehind [] sites).filterMap (fixed.external? sites) := by
  have external := fun stop => (fixed.filter_kinds sites stop).2
  rw [← filter_map_summary fun _ => Artifact.kind_external, filter_summaries summaries]
  simp only [external]

end Summaries

theorem external?_eq_some {summary : ArtifactSummary} :
    fixed.external? sites stop = some summary ↔
      ∃ sheet data, fixed.demand stop.site = .shared sheet ∧ fixed.reply sheet = .ok data ∧
        stop.earlier.any (fixed.passReference.refersTo sheet.file) = false ∧
        summary =
          { file := sheet.file
            kind := "external"
            data
            users := fixed.passReference.owners sites sheet.file } := by
  unfold external?
  constructor
  · intro made
    split at made
    · rename_i sheet asked
      split at made
      · rename_i data replied
        split at made
        · rename_i first
          exact ⟨sheet, data, asked, replied, first, (Option.some.inj made).symm⟩
        · cases made
      · cases made
    · cases made
  · rintro ⟨sheet, data, asked, replied, first, same⟩
    simp only [asked, replied, first, if_true, same]

theorem content?_eq_some {site : StyleSite} {content : SharedContent} :
    fixed.content? sites site = some content ↔
      ∃ sheet data, fixed.demand site = .shared sheet ∧ fixed.reply sheet = .ok data ∧
        content =
          { file := sheet.file
            data
            users := (fixed.passReference.owners sites sheet.file).toFinset } := by
  unfold content?
  constructor
  · intro made
    split at made
    · rename_i sheet asked
      split at made
      · rename_i data replied
        exact ⟨sheet, data, asked, replied, (Option.some.inj made).symm⟩
      · cases made
    · cases made
  · rintro ⟨sheet, data, asked, replied, same⟩
    simp only [asked, replied, same]

theorem refersTo_iff {site : StyleSite} {file : FileId} :
    fixed.passReference.refersTo file site = true ↔
      ∃ sheet, fixed.demand site = .shared sheet ∧ sheet.file = file := by
  unfold PassReference.refersTo
  rw [beq_iff_eq, demand_passReference]
  cases fixed.demand site <;> simp [SheetDemand.identity?]

theorem exists_external? (identified : fixed.Identified) {content : SharedContent} :
    (∃ stop ∈ stopsBehind [] sites, ∃ summary,
        fixed.external? sites stop = some summary ∧ summary.content = content) ↔
      ∃ site ∈ sites, fixed.content? sites site = some content := by
  constructor
  · rintro ⟨stop, stopped, summary, made, same⟩
    obtain ⟨sheet, data, asked, replied, _, shape⟩ := external?_eq_some.mp made
    refine ⟨stop.site, ?_, content?_eq_some.mpr ⟨sheet, data, asked, replied, ?_⟩⟩
    · rw [← map_site_stopsBehind [] sites]
      exact List.mem_map_of_mem stopped
    · rw [← same, shape]
      rfl
  · rintro ⟨site, inside, shown⟩
    obtain ⟨sheet, data, asked, replied, same⟩ := content?_eq_some.mp shown
    have none : [].any (fixed.passReference.refersTo sheet.file) = false := rfl
    obtain ⟨stop, stopped, refers, first⟩ :=
      exists_first_stop none inside (refersTo_iff.mpr ⟨sheet, asked, rfl⟩)
    -- The first tag may be another one, but what it refers to has the same file.
    obtain ⟨other, otherAsked, sameFile⟩ := refersTo_iff.mp refers
    rw [identified otherAsked asked sameFile] at otherAsked
    refine ⟨stop, stopped, _, external?_eq_some.mpr
      ⟨sheet, data, otherAsked, replied, first, rfl⟩, ?_⟩
    rw [same]
    rfl

theorem nodup_external? (sites : List StyleSite) :
    (((stopsBehind [] sites).filterMap (fixed.external? sites)).map
      ArtifactSummary.file).Nodup := by
  rw [List.Nodup, List.pairwise_map, List.pairwise_filterMap]
  -- A later tag of the same file has the earlier one in front, so it makes nothing.
  refine (pairwise_stopsBehind [] sites).imp ?_
  intro early late before first made second madeLate same
  obtain ⟨sheet, _, asked, _, _, shape⟩ := external?_eq_some.mp made
  obtain ⟨other, _, _, _, none, otherShape⟩ := external?_eq_some.mp madeLate
  rw [shape, otherShape] at same
  have refers := refersTo_iff.mpr ⟨sheet, asked, same⟩
  exact List.any_eq_false.mp none _ before refers

theorem accounts_of_summaries (identified : fixed.Identified) {artifacts : List Artifact}
    {replies : List (Option SheetReply)}
    (replied : replies = (fixed.passReference.requests [] sites).map (Option.map fixed.reply))
    (summaries : artifacts.map Artifact.summary = fixed.passReference.artifacts sites replies) :
    fixed.Accounts sites artifacts (fixed.passReference.problems [] sites replies) := by
  rw [replied] at summaries ⊢
  have external := external_of_summaries summaries
  refine ⟨inlined_of_summaries summaries, ?_, ?_, ?_⟩
  · intro content
    rw [← exists_external? identified]
    have contents : (artifacts.filter Artifact.isExternal).map Artifact.content =
        ((stopsBehind [] sites).filterMap (fixed.external? sites)).map ArtifactSummary.content := by
      rw [← external, List.map_map]
      rfl
    rw [contents, List.map_filterMap, List.mem_filterMap]
    simp only [Option.map_eq_some_iff]
  · have files := fixed.nodup_external? sites
    rw [← external, List.map_map] at files
    exact files
  · rw [PassReference.problems_of_reply]
    conv_rhs => rw [← map_site_stopsBehind [] sites]
    rw [List.filterMap_map]
    simp only [problem?_eq]
    rfl

end FixedReference

def Project.fixedReference (project : Project) (settings : Settings)
    (reply : Document → SheetReply) : FixedReference :=
  { demand := StyleSite.demand project settings.style.sourceAttribute, reply }

theorem Project.identified_fixedReference (project : Project) (settings : Settings)
    (reply : Document → SheetReply) : (project.fixedReference settings reply).Identified := by
  intro site other sheet otherSheet asked otherAsked sameFile
  have stored := StyleSite.document?_of_shared asked
  have otherStored := StyleSite.document?_of_shared otherAsked
  rw [sameFile, otherStored] at stored
  exact (Option.some.inj stored).symm

theorem collectApplication_accounts (settings : Settings) {compiler : StyleCompiler σ}
    {project : Project} {module : ModuleName} {version : SdkVersion}
    {reply : Document → SheetReply} (replied : compiler.RepliesBy module reply)
    (based : project.baseClasses settings module version ≠ []) (state : σ) (log : ProblemLog) :
    let sites := project.styleSites settings.style
      (project.components module (project.baseClasses settings module version))
    let fixed := project.fixedReference settings reply
    let collected := collectApplication settings compiler project module version state log
    ((∃ result, collected.1 = .ok result) ↔
        ∀ site ∈ sites, fixed.passReference.aborts site = false) ∧
      ∀ result, collected.1 = .ok result →
        ∃ artifacts problems, result = some artifacts ∧
          collected.2.2.problems.toList = log.problems.toList ++ problems ∧
          fixed.Accounts sites artifacts problems := by
  intro sites fixed collected
  obtain ⟨succeeds, gives⟩ :=
    collectApplication_reference settings compiler based replied.judgesBy state log
  refine ⟨succeeds, ?_⟩
  intro result ok
  obtain ⟨artifacts, same, summaries, problems, _⟩ := gives result ok
  have replies := replied.replies (fixed.passReference.requests [] sites) state
  exact ⟨artifacts, _, same, problems, FixedReference.accounts_of_summaries
    (project.identified_fixedReference settings reply) replies summaries⟩

end ComponentStyles
