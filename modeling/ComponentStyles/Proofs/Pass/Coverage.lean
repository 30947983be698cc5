import ComponentStyles.Proofs.Fixture.Project
import ComponentStyles.Proofs.Pass.Collection
import ComponentStyles.Proofs.Project.Search
import ComponentStyles.Proofs.Sheet.Recording

/-!
Which style tags a pass covers.

In a project read from a fixture, the style tags with rules in their bodies are told from the
documents alone.  The artifacts for such bodies are those of the components of the module, so a
class is covered exactly as far as the search takes it, or one with the same rules.
-/

namespace ComponentStyles

open ComponentStyles.Sheet

/-- A style tag of the markup document behind a class has no source attribute, and its body is a
stylesheet with the given rules. -/
structure Project.BodyRules (project : Project) (style : StyleTagSettings)
    (declared : ComponentClass) (site : StyleSite) (rules : List Css.Rule) : Prop where
  backed : ∃ file, declared.file = some file ∧ project.document? file = some site.document
  markup : site.document.kind = .markup
  tag : site.tag ∈ style.tagsOf site.document
  unsourced : site.tag.attribute? style.sourceAttribute = none
  body : ∃ text, site.tag.text = some text ∧ Text.isBlankText text = false ∧
    checkedRules text = .ok rules
  language : Project.isStyleLanguage site.tag.language = true

theorem child_of_mem_tagsOf {style : StyleTagSettings} {document : Document} {tag : Element}
    (inside : tag ∈ style.tagsOf document) :
    ∃ root, document.root = some root ∧ tag ∈ root.children := by
  unfold StyleTagSettings.tagsOf at inside
  cases rooted : document.root with
  | none =>
      rw [rooted] at inside
      cases inside
  | some root =>
      rw [rooted] at inside
      exact ⟨root, rfl, (List.mem_filter.mp inside).1⟩

theorem Project.backingDocument?_eq_some {project : Project} {declared : ComponentClass}
    {document : Document} :
    project.backingDocument? declared = some document ↔
      ∃ file, declared.file = some file ∧ project.document? file = some document ∧
        ∃ root, document.root = some root ∧ document.kind = .markup ∧ root.children ≠ [] := by
  unfold backingDocument?
  constructor
  · intro backed
    obtain ⟨file, filed, backed⟩ := Option.bind_eq_some_iff.mp backed
    obtain ⟨stored, found, backed⟩ := Option.bind_eq_some_iff.mp backed
    obtain ⟨root, rooted, backed⟩ := Option.bind_eq_some_iff.mp backed
    split at backed
    · rename_i suitable
      cases backed
      rw [Bool.and_eq_true, beq_iff_eq, Bool.not_eq_true', List.isEmpty_eq_false_iff] at suitable
      exact ⟨file, filed, found, root, rooted, suitable.1, suitable.2⟩
    · cases backed
  · rintro ⟨file, filed, found, root, rooted, markup, children⟩
    have suitable : (document.kind == .markup && !root.children.isEmpty) = true := by
      rw [Bool.and_eq_true, beq_iff_eq, Bool.not_eq_true', List.isEmpty_eq_false_iff]
      exact ⟨markup, children⟩
    simp only [filed, found, rooted, suitable, Option.bind_eq_bind, Option.bind_some, if_true]

theorem Project.mem_sitesOf {project : Project} {style : StyleTagSettings}
    {declared : ComponentClass} {site : StyleSite} :
    site ∈ project.sitesOf style declared ↔
      (∃ file, declared.file = some file ∧ project.document? file = some site.document) ∧
        site.document.kind = .markup ∧ site.tag ∈ style.tagsOf site.document := by
  unfold sitesOf
  constructor
  · intro inside
    cases backed : project.backingDocument? declared with
    | none =>
        rw [backed] at inside
        cases inside
    | some document =>
        rw [backed] at inside
        obtain ⟨tag, tagged, same⟩ := List.mem_map.mp inside
        rw [← same]
        obtain ⟨file, filed, found, _, _, markup, _⟩ := backingDocument?_eq_some.mp backed
        exact ⟨⟨file, filed, found⟩, markup, tagged⟩
  · rintro ⟨⟨file, filed, found⟩, markup, tagged⟩
    obtain ⟨root, rooted, child⟩ := child_of_mem_tagsOf tagged
    have backed : project.backingDocument? declared = some site.document :=
      backingDocument?_eq_some.mpr
        ⟨file, filed, found, root, rooted, markup, List.ne_nil_of_mem child⟩
    rw [backed]
    exact List.mem_map.mpr ⟨site.tag, tagged, rfl⟩

def StyleSite.host (site : StyleSite) : InjectionHost :=
  { file := site.document.file, element := site.tag.id }

def StyleSite.bodySheet (site : StyleSite) (text : String) : Document :=
  .stylesheet (Project.fragmentFile site.host) text

section Bodies

variable {fixture : Fixture} {style : StyleTagSettings} {site : StyleSite}

theorem injectionHost?_eq (stored : fixture.project.overrides = []) :
    fixture.project.injectionHost? site.document site.tag =
      match site.tag.text with
      | none => none
      | some text =>
          if Text.isBlankText text = true then none
          else some site.host := by
  unfold Project.injectionHost?
  rw [stored]
  cases site.tag.text with
  | none => rfl
  | some text =>
      cases blank : Text.isBlankText text with
      | true => simp [blank]
      | false => simp [blank, StyleSite.host]

theorem injectedFragments_eq {file : FileId}
    (stored : fixture.project.document? file = some site.document)
    (inside : site.tag ∈ style.tagsOf site.document) {text : String}
    (written : site.tag.text = some text) :
    fixture.project.injectedFragments site.host =
      [{ document := .ofKind
           (if Project.isStyleLanguage site.tag.language = true then .stylesheet else .other)
           (Project.fragmentFile site.host) none text
         shreds := [{ host := site.host, start := 0, stop := text.utf8ByteSize }] }] := by
  obtain ⟨root, rooted, child⟩ := child_of_mem_tagsOf inside
  have same : site.document.file = file := Project.file_of_document? stored
  have found : fixture.project.document? site.host.file = some site.document := by
    rw [← stored, ← same]
    rfl
  have numbered : site.document.element? site.host.element = some site.tag :=
    Fixture.element?_child stored rooted child
  have own : fixture.project.fragmentOf? site.host =
      some (Project.bodyFragment site.host site.tag.language text) :=
    Project.fragmentOf?_eq_some.mpr ⟨site.document, site.tag, text, found, numbered, written, rfl⟩
  rw [Project.injectedFragments_plain fixture.project_overrides, own]
  rfl

theorem demand_of_body {file : FileId}
    (stored : fixture.project.document? file = some site.document)
    (inside : site.tag ∈ style.tagsOf site.document)
    (unsourced : site.tag.attribute? style.sourceAttribute = none) :
    site.demand fixture.project style.sourceAttribute =
      match site.tag.text with
      | none => .nothing
      | some text =>
          if Text.isBlankText text = true then .nothing
          else if Project.isStyleLanguage site.tag.language = true then
            .embedded (site.bodySheet text)
          else .nothing := by
  unfold StyleSite.demand Attachment.of
  rw [unsourced, injectionHost?_eq fixture.project_overrides]
  cases written : site.tag.text with
  | none => rfl
  | some text =>
      cases blank : Text.isBlankText text with
      | true => simp only [blank, if_true]
      | false =>
          have fragments := injectedFragments_eq stored inside written
          simp only [blank, Bool.false_eq_true, if_false, StyleSite.injectionDemand, fragments,
            List.map_cons, List.map_nil, if_true]
          cases Project.isStyleLanguage site.tag.language <;> rfl

theorem unsourced_of_embedded {project : Project} {sheet : Document}
    (asked : site.demand project style.sourceAttribute = .embedded sheet) :
    site.tag.attribute? style.sourceAttribute = none := by
  obtain ⟨hosting, attached, _⟩ := StyleSite.injectionDemand_of_demand asked rfl
  unfold Attachment.of at attached
  split at attached
  · cases attached
  · cases attached
  · rename_i unsourced
    exact unsourced

/-- A tag hosts a stylesheet that compiles exactly if its body has rules. -/
theorem bodyRules_iff {declared : ComponentClass}
    (inside : site ∈ fixture.project.sitesOf style declared) (rules : List Css.Rule) :
    (∃ sheet, site.demand fixture.project style.sourceAttribute = .embedded sheet ∧
        checkedRules sheet.text = .ok rules) ↔
      fixture.project.BodyRules style declared site rules := by
  obtain ⟨⟨file, filed, stored⟩, markup, tagged⟩ := Project.mem_sitesOf.mp inside
  constructor
  · rintro ⟨sheet, asked, checked⟩
    have unsourced := unsourced_of_embedded asked
    rw [demand_of_body stored tagged unsourced] at asked
    cases written : site.tag.text with
    | none => simp only [written, reduceCtorEq] at asked
    | some text =>
        simp only [written] at asked
        split at asked
        · cases asked
        · rename_i filled
          split at asked
          · rename_i language
            cases asked
            exact ⟨⟨file, filed, stored⟩, markup, tagged, unsourced,
              ⟨text, written, Bool.eq_false_iff.mpr filled, checked⟩, language⟩
          · cases asked
  · intro body
    obtain ⟨text, written, filled, checked⟩ := body.body
    refine ⟨site.bodySheet text, ?_, checked⟩
    rw [demand_of_body stored tagged body.unsourced, written]
    simp only [filled, Bool.false_eq_true, if_false, body.language, if_true]

end Bodies

theorem sheetCompiler_reply_grows (module : ModuleName) (asked : Option Document) (sinks : Sinks) :
    sinks.strings.IncludedIn (sheetCompiler.reply module asked sinks).2.strings := by
  cases asked with
  | none => exact StringTable.IncludedIn.refl sinks.strings
  | some sheet => exact records_sheet.grows (sheet, module) sinks

theorem sheetCompiler_replies_grow (module : ModuleName) (asked : List (Option Document))
    (sinks : Sinks) :
    sinks.strings.IncludedIn (sheetCompiler.replies module asked sinks).2.strings := by
  induction asked generalizing sinks with
  | nil => exact StringTable.IncludedIn.refl sinks.strings
  | cons first rest inductionHypothesis =>
      have grown := sheetCompiler_reply_grows module first sinks
      exact grown.trans (inductionHypothesis (sheetCompiler.reply module first sinks).2)

theorem sheetCompiler_replies_eq (module : ModuleName) (asked : List (Option Document))
    (sinks : Sinks) (later : StringTable)
    (included : (sheetCompiler.replies module asked sinks).2.strings.IncludedIn later) :
    (sheetCompiler.replies module asked sinks).1 = asked.map (Option.map later.replyOf) := by
  induction asked generalizing sinks with
  | nil => rfl
  | cons first rest inductionHypothesis =>
      have others := inductionHypothesis (sheetCompiler.reply module first sinks).2 included
      -- The later replies only add strings, so the first one means the same in the last table.
      have firstIncluded := (sheetCompiler_replies_grow module rest
        (sheetCompiler.reply module first sinks).2).trans included
      have reply : (sheetCompiler.reply module first sinks).1 = first.map later.replyOf := by
        cases first with
        | none => rfl
        | some sheet =>
            exact congrArg some (records_sheet.encodes (sheet, module) sinks later firstIncluded).1
      rw [List.map_cons, ← others, ← reply]
      rfl

theorem sheetCompiler_replies_final (module : ModuleName) (asked : List (Option Document))
    (sinks : Sinks) :
    (sheetCompiler.replies module asked sinks).1 =
      asked.map (Option.map (sheetCompiler.replies module asked sinks).2.strings.replyOf) :=
  sheetCompiler_replies_eq module asked sinks _ (StringTable.IncludedIn.refl _)

theorem sheetVerdict_eq_compiles {sheet : Document} :
    sheetVerdict sheet = .compiles ↔ ∃ rules, checkedRules sheet.text = .ok rules := by
  unfold sheetVerdict
  cases checkedRules sheet.text with
  | ok rules => exact iff_of_true rfl ⟨rules, rfl⟩
  | error fault =>
      refine iff_of_false ?_ ?_
      · intro impossible
        cases impossible
      · rintro ⟨rules, impossible⟩
        cases impossible

theorem PassReference.artifact?_embedded {reference : PassReference}
    (judged : reference.verdict = sheetVerdict) {stop : StyleStop} {sheet : Document}
    (asked : reference.demand stop.site = .embedded sheet) {rules : List Css.Rule}
    (checked : checkedRules sheet.text = .ok rules) (sites : List StyleSite)
    (table : StringTable) :
    reference.artifact? sites stop ((reference.asked? stop).map table.replyOf) =
      some
        { file := Project.hostingFile sheet
          kind := "inline"
          data := table.bytesOf rules
          users := [] } := by
  have compiles : reference.verdict sheet = .compiles := by
    rw [judged]
    exact sheetVerdict_eq_compiles.mpr ⟨rules, checked⟩
  have reply : table.replyOf sheet = .ok (table.bytesOf rules) := by
    rw [StringTable.replyOf, checked]
  simp only [artifact?, asked?, asked, compiles, if_true, Option.map_some, reply, dataOf]

theorem PassReference.embedded_of_artifact? {reference : PassReference} {stop : StyleStop}
    {sites : List StyleSite} {reply : Option SheetReply} {summary : ArtifactSummary}
    (made : reference.artifact? sites stop reply = some summary)
    (inlined : summary.kind = "inline") :
    ∃ sheet, reference.demand stop.site = .embedded sheet ∧
      reference.verdict sheet = .compiles := by
  unfold artifact? at made
  cases asked : reference.demand stop.site with
  | embedded sheet =>
      simp only [asked] at made
      split at made
      · rename_i compiles
        exact ⟨sheet, rfl, compiles⟩
      · cases made
  | shared sheet =>
      simp only [asked] at made
      split at made
      · cases made
        have different : "external" = "inline" := inlined
        exact absurd different (by decide)
      · cases made
  | nothing => simp only [asked, reduceCtorEq] at made
  | unusable invalid => simp only [asked, reduceCtorEq] at made
  | broken failure => simp only [asked, reduceCtorEq] at made

/-- The artifacts for bodies are those of the tags whose bodies compile. -/
theorem PassReference.mem_artifacts_inline (reference : PassReference)
    (judged : reference.verdict = sheetVerdict) (sites : List StyleSite) (table : StringTable)
    (data : List UInt8) :
    (∃ summary ∈ reference.artifacts sites
        ((reference.requests [] sites).map (Option.map table.replyOf)),
      summary.kind = "inline" ∧ summary.data = data) ↔
      ∃ site ∈ sites, ∃ sheet, reference.demand site = .embedded sheet ∧
        ∃ rules, checkedRules sheet.text = .ok rules ∧ data = table.bytesOf rules := by
  rw [reference.artifacts_of_reply]
  constructor
  · rintro ⟨summary, inside, inlined, same⟩
    obtain ⟨stop, stopped, made⟩ := List.mem_filterMap.mp inside
    have site : stop.site ∈ sites := by
      rw [← map_site_stopsBehind [] sites]
      exact List.mem_map.mpr ⟨stop, stopped, rfl⟩
    obtain ⟨sheet, asked, compiles⟩ := embedded_of_artifact? made inlined
    rw [judged] at compiles
    obtain ⟨rules, checked⟩ := sheetVerdict_eq_compiles.mp compiles
    rw [artifact?_embedded judged asked checked, Option.some.injEq] at made
    refine ⟨stop.site, site, sheet, asked, rules, checked, ?_⟩
    rw [← same, ← made]
  · rintro ⟨site, inside, sheet, asked, rules, checked, same⟩
    rw [← map_site_stopsBehind [] sites] at inside
    obtain ⟨stop, stopped, sameSite⟩ := List.mem_map.mp inside
    rw [← sameSite] at asked
    have made := artifact?_embedded judged asked checked sites table
    exact ⟨_, List.mem_filterMap.mpr ⟨stop, stopped, made⟩, rfl, same.symm⟩

theorem Host.collectConsistent_of_ok {σ : Type} {host : Host} {settings : Settings}
    {compiler : StyleCompiler σ} {module : ModuleName} {sdk : String} {state : σ}
    {log : ProblemLog} {thread : Nat} {events : List SourceEvent} {outcome : PassOutcome σ}
    {result : Option (List Artifact)}
    (collected : host.collect settings compiler module sdk state log thread events = some outcome)
    (ok : outcome.result = .ok result) :
    collectConsistent settings compiler host.project module sdk state log =
      (.ok result, outcome.compilerState, outcome.log) := by
  unfold Host.collect at collected
  split at collected
  · cases collected
  · cases collected
    exact Prod.ext ok rfl
  · cases collected
    cases ok

theorem collectApplication_of_consistent {σ : Type} {settings : Settings}
    {compiler : StyleCompiler σ} {project : Project} {module : ModuleName}
    {found : ComponentModule} {sdk : String} {state after : σ} {log told : ProblemLog}
    {result : Option (List Artifact)} (known : project.module? module = some found)
    (application : found.nature = .application)
    (collected : collectConsistent settings compiler project module sdk state log =
      (.ok result, after, told)) :
    ∃ version, SdkVersion.parse sdk = .ok version ∧
      collectApplication settings compiler project module version state log =
        (.ok result, after, told) := by
  unfold collectConsistent at collected
  simp only [Project.knownModule, known, application] at collected
  cases parsed : SdkVersion.parse sdk with
  | error fault =>
      rw [parsed] at collected
      cases collected
  | ok version =>
      rw [parsed] at collected
      exact ⟨version, rfl, collected⟩

theorem collectApplication_of_ok {σ : Type} {settings : Settings} {compiler : StyleCompiler σ}
    {project : Project} {module : ModuleName} {found : ComponentModule} {sdk : String}
    {state after : σ} {log told : ProblemLog} {artifacts : List Artifact}
    (known : project.module? module = some found) (application : found.nature = .application)
    (collected : collectConsistent settings compiler project module sdk state log =
      (.ok (some artifacts), after, told)) :
    ∃ version, SdkVersion.parse sdk = .ok version ∧
      project.baseClasses settings module version ≠ [] ∧
      collectApplication settings compiler project module version state log =
        (.ok (some artifacts), after, told) := by
  obtain ⟨version, parsed, extracted⟩ :=
    collectApplication_of_consistent known application collected
  refine ⟨version, parsed, ?_, extracted⟩
  intro noBase
  simp only [collectApplication, noBase, List.isEmpty_nil, if_true] at extracted
  cases extracted

/-! ### Coverage -/

/-- The class is the one taken for its name under the first base that takes a class of the
module for it. -/
def Project.Takes (project : Project) (module : ModuleName) (bases : List ComponentClass)
    (declared : ComponentClass) : Prop :=
  bases.findSome? (fun base =>
    (project.taken? base declared.name).filter (·.module == module)) = some declared

theorem mem_baseClasses {project : Project} {settings : Settings} {module : ModuleName}
    {version : SdkVersion} {base : ComponentClass}
    (inside : base ∈ project.baseClasses settings module version) : base ∈ project.classes := by
  obtain ⟨_, _, found⟩ := List.mem_filterMap.mp inside
  exact List.mem_of_find?_eq_some found

theorem Project.takes_iff {project : Project} {module : ModuleName} {bases : List ComponentClass}
    {declared : ComponentClass} :
    project.Takes module bases declared ↔ declared ∈ project.components module bases :=
  (project.mem_components module bases declared).symm

theorem Artifact.kind_inline {artifact : Artifact} :
    artifact.summary.kind = "inline" ↔ artifact.origin = .inlined := by
  cases artifact with
  | mk file data origin => cases origin <;> simp [Artifact.summary, ArtifactOrigin.kindName]

theorem exists_inlined_summary {artifacts : List Artifact} {data : List UInt8} :
    (∃ summary ∈ artifacts.map Artifact.summary,
        summary.kind = "inline" ∧ summary.data = data) ↔
      ∃ artifact ∈ artifacts, artifact.origin = .inlined ∧ artifact.data = data := by
  constructor
  · rintro ⟨summary, inside, inlined, same⟩
    obtain ⟨artifact, among, equal⟩ := List.mem_map.mp inside
    rw [← equal] at inlined same
    exact ⟨artifact, among, Artifact.kind_inline.mp inlined, same⟩
  · rintro ⟨artifact, among, inlined, same⟩
    exact ⟨artifact.summary, List.mem_map.mpr ⟨artifact, among, rfl⟩,
      Artifact.kind_inline.mpr inlined, same⟩

/-- The artifacts for bodies that a pass gives are those of the tags of its components. -/
theorem inlined_iff_component {fixture : Fixture} {settings : Settings} {module : ModuleName}
    {version : SdkVersion} {sinks after : Sinks} {log told : ProblemLog}
    {artifacts : List Artifact}
    (based : fixture.project.baseClasses settings module version ≠ [])
    (collected : collectApplication settings sheetCompiler fixture.project module version sinks
      log = (.ok (some artifacts), after, told)) (data : List UInt8) :
    (∃ artifact ∈ artifacts, artifact.origin = .inlined ∧ artifact.data = data) ↔
      ∃ declared ∈ fixture.project.components module
          (fixture.project.baseClasses settings module version),
        ∃ site rules, fixture.project.BodyRules settings.style declared site rules ∧
          data = after.strings.bytesOf rules := by
  obtain ⟨_, gives⟩ := collectApplication_reference settings sheetCompiler based
    (sheetCompiler_judgesBy module) sinks log
  have succeeded : (collectApplication settings sheetCompiler fixture.project module version sinks
      log).1 = .ok (some artifacts) := by
    rw [collected]
  obtain ⟨_, same, summaries, _, final⟩ := gives (some artifacts) succeeded
  cases same
  rw [collected] at final
  rw [sheetCompiler_replies_final, ← final] at summaries
  rw [← exists_inlined_summary, summaries, PassReference.mem_artifacts_inline _ rfl]
  constructor
  · rintro ⟨site, inside, sheet, asked, rules, checked, written⟩
    obtain ⟨declared, component, among⟩ := List.mem_flatMap.mp inside
    have body := (bodyRules_iff among rules).mp ⟨sheet, asked, checked⟩
    exact ⟨declared, component, site, rules, body, written⟩
  · rintro ⟨declared, component, site, rules, body, written⟩
    have among : site ∈ fixture.project.sitesOf settings.style declared :=
      Project.mem_sitesOf.mpr ⟨body.backed, body.markup, body.tag⟩
    obtain ⟨sheet, asked, checked⟩ := (bodyRules_iff among rules).mpr body
    exact ⟨site, List.mem_flatMap.mpr ⟨declared, component, among⟩, sheet, asked, rules, checked,
      written⟩

/-- A pass over a project read from a fixture covers a stylesheet in the body of a tag exactly if
a class with such a tag is taken for its name.  A class of the module that leads to a base is, if
no other declared class has its name. -/
theorem inlined_iff_taken (fixture : Fixture) (host : Host) (settings : Settings)
    {module : ModuleName} {found : ComponentModule} {sdk : String} {sinks : Sinks}
    {log : ProblemLog} {thread : Nat} {events : List SourceEvent} {outcome : PassOutcome Sinks}
    {artifacts : List Artifact} (described : host.project = fixture.project)
    (known : host.project.module? module = some found)
    (application : found.nature = .application)
    (collected : host.collect settings sheetCompiler module sdk sinks log thread events =
      some outcome)
    (ok : outcome.result = .ok (some artifacts)) :
    ∃ version, SdkVersion.parse sdk = .ok version ∧
      let project := fixture.project
      let bases := project.baseClasses settings module version
      let table := outcome.compilerState.strings
      ∀ (declared : ComponentClass) (site : StyleSite) (rules : List Css.Rule),
        project.BodyRules settings.style declared site rules →
        ((∃ artifact ∈ artifacts,
            artifact.origin = .inlined ∧ artifact.data = table.bytesOf rules) ↔
          ∃ other otherSite otherRules,
            project.Takes module bases other ∧
            project.BodyRules settings.style other otherSite otherRules ∧
            table.bytesOf otherRules = table.bytesOf rules) ∧
        (declared.module = module →
          (∃ base ∈ bases, project.LeadsTo base.name declared.name) →
          (∀ other ∈ fixture.classes, other.name = declared.name → other = declared) →
          ∃ artifact ∈ artifacts,
            artifact.origin = .inlined ∧ artifact.data = table.bytesOf rules) := by
  have consistent := Host.collectConsistent_of_ok collected ok
  rw [described] at consistent known
  obtain ⟨version, parsed, based, extracted⟩ :=
    collectApplication_of_ok known application consistent
  have covered := inlined_iff_component based extracted
  refine ⟨version, parsed, ?_⟩
  intro project bases table declared site rules body
  constructor
  · rw [covered]
    constructor
    · rintro ⟨other, component, otherSite, otherRules, otherBody, same⟩
      exact ⟨other, otherSite, otherRules, Project.takes_iff.mpr component, otherBody, same.symm⟩
    · rintro ⟨other, otherSite, otherRules, taken, otherBody, same⟩
      exact ⟨other, Project.takes_iff.mp taken, otherSite, otherRules, otherBody, same.symm⟩
  · rintro belongs ⟨base, among, leads⟩ unique
    rw [← fixture.project_classes] at unique
    have component : declared ∈ project.components module bases :=
      Project.mem_components_of_unique (fun _ inside => mem_baseClasses inside) belongs among leads
        unique
    rw [covered]
    exact ⟨declared, component, site, rules, body, rfl⟩

def dependentModule : ComponentModule :=
  { nature := .application, sourceRoots := [], dependencies := [⟨"lib"⟩] }

def libraryNamesake : ComponentClass :=
  { name := ⟨"Panel"⟩, module := ⟨"lib"⟩, extends? := some applicationBase, file := none }

def ownNamesake : ComponentClass :=
  { name := ⟨"Panel"⟩, module := ⟨"app"⟩, extends? := some applicationBase,
    file := some ⟨"src/Panel.mxml"⟩ }

def panelPage : Element :=
  pageOf [styleTag [] (some "A{b:c}")]

def namesakes (inheritors : List ComponentClass) : Fixture :=
  { modules :=
      [{ name := ⟨"app"⟩, nature := .application, sourceRoots := [], dependencies := [⟨"lib"⟩] },
        { name := ⟨"lib"⟩, nature := .library, sourceRoots := [], dependencies := [] }]
    documents :=
      [{ file := ⟨"src/Panel.mxml"⟩, kind := .markup, root := some panelPage, text := "" }]
    classes :=
      { name := applicationBase, module := ⟨"lib"⟩, extends? := none, file := none } ::
        inheritors }

def panelSite : StyleSite :=
  { document := .markup ⟨"src/Panel.mxml"⟩ (some panelPage)
    tag := { styleTag [] (some "A{b:c}") with id := 1 } }

def panelRules : List Css.Rule :=
  [{ condition := none, selector := "A", declarations := [{ name := "b", value := "c" }] }]

theorem bodyRules_ownNamesake (inheritors : List ComponentClass) :
    (namesakes inheritors).project.BodyRules .standard ownNamesake panelSite panelRules := by
  refine ⟨⟨⟨"src/Panel.mxml"⟩, rfl, rfl⟩, rfl, ?_, rfl, ⟨"A{b:c}", rfl, ?_, ?_⟩, rfl⟩
  · exact List.mem_singleton.mpr rfl
  · decide +kernel
  · decide +kernel

theorem collectApplication_of_no_components {settings : Settings} {project : Project}
    {module : ModuleName} {version : SdkVersion}
    (based : project.baseClasses settings module version ≠ [])
    (none : project.components module (project.baseClasses settings module version) = [])
    (sinks : Sinks) (log : ProblemLog) :
    collectApplication settings sheetCompiler project module version sinks log =
      (.ok (some []), sinks, log) := by
  have notEmpty : (project.baseClasses settings module version).isEmpty = false :=
    List.isEmpty_eq_false_iff.mpr based
  simp only [collectApplication, notEmpty, Bool.false_eq_true, if_false, none,
    ResolutionContext.extractAll]
  rfl

theorem baseClasses_namesakes (first second : ComponentClass)
    (order : (first = libraryNamesake ∧ second = ownNamesake) ∨
      (first = ownNamesake ∧ second = libraryNamesake)) :
    (namesakes [first, second]).project.baseClasses .standard ⟨"app"⟩ ⟨4, "4.6"⟩ =
      [{ name := applicationBase, module := ⟨"lib"⟩, extends? := none, file := none }] := by
  rcases order with ⟨firstIs, secondIs⟩ | ⟨firstIs, secondIs⟩
  · rw [firstIs, secondIs]
    cbv
  · rw [firstIs, secondIs]
    cbv

/-- A library class in front of the application's own class of the same name hides it. -/
theorem namesake_lost :
    let fixture := namesakes [libraryNamesake, ownNamesake]
    fixture.checked = .ok fixture ∧
      (∃ outcome,
        (Host.ofProject fixture.project).collect .standard sheetCompiler ⟨"app"⟩ "4.6" .empty .empty
            0 [] = some outcome ∧
          outcome.result = .ok (some [])) ∧
      ownNamesake ∈ fixture.classes ∧ ownNamesake.module = ⟨"app"⟩ ∧
      ownNamesake.extends? = some applicationBase ∧
      applicationBase ∈
        (fixture.project.baseClasses .standard ⟨"app"⟩ ⟨4, "4.6"⟩).map ComponentClass.name ∧
      fixture.project.BodyRules .standard ownNamesake panelSite panelRules := by
  intro fixture
  have bases := baseClasses_namesakes _ _ (Or.inl ⟨rfl, rfl⟩)
  have based : fixture.project.baseClasses .standard ⟨"app"⟩ ⟨4, "4.6"⟩ ≠ [] := by
    rw [bases]
    exact List.cons_ne_nil _ _
  have none : fixture.project.components ⟨"app"⟩
      (fixture.project.baseClasses .standard ⟨"app"⟩ ⟨4, "4.6"⟩) = [] := by
    cbv
  have parsed : SdkVersion.parse "4.6" = .ok ⟨4, "4.6"⟩ := rfl
  refine ⟨rfl, ?_, ?_, rfl, rfl, ?_, bodyRules_ownNamesake _⟩
  · have known : fixture.project.module? ⟨"app"⟩ = some dependentModule := rfl
    obtain ⟨signals, collected⟩ := (Host.ofProject fixture.project).collect_application .standard
      sheetCompiler rfl rfl known rfl parsed .empty .empty 0 []
    refine ⟨_, collected, ?_⟩
    exact congrArg Prod.fst (collectApplication_of_no_components based none .empty .empty)
  · exact List.mem_cons_of_mem _ (List.mem_cons_of_mem _ (List.mem_singleton.mpr rfl))
  · rw [bases]
    exact List.mem_singleton.mpr rfl

/-- In the other order the application's own class is taken. -/
theorem namesake_found :
    ∃ outcome artifacts,
      (Host.ofProject (namesakes [ownNamesake, libraryNamesake]).project).collect .standard
          sheetCompiler ⟨"app"⟩ "4.6" .empty .empty 0 [] = some outcome ∧
        outcome.result = .ok (some artifacts) ∧
        ∃ artifact ∈ artifacts,
          artifact.origin = .inlined ∧
            artifact.data = outcome.compilerState.strings.bytesOf panelRules := by
  have parsed : SdkVersion.parse "4.6" = .ok ⟨4, "4.6"⟩ := rfl
  have known : (namesakes [ownNamesake, libraryNamesake]).project.module? ⟨"app"⟩ =
      some dependentModule := rfl
  have bases := baseClasses_namesakes _ _ (Or.inr ⟨rfl, rfl⟩)
  have based : (namesakes [ownNamesake, libraryNamesake]).project.baseClasses .standard ⟨"app"⟩
      ⟨4, "4.6"⟩ ≠ [] := by
    rw [bases]
    exact List.cons_ne_nil _ _
  have components : (namesakes [ownNamesake, libraryNamesake]).project.components ⟨"app"⟩
      ((namesakes [ownNamesake, libraryNamesake]).project.baseClasses .standard ⟨"app"⟩
        ⟨4, "4.6"⟩) = [ownNamesake] := by
    cbv
  obtain ⟨signals, collected⟩ := (Host.ofProject
    (namesakes [ownNamesake, libraryNamesake]).project).collect_application .standard
      sheetCompiler rfl rfl known rfl parsed .empty .empty 0 []
  obtain ⟨succeeds, gives⟩ := collectApplication_reference .standard sheetCompiler based
    (sheetCompiler_judgesBy ⟨"app"⟩) .empty .empty
  rw [components] at succeeds
  obtain ⟨result, ok⟩ := succeeds.mpr (by decide +kernel)
  obtain ⟨artifacts, same, _⟩ := gives result ok
  rw [same] at ok
  obtain ⟨version, parsedAs, covers⟩ := inlined_iff_taken
    (namesakes [ownNamesake, libraryNamesake]) _ .standard rfl known rfl collected ok
  rw [parsed, Except.ok.injEq] at parsedAs
  rw [← parsedAs] at covers
  have taken : (namesakes [ownNamesake, libraryNamesake]).project.Takes ⟨"app"⟩
      ((namesakes [ownNamesake, libraryNamesake]).project.baseClasses .standard ⟨"app"⟩
        ⟨4, "4.6"⟩) ownNamesake := by
    rw [Project.takes_iff, components]
    exact List.mem_singleton.mpr rfl
  have body := bodyRules_ownNamesake [ownNamesake, libraryNamesake]
  have covered := (covers ownNamesake panelSite panelRules body).1.mpr
    ⟨ownNamesake, panelSite, panelRules, taken, body, rfl⟩
  exact ⟨_, artifacts, collected, ok, covered⟩

end ComponentStyles
