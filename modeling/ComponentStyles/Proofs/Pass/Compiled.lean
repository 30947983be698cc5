import ComponentStyles.Proofs.Pass.Calls
import ComponentStyles.Proofs.Pass.Hosting
import ComponentStyles.Proofs.Pass.Restoration

/-!
Which documents a pass has compiled.

Style tags have nothing but stylesheets compiled, and whatever a pass gives was compiled by one of
its calls.  A library has the document compiled that its defaults are named for, of whatever
kind that is.
-/

namespace ComponentStyles

variable {σ : Type}

theorem ResolutionContext.isStylesheet_of_demand (context : ResolutionContext σ)
    {site : StyleSite} {sheet : Document}
    (asked : context.demand site = .shared sheet ∨ context.demand site = .embedded sheet) :
    sheet.isStylesheet = true := by
  unfold demand StyleSite.demand at asked
  cases attached : Attachment.of context.project context.sourceAttribute site.document site.tag with
  | nothing =>
      rw [attached] at asked
      rcases asked with impossible | impossible <;> cases impossible
  | reference value =>
      simp only [attached, StyleSite.referenceDemand] at asked
      split at asked
      · rcases asked with impossible | impossible <;> cases impossible
      · split at asked
        · rcases asked with impossible | impossible <;> cases impossible
        · rename_i found filtered
          rcases asked with same | impossible
          · cases same
            exact (Option.filter_eq_some_iff.mp filtered).2
          · cases impossible
  | injected host =>
      simp only [attached, StyleSite.injectionDemand] at asked
      split at asked
      · rcases asked with impossible | impossible <;> cases impossible
      · split at asked
        · split at asked
          · rename_i sheets
            rcases asked with impossible | same
            · cases impossible
            · cases same
              exact sheets
          · rcases asked with impossible | impossible <;> cases impossible
        · rcases asked with impossible | impossible <;> cases impossible
      · rcases asked with impossible | impossible <;> cases impossible

/-- The artifact has the bytes that the call gave.  It goes by the file of the stylesheet, or by
the file that hosts it. -/
structure Artifact.ComesFrom (artifact : Artifact) (call : CompilerCall) : Prop where
  replied : call.reply = .ok artifact.data
  file : artifact.file =
    if artifact.origin = .inlined then Project.hostingFile call.sheet else call.sheet.file

theorem Artifact.GrowsTo.comesFrom {before after : Artifact} (grows : before.GrowsTo after)
    {call : CompilerCall} (source : before.ComesFrom call) : after.ComesFrom call := by
  have inlined : after.origin = .inlined ↔ before.origin = .inlined := by
    have kind : after.summary.kind = before.summary.kind := grows.kind
    rw [← Artifact.kind_inline, ← Artifact.kind_inline, kind]
  constructor
  · rw [grows.data]
    exact source.replied
  · rw [grows.file, source.file]
    simp only [inlined]

theorem Artifact.addUser_growsTo (artifact : Artifact) (user : FileId) :
    artifact.GrowsTo (artifact.addUser user).2 := by
  cases artifact with
  | mk file data origin =>
      cases origin with
      | inlined => exact .refl _
      | defaults => exact .refl _
      | external firstUser otherUsers => exact growsTo_addUser rfl user

theorem ArtifactStore.before_addUser {store : ArtifactStore} {handle other : Nat} {user : FileId}
    {artifact : Artifact} (found : (store.addUser handle user).2.artifact? other = some artifact) :
    ∃ before, store.artifact? other = some before ∧ before.GrowsTo artifact := by
  cases stored : store.artifact? handle with
  | none =>
      simp only [addUser, stored] at found
      exact ⟨artifact, found, .refl artifact⟩
  | some before =>
      rw [artifact?_addUser stored] at found
      split at found
      · rename_i same
        cases found
        rw [same]
        exact ⟨before, stored, before.addUser_growsTo user⟩
      · exact ⟨artifact, found, .refl artifact⟩

/-- Every call is for a stylesheet, and every artifact comes from a call. -/
structure ArtifactStore.MadeBy (store : ArtifactStore) (calls : List CompilerCall) : Prop where
  sheets : ∀ call ∈ calls, call.sheet.isStylesheet = true
  sources : ∀ handle artifact, store.artifact? handle = some artifact →
    ∃ call ∈ calls, artifact.ComesFrom call

namespace ArtifactStore

variable {store : ArtifactStore} {calls : List CompilerCall} {call : CompilerCall}

theorem madeBy_empty : empty.MadeBy [] := by
  constructor
  · intro call none
    cases none
  · intro handle artifact found
    simp [artifact?, empty] at found

theorem MadeBy.concat (made : store.MadeBy calls) (sheet : call.sheet.isStylesheet = true) :
    store.MadeBy (calls ++ [call]) := by
  constructor
  · intro other inside
    rcases List.mem_append.mp inside with before | last
    · exact made.sheets other before
    · rw [List.mem_singleton.mp last]
      exact sheet
  · intro handle artifact found
    obtain ⟨source, inside, comes⟩ := made.sources handle artifact found
    exact ⟨source, List.mem_append_left [call] inside, comes⟩

theorem MadeBy.push (made : store.MadeBy calls) (sheet : call.sheet.isStylesheet = true)
    {artifact : Artifact} (comes : artifact.ComesFrom call) :
    (store.push artifact).2.MadeBy (calls ++ [call]) := by
  have grown := made.concat sheet
  refine ⟨grown.sheets, ?_⟩
  intro handle other found
  rw [artifact?_push] at found
  split at found
  · cases found
    exact ⟨call, List.mem_append_right calls (List.mem_singleton.mpr rfl), comes⟩
  · exact grown.sources handle other found

theorem MadeBy.pushUnder (made : store.MadeBy calls) (sheet : call.sheet.isStylesheet = true)
    (identity : FileId) {artifact : Artifact} (comes : artifact.ComesFrom call) :
    (store.pushUnder identity artifact).2.MadeBy (calls ++ [call]) :=
  ⟨(made.push sheet comes).sheets, (made.push sheet comes).sources⟩

theorem MadeBy.addUser (made : store.MadeBy calls) (handle : Nat) (user : FileId) :
    (store.addUser handle user).2.MadeBy calls := by
  refine ⟨made.sheets, ?_⟩
  intro other artifact found
  obtain ⟨before, stored, grows⟩ := before_addUser found
  obtain ⟨source, inside, comes⟩ := made.sources other before stored
  exact ⟨source, inside, grows.comesFrom comes⟩

end ArtifactStore

/-! ### Passes with a record -/

def Resolution.Recorded (resolution : Resolution (σ × List CompilerCall)) : Prop :=
  resolution.store.MadeBy resolution.compilerState.2

theorem StyleCompiler.recorded_calls {compiler : StyleCompiler σ} {sheet : Document}
    {module : ModuleName} {state after : σ × List CompilerCall} {reply : SheetReply}
    (compiled : compiler.recorded.compile sheet module state = (reply, after)) :
    after.2 = state.2 ++ [⟨sheet, module, reply⟩] := by
  cases compiled
  rfl

theorem TagStep.recorded {compiler : StyleCompiler σ}
    {context : ResolutionContext (σ × List CompilerCall)} {site : StyleSite}
    {before after : Resolution (σ × List CompilerCall)}
    {answer : Except PassFailure (Option Nat)} (recording : context.compiler = compiler.recorded)
    (step : TagStep context site before answer after) (recorded : before.Recorded) :
    after.Recorded := by
  -- Only the three steps that compile add to the record, each at its end.
  cases step with
  | nothing asked => exact recorded
  | unusable invalid asked => exact recorded
  | broken failure asked => exact recorded
  | embedded sheet data state asked compiled =>
      rw [recording] at compiled
      unfold Resolution.Recorded
      rw [StyleCompiler.recorded_calls compiled]
      have source : (Artifact.inlined (Project.hostingFile sheet) data).ComesFrom
          ⟨sheet, context.module, .ok data⟩ := ⟨rfl, rfl⟩
      exact ArtifactStore.MadeBy.push recorded (context.isStylesheet_of_demand (Or.inr asked))
        source
  | created sheet data state asked compiled =>
      rw [recording] at compiled
      unfold Resolution.Recorded
      rw [StyleCompiler.recorded_calls compiled]
      have source : (Artifact.external sheet.file data site.document.file).ComesFrom
          ⟨sheet, context.module, .ok data⟩ := ⟨rfl, rfl⟩
      exact ArtifactStore.MadeBy.pushUnder recorded (context.isStylesheet_of_demand (Or.inl asked))
        sheet.file source
  | referred sheet handle asked present =>
      exact ArtifactStore.MadeBy.addUser recorded handle site.document.file
  | failed sheet failure state asked compiled =>
      rw [recording] at compiled
      unfold Resolution.Recorded
      rw [StyleCompiler.recorded_calls compiled]
      exact ArtifactStore.MadeBy.concat recorded (context.isStylesheet_of_demand asked)

theorem collectApplication_recorded (settings : Settings) (compiler : StyleCompiler σ)
    (project : Project) (module : ModuleName) (version : SdkVersion) (state : σ)
    (log : ProblemLog) :
    let collected := collectApplication settings compiler.recorded project module version
      (state, []) log
    (∀ call ∈ collected.2.1.2, call.sheet.isStylesheet = true) ∧
      ∀ artifacts, collected.1 = .ok (some artifacts) → ∀ artifact ∈ artifacts,
        ∃ call ∈ collected.2.1.2, artifact.ComesFrom call := by
  intro collected
  by_cases noBase : project.baseClasses settings module version = []
  · have idle : collected = (.ok none, (state, []), log) := by
      simp only [collected, collectApplication, noBase, List.isEmpty_nil, if_true]
    rw [idle]
    constructor
    · intro call none
      cases none
    · intro artifacts impossible
      cases impossible
  · obtain ⟨result, final, _⟩ :=
      collectApplication_walk settings compiler.recorded noBase (state, []) log
    let context : ResolutionContext (σ × List CompilerCall) :=
      { project, compiler := compiler.recorded
        sourceAttribute := settings.style.sourceAttribute, module }
    let sites := project.styleSites settings.style
      (project.components module (project.baseClasses settings module version))
    have kept : ∀ (site : StyleSite) (resolution : Resolution (σ × List CompilerCall)),
        resolution.Recorded →
          (context.resolve site.document site.tag resolution).2.Recorded :=
      fun site resolution recorded =>
        (context.resolve_tagStep site resolution).recorded rfl recorded
    have start : (Resolution.start (state, [])).Recorded := ArtifactStore.madeBy_empty
    have made := ResolutionContext.resolveSites_keeps Resolution.Recorded kept sites start
      log.problems
    let walk := context.resolveSites sites (.start (state, [])) log.problems
    rw [final]
    refine ⟨made.sheets, ?_⟩
    intro artifacts ok artifact inside
    have succeeded : walk.1.map (fun _ => some walk.2.1.store.artifacts.toList) =
        .ok (some artifacts) := result.symm.trans ok
    have same : walk.2.1.store.artifacts.toList = artifacts := by
      cases ended : walk.1 with
      | error failure =>
          rw [ended] at succeeded
          cases succeeded
      | ok done =>
          rw [ended] at succeeded
          exact Option.some.inj (Except.ok.inj succeeded)
    rw [← same] at inside
    obtain ⟨handle, found⟩ := Array.mem_iff_getElem?.mp (Array.mem_toList_iff.mp inside)
    exact made.sources handle artifact found

theorem collectLibrary_recorded (settings : Settings) (compiler : StyleCompiler σ)
    (project : Project) (module : ModuleName) (library : ComponentModule) (state : σ)
    (log : ProblemLog) :
    let collected := collectLibrary settings compiler.recorded project module library
      (state, []) log
    collected.2.1.2.map CompilerCall.sheet =
        (project.defaultsSheet? library settings.library.defaultsSheet).toList ∧
      ∀ artifacts, collected.1 = .ok (some artifacts) → ∀ artifact ∈ artifacts,
        ∃ call ∈ collected.2.1.2, artifact.ComesFrom call := by
  unfold collectLibrary
  cases project.defaultsSheet? library settings.library.defaultsSheet with
  | none =>
      refine ⟨rfl, ?_⟩
      intro artifacts impossible
      cases impossible
  | some sheet =>
      cases replied : compiler.compile sheet module state with
      | mk reply after =>
          have compiled : compiler.recorded.compile sheet module (state, []) =
              (reply, after, [⟨sheet, module, reply⟩]) := by
            simp only [StyleCompiler.recorded, replied, List.nil_append]
          simp only [compiled]
          cases reply with
          | ok data =>
              refine ⟨rfl, ?_⟩
              intro artifacts ok artifact inside
              cases ok
              rw [List.mem_singleton.mp inside]
              exact ⟨_, List.mem_singleton.mpr rfl, rfl, rfl⟩
          | error failure =>
              constructor
              · cases failure <;> rfl
              · intro artifacts impossible
                cases failure <;> cases impossible

def Project.DefaultsOf (project : Project) (settings : Settings) (module : ModuleName)
    (sheet : Document) : Prop :=
  ∃ library, project.module? module = some library ∧ library.nature = .library ∧
    project.defaultsSheet? library settings.library.defaultsSheet = some sheet

theorem collectConsistent_recorded (settings : Settings) (compiler : StyleCompiler σ)
    (project : Project) (module : ModuleName) (sdk : String) (state : σ) (log : ProblemLog) :
    let collected := collectConsistent settings compiler.recorded project module sdk (state, []) log
    ((∀ call ∈ collected.2.1.2, call.sheet.isStylesheet = true) ↔
        ∀ sheet, project.DefaultsOf settings module sheet → sheet.isStylesheet = true) ∧
      ∀ artifacts, collected.1 = .ok (some artifacts) → ∀ artifact ∈ artifacts,
        ∃ call ∈ collected.2.1.2, artifact.ComesFrom call := by
  by_cases rejects : project.Rejects module sdk
  · obtain ⟨failure, rejected⟩ := collectConsistent_of_rejects rejects
    have idle := rejected settings compiler.recorded (state, []) log
    have none : ∀ sheet, ¬ project.DefaultsOf settings module sheet := by
      rintro sheet ⟨library, known, nature, _⟩
      rcases rejects with unknown | ⟨found, fault, same, application, _⟩
      · rw [unknown] at known
        cases known
      · rw [same, Option.some.injEq] at known
        rw [known, nature] at application
        cases application
    simp only [idle]
    refine ⟨iff_of_true ?_ fun sheet defaults => absurd defaults (none sheet), ?_⟩
    · intro call impossible
      cases impossible
    · intro artifacts impossible
      cases impossible
  · cases known : project.module? module with
    | none => exact absurd (Or.inl known) rejects
    | some found =>
        cases nature : found.nature with
        | library =>
            have defaults : ∀ sheet, project.DefaultsOf settings module sheet ↔
                project.defaultsSheet? found settings.library.defaultsSheet = some sheet := by
              intro sheet
              constructor
              · rintro ⟨library, same, _, named⟩
                rw [known, Option.some.injEq] at same
                rw [same]
                exact named
              · intro named
                exact ⟨found, known, nature, named⟩
            obtain ⟨calls, sources⟩ :=
              collectLibrary_recorded settings compiler project module found state log
            simp only [collectConsistent, Project.knownModule, known, nature, defaults]
            refine ⟨⟨?_, ?_⟩, sources⟩
            · intro all sheet named
              rw [named] at calls
              have inside : sheet ∈ [sheet] := List.mem_singleton.mpr rfl
              rw [← Option.toList_some, ← calls] at inside
              obtain ⟨call, among, same⟩ := List.mem_map.mp inside
              rw [← same]
              exact all call among
            · intro all call among
              apply all
              rw [← Option.mem_toList, ← calls]
              exact List.mem_map_of_mem among
        | application =>
            cases parsed : SdkVersion.parse sdk with
            | error fault => exact absurd (Or.inr ⟨found, fault, known, nature, parsed⟩) rejects
            | ok version =>
                obtain ⟨sheets, sources⟩ :=
                  collectApplication_recorded settings compiler project module version state log
                simp only [collectConsistent, Project.knownModule, known, nature, parsed]
                refine ⟨iff_of_true sheets ?_, sources⟩
                rintro sheet ⟨library, same, impossible, _⟩
                rw [known, Option.some.injEq] at same
                rw [← same, nature] at impossible
                cases impossible

/-- A pass has nothing but stylesheets compiled, unless the defaults of its library are a document
of another kind.  Every artifact comes from one of its calls. -/
theorem calls_are_stylesheets_iff (host : Host) (settings : Settings) (compiler : StyleCompiler σ)
    (module : ModuleName) (sdk : String) (state : σ) (log : ProblemLog) (thread : Nat)
    (events : List SourceEvent) :
    let calls := host.calls settings compiler module sdk state log thread events
    ((∀ call ∈ calls, call.sheet.isStylesheet = true) ↔
        (host.signals.Passes thread events → ∀ sheet,
          host.project.DefaultsOf settings module sheet → sheet.isStylesheet = true)) ∧
      ∀ outcome artifacts,
        host.collect settings compiler module sdk state log thread events = some outcome →
        outcome.result = .ok (some artifacts) →
        ∀ artifact ∈ artifacts, ∃ call ∈ calls, artifact.ComesFrom call := by
  intro calls
  have held : ¬ host.signals.Passes thread events →
      ((∀ call ∈ ([] : List CompilerCall), call.sheet.isStylesheet = true) ↔
        (host.signals.Passes thread events → ∀ sheet,
          host.project.DefaultsOf settings module sheet → sheet.isStylesheet = true)) := by
    intro held
    refine iff_of_true ?_ fun passes => absurd passes held
    intro call impossible
    cases impossible
  rw [host.collect_recorded]
  unfold calls Host.calls
  cases collected :
      host.collect settings compiler.recorded module sdk (state, []) log thread events with
  | none =>
      rw [host.collect_eq_none] at collected
      refine ⟨held ?_, ?_⟩
      · rintro ⟨after, passed⟩
        rw [collected] at passed
        cases passed
      · intro outcome artifacts impossible
        cases impossible
  | some recorded =>
      dsimp only
      rcases host.collect_cases collected with
        ⟨signals, waited, _, answer⟩ | ⟨phase, waited, ended, heldUp, kept, _⟩
      · obtain ⟨sheets, sources⟩ :=
          collectConsistent_recorded settings compiler host.project module sdk state log
        rw [← answer] at sheets sources
        refine ⟨?_, ?_⟩
        · rw [sheets]
          exact ⟨fun all _ => all, fun all => all ⟨signals, waited⟩⟩
        · intro outcome artifacts viewed ok
          cases viewed
          exact sources artifacts ok
      · rw [kept]
        refine ⟨held ?_, ?_⟩
        · rintro ⟨after, passed⟩
          rw [waited] at passed
          cases passed
          exact absurd ended (by decide)
        · intro outcome artifacts viewed ok
          cases viewed
          have impossible : recorded.result = .ok (some artifacts) := ok
          rw [heldUp] at impossible
          cases impossible

def libraryWith (kind : DocumentKind) : Fixture :=
  { modules :=
      [{ name := ⟨"lib"⟩, nature := .library, sourceRoots := [⟨"lib/src"⟩], dependencies := [] }]
    documents :=
      [{ file := ⟨"lib/src/defaults.css"⟩, kind, root := none, text := "A{b:c}" }]
    classes := [] }

theorem collect_libraryWith (kind : DocumentKind) :
    let host := Host.ofProject (libraryWith kind).project
    let consistent := collectConsistent .standard sheetCompiler.recorded host.project ⟨"lib"⟩ "4.6"
      (.empty, []) .empty
    ∃ outcome,
      host.collect .standard sheetCompiler ⟨"lib"⟩ "4.6" .empty .empty 0 [] = some outcome ∧
        outcome.result = consistent.1 ∧
        host.calls .standard sheetCompiler ⟨"lib"⟩ "4.6" .empty .empty 0 [] = consistent.2.1.2 := by
  intro host consistent
  have waited : host.signals.awaitConsistency 0 [] = some (.passed, host.signals) :=
    Signals.awaitConsistency_consistent rfl rfl 0 []
  rw [host.collect_recorded]
  unfold Host.calls Host.collect
  rw [waited]
  exact ⟨_, rfl, rfl, rfl⟩

/-- A library has a plain document compiled, if it is named for the defaults. -/
theorem plain_defaults_compiled :
    let fixture := libraryWith .other
    let host := Host.ofProject fixture.project
    fixture.checked = .ok fixture ∧
      (host.calls .standard sheetCompiler ⟨"lib"⟩ "4.6" .empty .empty 0 []).map
          (fun call => (call.sheet.file, call.sheet.kind)) =
        [(⟨"lib/src/defaults.css"⟩, .other)] ∧
      ∃ outcome,
        host.collect .standard sheetCompiler ⟨"lib"⟩ "4.6" .empty .empty 0 [] = some outcome ∧
          outcome.result = .ok (some [.defaults ⟨"lib/src/defaults.css"⟩ stylishBytes]) := by
  intro fixture host
  obtain ⟨outcome, collected, result, calls⟩ := collect_libraryWith .other
  refine ⟨rfl, ?_, outcome, collected, ?_⟩
  · rw [calls]
    decide +kernel
  · rw [result]
    decide +kernel

theorem stylesheet_defaults_compiled :
    let host := Host.ofProject (libraryWith .stylesheet).project
    let calls := host.calls .standard sheetCompiler ⟨"lib"⟩ "4.6" .empty .empty 0 []
    calls.length = 1 ∧ (∀ call ∈ calls, call.sheet.isStylesheet = true) ∧
      ∃ outcome artifact,
        host.collect .standard sheetCompiler ⟨"lib"⟩ "4.6" .empty .empty 0 [] = some outcome ∧
          outcome.result = .ok (some [artifact]) ∧ ∃ call ∈ calls, artifact.ComesFrom call := by
  intro host calls
  obtain ⟨outcome, collected, result, same⟩ := collect_libraryWith .stylesheet
  have ok : outcome.result = .ok (some [.defaults ⟨"lib/src/defaults.css"⟩ stylishBytes]) := by
    rw [result]
    decide +kernel
  obtain ⟨sheets, sources⟩ := calls_are_stylesheets_iff host .standard sheetCompiler ⟨"lib"⟩ "4.6"
    .empty .empty 0 []
  refine ⟨?_, sheets.mpr ?_, outcome, _, collected, ok,
    sources outcome _ collected ok _ (List.mem_singleton.mpr rfl)⟩
  · change (host.calls .standard sheetCompiler ⟨"lib"⟩ "4.6" .empty .empty 0 []).length = 1
    rw [same]
    decide +kernel
  · rintro _ sheet ⟨library, known, _, named⟩
    have found : host.project.module? ⟨"lib"⟩ =
        some { nature := .library, sourceRoots := [⟨"lib/src"⟩], dependencies := [] } := rfl
    rw [found, Option.some.injEq] at known
    have stored : host.project.defaultsSheet? library "defaults.css" =
        some (.stylesheet ⟨"lib/src/defaults.css"⟩ "A{b:c}") := by
      rw [← known]
      rfl
    cases stored.symm.trans named
    rfl

end ComponentStyles
