import ComponentStyles.Proofs.Pass.Collection

/-!
What a pass asks of its compiler.

The calls of a pass are those that a compiler with a record of them has at its end.  To keep the
record changes nothing else: a pass asks as it would without, and gives the same.
-/

namespace ComponentStyles

variable {σ τ : Type}

/-- The first compiler answers as the second does in the part of its state that a view shows. -/
def StyleCompiler.Refines (finer : StyleCompiler τ) (compiler : StyleCompiler σ) (view : τ → σ) :
    Prop :=
  ∀ (sheet : Document) (module : ModuleName) (state : τ),
    compiler.compile sheet module (view state) =
      ((finer.compile sheet module state).1, view (finer.compile sheet module state).2)

def Resolution.view (view : τ → σ) (resolution : Resolution τ) : Resolution σ :=
  { store := resolution.store, compilerState := view resolution.compilerState }

def PassState.view (view : τ → σ) (state : PassState τ) : PassState σ :=
  { resolution := state.resolution.view view, log := state.log }

def PassOutcome.view (view : τ → σ) (outcome : PassOutcome τ) : PassOutcome σ :=
  { result := outcome.result
    compilerState := view outcome.compilerState
    log := outcome.log
    signals := outcome.signals }

def ResolutionContext.withCompiler (context : ResolutionContext σ) (compiler : StyleCompiler τ) :
    ResolutionContext τ :=
  { project := context.project, compiler, sourceAttribute := context.sourceAttribute,
    module := context.module }

section Refined

variable {context : ResolutionContext σ} {finer : StyleCompiler τ} {view : τ → σ}
  (refines : finer.Refines context.compiler view)
include refines

theorem resolveEmbedded_view (site : StyleSite) (sheet : Document) (resolution : Resolution τ) :
    context.resolveEmbedded site sheet (resolution.view view) =
      let resolved := (context.withCompiler finer).resolveEmbedded site sheet resolution
      (resolved.1, resolved.2.view view) := by
  unfold ResolutionContext.resolveEmbedded
  have same := refines sheet context.module resolution.compilerState
  simp only [ResolutionContext.withCompiler, Resolution.view, same]
  cases finer.compile sheet context.module resolution.compilerState with
  | mk reply after => cases reply <;> rfl

theorem resolveShared_view (site : StyleSite) (sheet : Document) (resolution : Resolution τ) :
    context.resolveShared site sheet (resolution.view view) =
      let resolved := (context.withCompiler finer).resolveShared site sheet resolution
      (resolved.1, resolved.2.view view) := by
  unfold ResolutionContext.resolveShared
  have same := refines sheet context.module resolution.compilerState
  simp only [ResolutionContext.withCompiler, Resolution.view, same]
  cases resolution.store.index.get? sheet.file with
  | some handle => rfl
  | none =>
      cases finer.compile sheet context.module resolution.compilerState with
      | mk reply after => cases reply <;> rfl

theorem resolve_view (document : Document) (tag : Element) (resolution : Resolution τ) :
    context.resolve document tag (resolution.view view) =
      let resolved := (context.withCompiler finer).resolve document tag resolution
      (resolved.1, resolved.2.view view) := by
  have coarse := context.resolve_eq { document, tag } (resolution.view view)
  have fine := (context.withCompiler finer).resolve_eq { document, tag } resolution
  have demand : (context.withCompiler finer).demand { document, tag } =
      context.demand { document, tag } := rfl
  rw [demand] at fine
  rw [coarse, fine]
  cases context.demand { document, tag } with
  | nothing => rfl
  | unusable invalid => rfl
  | broken failure => rfl
  | embedded sheet => exact resolveEmbedded_view refines _ sheet resolution
  | shared sheet => exact resolveShared_view refines _ sheet resolution

theorem resolveTags_view (document : Document) (tags : List Element) (state : PassState τ)
    (made : Nat) :
    context.resolveTags document tags (state.view view) made =
      let resolved := (context.withCompiler finer).resolveTags document tags state made
      (resolved.1, resolved.2.view view) := by
  induction tags generalizing state made with
  | nil => rfl
  | cons tag rest inductionHypothesis =>
      have first := resolve_view refines document tag state.resolution
      simp only [ResolutionContext.resolveTags, PassState.view, first]
      cases (context.withCompiler finer).resolve document tag state.resolution with
      | mk answer after =>
          cases answer with
          | ok handle? =>
              cases handle? with
              | none => exact inductionHypothesis { state with resolution := after } made
              | some handle =>
                  exact inductionHypothesis { state with resolution := after } (made + 1)
          | error failure =>
              cases failure with
              | property invalid =>
                  exact inductionHypothesis
                    { resolution := after, log := state.log.add invalid } made
              | sdk fault => rfl
              | host failure => rfl
              | commitWait => rfl
              | severalFragments count hosting => rfl
              | strayShreds fragment count hosting => rfl

theorem extract_view (style : StyleTagSettings) (declared : ComponentClass)
    (state : PassState τ) :
    context.extract style declared (state.view view) =
      let extracted := (context.withCompiler finer).extract style declared state
      (extracted.1, extracted.2.view view) := by
  unfold ResolutionContext.extract
  simp only [ResolutionContext.withCompiler]
  cases context.project.backingDocument? declared with
  | none => rfl
  | some document =>
      have resolved := resolveTags_view refines document (style.tagsOf document)
        { state with log := state.log.enter document.file } 0
      simp only [PassState.view] at resolved ⊢
      rw [resolved]
      rfl

theorem extractAll_view (style : StyleTagSettings) (classes : List ComponentClass)
    (state : PassState τ) :
    context.extractAll style classes (state.view view) =
      let extracted := (context.withCompiler finer).extractAll style classes state
      (extracted.1, extracted.2.view view) := by
  induction classes generalizing state with
  | nil => rfl
  | cons declared rest inductionHypothesis =>
      have first := extract_view refines style declared state
      simp only [ResolutionContext.extractAll, first]
      cases (context.withCompiler finer).extract style declared state with
      | mk answer after =>
          cases answer with
          | ok made => exact inductionHypothesis after
          | error failure => rfl

end Refined

section Refined

variable {compiler : StyleCompiler σ} {finer : StyleCompiler τ} {view : τ → σ}
  (refines : finer.Refines compiler view)
include refines

theorem collectLibrary_view (settings : Settings) (project : Project) (module : ModuleName)
    (library : ComponentModule) (state : τ) (log : ProblemLog) :
    collectLibrary settings compiler project module library (view state) log =
      let collected := collectLibrary settings finer project module library state log
      (collected.1, view collected.2.1, collected.2.2) := by
  unfold collectLibrary
  cases project.defaultsSheet? library settings.library.defaultsSheet with
  | none => rfl
  | some document =>
      simp only [refines document module state]
      cases finer.compile document module state with
      | mk reply after =>
          cases reply with
          | ok data => rfl
          | error failure => cases failure <;> rfl

theorem collectApplication_view (settings : Settings) (project : Project) (module : ModuleName)
    (version : SdkVersion) (state : τ) (log : ProblemLog) :
    collectApplication settings compiler project module version (view state) log =
      let collected := collectApplication settings finer project module version state log
      (collected.1, view collected.2.1, collected.2.2) := by
  by_cases noBase : project.baseClasses settings module version = []
  · simp only [collectApplication, noBase, List.isEmpty_nil, if_true]
  · let context : ResolutionContext σ :=
      { project, compiler, sourceAttribute := settings.style.sourceAttribute, module }
    let start : PassState τ := { resolution := .start state, log }
    have answers : finer.Refines context.compiler view := refines
    have extracted := extractAll_view answers settings.style
      (project.components module (project.baseClasses settings module version)) start
    have coarse := collectApplication_extracted settings compiler noBase (view state) log
    have fine := collectApplication_extracted settings finer noBase state log
    rw [coarse, fine]
    exact congrArg gathered extracted

theorem collectConsistent_view (settings : Settings) (project : Project) (module : ModuleName)
    (sdk : String) (state : τ) (log : ProblemLog) :
    collectConsistent settings compiler project module sdk (view state) log =
      let collected := collectConsistent settings finer project module sdk state log
      (collected.1, view collected.2.1, collected.2.2) := by
  unfold collectConsistent
  cases project.knownModule module with
  | error failure => rfl
  | ok found =>
      cases nature : found.nature with
      | library =>
          simp only [nature]
          exact collectLibrary_view refines settings project module found state log
      | application =>
          cases parsed : SdkVersion.parse sdk with
          | error fault => simp only [nature]
          | ok version =>
              simp only [nature]
              exact collectApplication_view refines settings project module version state log

/-- A pass shows the same whether or not its compiler keeps more in its state. -/
theorem Host.collect_view (host : Host) (settings : Settings) (module : ModuleName) (sdk : String)
    (state : τ) (log : ProblemLog) (thread : Nat) (events : List SourceEvent) :
    host.collect settings compiler module sdk (view state) log thread events =
      (host.collect settings finer module sdk state log thread events).map (.view view) := by
  unfold Host.collect
  rw [collectConsistent_view refines]
  cases host.signals.awaitConsistency thread events with
  | none => rfl
  | some passed =>
      obtain ⟨phase, signals⟩ := passed
      cases phase <;> rfl

end Refined

structure CompilerCall where
  sheet : Document
  module : ModuleName
  reply : Except HostFailure (List UInt8)

/-- The compiler with a record of its calls behind its state. -/
def StyleCompiler.recorded (compiler : StyleCompiler σ) :
    StyleCompiler (σ × List CompilerCall) where
  compile sheet module state :=
    let answer := compiler.compile sheet module state.1
    (answer.1, answer.2, state.2 ++ [{ sheet, module, reply := answer.1 }])

theorem StyleCompiler.recorded_refines (compiler : StyleCompiler σ) :
    compiler.recorded.Refines compiler Prod.fst :=
  fun _ _ _ => rfl

def Host.calls (host : Host) (settings : Settings) (compiler : StyleCompiler σ)
    (module : ModuleName) (sdk : String) (state : σ) (log : ProblemLog) (thread : Nat)
    (events : List SourceEvent) : List CompilerCall :=
  match host.collect settings compiler.recorded module sdk (state, []) log thread events with
  | some outcome => outcome.compilerState.2
  | none => []

theorem Host.collect_recorded (host : Host) (settings : Settings) (compiler : StyleCompiler σ)
    (module : ModuleName) (sdk : String) (state : σ) (log : ProblemLog) (thread : Nat)
    (events : List SourceEvent) :
    host.collect settings compiler module sdk state log thread events =
      (host.collect settings compiler.recorded module sdk (state, []) log thread events).map
        (.view Prod.fst) :=
  host.collect_view compiler.recorded_refines settings module sdk (state, []) log thread events

end ComponentStyles
