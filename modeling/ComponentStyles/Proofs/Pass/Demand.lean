import ComponentStyles.Pass.Resolution

/-!
What a style tag asks for.

The demand of a tag depends on the project alone, not on what was resolved before.  Resolving a
tag is one of five things, one for each kind of demand; only the two with a stylesheet touch the
store or the compiler.
-/

namespace ComponentStyles

/-- A style tag with the document that holds it. -/
structure StyleSite where
  document : Document
  tag : Element

/-- What a style tag asks for. -/
inductive SheetDemand where
  | nothing
  | unusable (invalid : InvalidProperty)
  | broken (failure : PassFailure)
  | shared (sheet : Document)
  | embedded (sheet : Document)

def SheetDemand.isInjected : SheetDemand → Bool
  | broken _ | embedded _ => true
  | _ => false

namespace StyleSite

def location (site : StyleSite) : ElementLocation :=
  tagLocation site.document site.tag

def invalid (site : StyleSite) (key : String) (arguments : List String) : InvalidProperty :=
  { location := site.location, key, arguments }

def referenceDemand (project : Project) (site : StyleSite) (value : String) : SheetDemand :=
  match project.resolveReference? site.document.file value with
  | none => .unusable (site.invalid Message.notFoundKey [value])
  | some target =>
      match (project.document? target).filter Document.isStylesheet with
      | none => .unusable (site.invalid Message.notStylesheetKey [target.fileName])
      | some sheet => .shared sheet

/-- The demand of injected content: exactly one fragment, taken from its host alone. -/
def injectionDemand (project : Project) (host : InjectionHost) : SheetDemand :=
  match project.injectedFragments host with
  | [] => .nothing
  | [fragment] =>
      if fragment.shreds.map Shred.host = [host] then
        if fragment.document.isStylesheet then .embedded fragment.document else .nothing
      else .broken (.strayShreds fragment.document.file fragment.shreds.length host)
  | fragments => .broken (.severalFragments fragments.length host)

def demand (project : Project) (sourceAttribute : String) (site : StyleSite) : SheetDemand :=
  match Attachment.of project sourceAttribute site.document site.tag with
  | .reference value => site.referenceDemand project value
  | .injected host => injectionDemand project host
  | .nothing => .nothing

/-- How a pass takes a failure of the compiler: a sheet that does not compile is a problem of
the tag, and everything else a failure of the pass. -/
def compileFailure (site : StyleSite) : HostFailure → PassFailure
  | .stylesheet file reason => .property (site.invalid Message.notCompiledKey [file, reason])
  | failure => .host failure

end StyleSite

theorem Project.resolveReference?_congr {project other : Project}
    (modules : other.modules = project.modules)
    (located : ∀ file, (other.document? file).map Document.file =
      (project.document? file).map Document.file)
    (origin : FileId) (value : String) :
    other.resolveReference? origin value = project.resolveReference? origin value := by
  unfold resolveReference? candidatePaths allSourceRoots
  simp only [located, modules]

namespace StyleSite

variable {project : Project} {sourceAttribute : String} {site : StyleSite}

theorem document?_of_shared {sheet : Document}
    (asked : site.demand project sourceAttribute = .shared sheet) :
    project.document? sheet.file = some sheet := by
  unfold demand at asked
  cases attached : Attachment.of project sourceAttribute site.document site.tag with
  | nothing => simp only [attached, reduceCtorEq] at asked
  | injected host =>
      simp only [attached, injectionDemand] at asked
      split at asked
      · cases asked
      · split at asked
        · split at asked <;> cases asked
        · cases asked
      · cases asked
  | reference value =>
      simp only [attached, referenceDemand] at asked
      split at asked
      · cases asked
      · rename_i target resolved
        split at asked
        · cases asked
        · rename_i found filtered
          cases asked
          have stored := (Option.filter_eq_some_iff.mp filtered).1
          rw [Project.file_of_document? stored]
          exact stored

theorem injectionDemand_of_demand {asked : SheetDemand}
    (demanded : site.demand project sourceAttribute = asked) (injected : asked.isInjected = true) :
    ∃ host, Attachment.of project sourceAttribute site.document site.tag = .injected host ∧
      injectionDemand project host = asked := by
  unfold demand at demanded
  cases attached : Attachment.of project sourceAttribute site.document site.tag with
  | nothing =>
      rw [attached] at demanded
      cases demanded
      cases injected
  | reference value =>
      simp only [attached, referenceDemand] at demanded
      split at demanded
      · cases demanded
        cases injected
      · split at demanded
        · cases demanded
          cases injected
        · cases demanded
          cases injected
  | injected host =>
      rw [attached] at demanded
      exact ⟨host, rfl, demanded⟩

theorem failure_of_broken {failure : PassFailure}
    (asked : site.demand project sourceAttribute = .broken failure) :
    (∃ count hosting, failure = .severalFragments count hosting) ∨
      ∃ fragment count hosting, failure = .strayShreds fragment count hosting := by
  obtain ⟨host, _, broken⟩ := injectionDemand_of_demand asked rfl
  unfold injectionDemand at broken
  split at broken
  · cases broken
  · split at broken
    · split at broken <;> cases broken
    · cases broken
      exact Or.inr ⟨_, _, _, rfl⟩
  · cases broken
    exact Or.inl ⟨_, _, rfl⟩

/-- Injected content that is not what the tag hosts is no fault of an author. -/
theorem not_property_of_broken {failure : PassFailure}
    (asked : site.demand project sourceAttribute = .broken failure) (invalid : InvalidProperty) :
    failure ≠ .property invalid := by
  rintro rfl
  rcases failure_of_broken asked with ⟨_, _, impossible⟩ | ⟨_, _, _, impossible⟩ <;>
    cases impossible

end StyleSite

variable {σ : Type}

namespace ResolutionContext

def demand (context : ResolutionContext σ) (site : StyleSite) : SheetDemand :=
  site.demand context.project context.sourceAttribute

theorem compileFor_location (context : ResolutionContext σ) (site : StyleSite) (sheet : Document)
    (state : σ) :
    context.compileFor site.location sheet state =
      match context.compiler.compile sheet context.module state with
      | (.ok data, after) => (.ok data, after)
      | (.error failure, after) => (.error (site.compileFailure failure), after) := by
  unfold compileFor
  cases context.compiler.compile sheet context.module state with
  | mk reply after =>
      cases reply with
      | ok data => rfl
      | error failure => cases failure <;> rfl

def resolveEmbedded (context : ResolutionContext σ) (site : StyleSite) (sheet : Document)
    (resolution : Resolution σ) : Except PassFailure (Option Nat) × Resolution σ :=
  match context.compiler.compile sheet context.module resolution.compilerState with
  | (.ok data, compilerState) =>
      (.ok (some resolution.store.size),
        { store := (resolution.store.push (.inlined (Project.hostingFile sheet) data)).2
          compilerState })
  | (.error failure, compilerState) =>
      (.error (site.compileFailure failure), { resolution with compilerState })

def resolveShared (context : ResolutionContext σ) (site : StyleSite) (sheet : Document)
    (resolution : Resolution σ) : Except PassFailure (Option Nat) × Resolution σ :=
  match resolution.store.index.get? sheet.file with
  | some handle =>
      (.ok none,
        { resolution with store := (resolution.store.addUser handle site.document.file).2 })
  | none =>
      match context.compiler.compile sheet context.module resolution.compilerState with
      | (.ok data, compilerState) =>
          (.ok (some resolution.store.size),
            { store := (resolution.store.pushUnder sheet.file
                (.external sheet.file data site.document.file)).2
              compilerState })
      | (.error failure, compilerState) =>
          (.error (site.compileFailure failure), { resolution with compilerState })

theorem referencedSheet_location (context : ResolutionContext σ) (site : StyleSite)
    (value : String) :
    site.referenceDemand context.project value =
      match context.referencedSheet site.document site.location value with
      | .error invalid => .unusable invalid
      | .ok sheet => .shared sheet := by
  unfold referencedSheet StyleSite.referenceDemand
  cases context.project.resolveReference? site.document.file value with
  | none => rfl
  | some target =>
      cases found : context.project.document? target with
      | none => simp only [found, Option.filter_none]; rfl
      | some stylesheet =>
          by_cases compiled : stylesheet.isStylesheet = true
          · simp only [found, Option.filter_some, compiled, if_true]
          · simp only [found, Option.filter_some, compiled, Bool.false_eq_true, if_false]; rfl

theorem injectedSheet_demand (context : ResolutionContext σ) (host : InjectionHost) :
    StyleSite.injectionDemand context.project host =
      match context.injectedSheet host with
      | .error failure => .broken failure
      | .ok none => .nothing
      | .ok (some sheet) => .embedded sheet := by
  unfold injectedSheet StyleSite.injectionDemand
  cases context.project.injectedFragments host with
  | nil => rfl
  | cons fragment rest =>
      cases rest with
      | nil =>
          by_cases own : fragment.shreds.map Shred.host = [host]
          · by_cases compiled : fragment.document.isStylesheet = true
            · simp only [own, compiled, if_true]
            · simp only [own, compiled, if_true, Bool.false_eq_true, if_false]
          · simp only [own, if_false]
      | cons second others => rfl

theorem resolveInjected_embedded (context : ResolutionContext σ) (site : StyleSite)
    (host : InjectionHost) (sheet : Document) (resolution : Resolution σ)
    (found : context.injectedSheet host = .ok (some sheet)) :
    context.resolveInjected site.location host resolution =
      context.resolveEmbedded site sheet resolution := by
  unfold resolveInjected resolveEmbedded
  simp only [found, compileFor_location]
  cases context.compiler.compile sheet context.module resolution.compilerState with
  | mk reply after => cases reply <;> rfl

theorem resolveReference_shared (context : ResolutionContext σ) (site : StyleSite)
    (value : String) (sheet : Document) (resolution : Resolution σ)
    (found : context.referencedSheet site.document site.location value = .ok sheet) :
    context.resolveReference site.document site.location value resolution =
      context.resolveShared site sheet resolution := by
  unfold resolveReference resolveShared ArtifactStore.lookupOrCreate
  simp only [found, compileFor_location]
  cases resolution.store.index.get? sheet.file with
  | some handle => rfl
  | none =>
      cases context.compiler.compile sheet context.module resolution.compilerState with
      | mk reply after => cases reply <;> rfl

/-- Resolving a tag is fulfilling its demand. -/
theorem resolve_eq (context : ResolutionContext σ) (site : StyleSite)
    (resolution : Resolution σ) :
    context.resolve site.document site.tag resolution =
      match context.demand site with
      | .nothing => (.ok none, resolution)
      | .unusable invalid => (.error (.property invalid), resolution)
      | .broken failure => (.error failure, resolution)
      | .shared sheet => context.resolveShared site sheet resolution
      | .embedded sheet => context.resolveEmbedded site sheet resolution := by
  unfold resolve demand StyleSite.demand
  cases Attachment.of context.project context.sourceAttribute site.document site.tag with
  | nothing => rfl
  | reference value =>
      change context.resolveReference site.document site.location value resolution = _
      simp only [referencedSheet_location]
      cases found : context.referencedSheet site.document site.location value with
      | error invalid => simp only [resolveReference, found]
      | ok sheet => exact context.resolveReference_shared site value sheet resolution found
  | injected host =>
      change context.resolveInjected site.location host resolution = _
      simp only [injectedSheet_demand]
      cases found : context.injectedSheet host with
      | error failure => simp only [resolveInjected, found]
      | ok sheet? =>
          cases sheet? with
          | none => simp only [resolveInjected, found]
          | some sheet => exact context.resolveInjected_embedded site host sheet resolution found

end ResolutionContext

end ComponentStyles
