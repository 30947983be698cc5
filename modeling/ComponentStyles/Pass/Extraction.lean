import ComponentStyles.Pass.Resolution
import ComponentStyles.Settings.Basic

/-!
Extracting the style tags of a component.

Style tags stand directly under the root of the markup document that a class is backed by.
Their problems are recorded under that document and do not keep the other tags from being
resolved.
-/

namespace ComponentStyles

/-- The markup document that backs a class, if anything stands under its root. -/
def Project.backingDocument? (project : Project) (declared : ComponentClass) : Option Document := do
  let file ← declared.file
  let document ← project.document? file
  let root ← document.root
  if document.kind == .markup && !root.children.isEmpty then some document else none

def StyleTagSettings.tagsOf (style : StyleTagSettings) (document : Document) : List Element :=
  match document.root with
  | some root => root.children.filter (·.isNamed style.space style.tag)
  | none => []

structure PassState (σ : Type) where
  resolution : Resolution σ
  log : ProblemLog

variable {σ : Type}

namespace ResolutionContext

def resolveTags (context : ResolutionContext σ) (document : Document) (tags : List Element)
    (state : PassState σ) (made : Nat) : Except PassFailure Nat × PassState σ :=
  match tags with
  | [] => (.ok made, state)
  | tag :: rest =>
      match context.resolve document tag state.resolution with
      | (.ok (some _), resolution) =>
          context.resolveTags document rest { state with resolution } (made + 1)
      | (.ok none, resolution) => context.resolveTags document rest { state with resolution } made
      | (.error (.property invalid), resolution) =>
          context.resolveTags document rest { resolution, log := state.log.add invalid } made
      | (.error failure, resolution) => (.error failure, { state with resolution })

/-- Resolves every style tag of a class.  Its document is entered meanwhile and left on every
way out. -/
def extract (context : ResolutionContext σ) (style : StyleTagSettings)
    (declared : ComponentClass) (state : PassState σ) : Except PassFailure Nat × PassState σ :=
  match context.project.backingDocument? declared with
  | none => (.ok 0, state)
  | some document =>
      let entered : PassState σ := { state with log := state.log.enter document.file }
      let resolved := context.resolveTags document (style.tagsOf document) entered 0
      (resolved.1, { resolved.2 with log := resolved.2.log.leave })

def extractAll (context : ResolutionContext σ) (style : StyleTagSettings)
    (classes : List ComponentClass) (state : PassState σ) : Except PassFailure Unit × PassState σ :=
  match classes with
  | [] => (.ok (), state)
  | declared :: rest =>
      match context.extract style declared state with
      | (.ok _, after) => context.extractAll style rest after
      | (.error failure, after) => (.error failure, after)

end ResolutionContext

end ComponentStyles
