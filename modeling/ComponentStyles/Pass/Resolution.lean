import ComponentStyles.Artifact.Store
import ComponentStyles.Pass.Attachment
import ComponentStyles.Pass.Failure
import ComponentStyles.Project.Reference
import ComponentStyles.Sheet.Compiler

/-!
Resolving style tags to artifacts.

A stylesheet of its own is compiled when the first tag refers to it; a later tag adds its
document as a user.  Injected content is compiled for every tag.
-/

namespace ComponentStyles

structure ResolutionContext (σ : Type) where
  project : Project
  compiler : StyleCompiler σ
  sourceAttribute : String
  module : ModuleName

structure Resolution (σ : Type) where
  store : ArtifactStore
  compilerState : σ

variable {σ : Type}

def Resolution.start (compilerState : σ) : Resolution σ :=
  { store := .empty, compilerState }

def tagLocation (document : Document) (tag : Element) : ElementLocation :=
  { file := document.file, element := tag.id, line := tag.line }

namespace ResolutionContext

def compileFor (context : ResolutionContext σ) (location : ElementLocation)
    (stylesheet : Document) (state : σ) : Except PassFailure (List UInt8) × σ :=
  match context.compiler.compile stylesheet context.module state with
  | (.ok data, after) => (.ok data, after)
  | (.error (.stylesheet file reason), after) =>
      (.error (.property
        { location, key := Message.notCompiledKey, arguments := [file, reason] }), after)
  | (.error failure, after) => (.error (.host failure), after)

def referencedSheet (context : ResolutionContext σ) (document : Document)
    (location : ElementLocation) (value : String) : Except InvalidProperty Document :=
  match context.project.resolveReference? document.file value with
  | none => .error { location, key := Message.notFoundKey, arguments := [value] }
  | some target =>
      match context.project.document? target with
      | some stylesheet =>
          if stylesheet.isStylesheet then .ok stylesheet
          else
            .error { location, key := Message.notStylesheetKey, arguments := [target.fileName] }
      | none =>
          .error { location, key := Message.notStylesheetKey, arguments := [target.fileName] }

def resolveReference (context : ResolutionContext σ) (document : Document)
    (location : ElementLocation) (value : String) (resolution : Resolution σ) :
    Except PassFailure (Option Nat) × Resolution σ :=
  match context.referencedSheet document location value with
  | .error invalid => (.error (.property invalid), resolution)
  | .ok stylesheet =>
      let create : σ → Except PassFailure Artifact × σ := fun state =>
        match context.compileFor location stylesheet state with
        | (.ok data, after) => (.ok (.external stylesheet.file data document.file), after)
        | (.error failure, after) => (.error failure, after)
      match resolution.store.lookupOrCreate stylesheet.file create resolution.compilerState with
      | (.error failure, store, compilerState) => (.error failure, { store, compilerState })
      | (.ok (.created handle), store, compilerState) =>
          (.ok (some handle), { store, compilerState })
      | (.ok (.existing handle), store, compilerState) =>
          (.ok none, { store := (store.addUser handle document.file).2, compilerState })

def injectedSheet (context : ResolutionContext σ) (host : InjectionHost) :
    Except PassFailure (Option Document) :=
  match context.project.injectedFragments host with
  | [] => .ok none
  | [fragment] =>
      if fragment.shreds.map Shred.host = [host] then
        if fragment.document.isStylesheet then .ok (some fragment.document) else .ok none
      else .error (.strayShreds fragment.document.file fragment.shreds.length host)
  | fragments => .error (.severalFragments fragments.length host)

def resolveInjected (context : ResolutionContext σ) (location : ElementLocation)
    (host : InjectionHost) (resolution : Resolution σ) :
    Except PassFailure (Option Nat) × Resolution σ :=
  match context.injectedSheet host with
  | .error failure => (.error failure, resolution)
  | .ok none => (.ok none, resolution)
  | .ok (some stylesheet) =>
      match context.compileFor location stylesheet resolution.compilerState with
      | (.error failure, compilerState) => (.error failure, { resolution with compilerState })
      | (.ok data, compilerState) =>
          let pushed :=
            resolution.store.push (.inlined (Project.hostingFile stylesheet) data)
          (.ok (some pushed.1), { store := pushed.2, compilerState })

/-- Resolves one style tag of a document: the handle of the artifact made for it, or none if
it attaches nothing or a stylesheet that has its artifact already. -/
def resolve (context : ResolutionContext σ) (document : Document) (tag : Element)
    (resolution : Resolution σ) : Except PassFailure (Option Nat) × Resolution σ :=
  let location := tagLocation document tag
  match Attachment.of context.project context.sourceAttribute document tag with
  | .reference value => context.resolveReference document location value resolution
  | .injected host => context.resolveInjected location host resolution
  | .nothing => (.ok none, resolution)

end ResolutionContext

end ComponentStyles
