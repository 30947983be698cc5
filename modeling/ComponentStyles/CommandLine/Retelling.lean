import ComponentStyles.CommandLine.Report
import ComponentStyles.Css.Skipped

/-!
A pass retold in notices.

A pass over a project that nobody works on depends on nothing but the project, so it can be gone
through once more, step by step, to tell what happens.
-/

namespace ComponentStyles

open CommandLine

def Css.SkippedAtRule.notice : Css.SkippedAtRule → Notice
  | statement header => { level := .detail, text := "skipping statement " ++ header }
  | block header => { level := .detail, text := "skipping " ++ header ++ " block" }

def Document.compilationNotices (document : Document) (module : ModuleName) : List Notice :=
  let skipped := (Css.skippedAtRules document.text).map Css.SkippedAtRule.notice
  match Css.rules document.text with
  | .error _ => skipped
  | .ok found =>
      skipped ++
        [{ level := .detail
           text := "compiling " ++ toString found.length ++ " rules from " ++
             document.file.path ++ " for " ++ module.text }]

def ProblemLog.noticesSince (log earlier : ProblemLog) : List Notice :=
  (log.problems.extract earlier.problems.size log.problems.size).toList.map Problem.notice

namespace ResolutionContext

def referenceNotices (context : ResolutionContext Sheet.Sinks) (document stylesheet : Document)
    (store : ArtifactStore) (isMade : Bool) : List Notice :=
  let target := stylesheet.file.path
  if (store.index.get? stylesheet.file).isSome then
    [{ level := .detail, text := "identity cache hit for " ++ target },
     { level := .step
       text := target ++ " already compiled; adding user " ++ document.file.path }]
  else
    { level := .detail, text := "identity cache miss for " ++ target } ::
      stylesheet.compilationNotices context.module ++
      (if isMade then
        [{ level := .step
           text := "compiled external stylesheet " ++ target ++ " for " ++ document.file.path }]
      else [])

def injectionNotices (context : ResolutionContext Sheet.Sinks) (stylesheet : Document)
    (isMade : Bool) : List Notice :=
  stylesheet.compilationNotices context.module ++
    (if isMade then
      [{ level := .step
         text := "compiled inline stylesheet hosted by " ++
           (Project.hostingFile stylesheet).path }]
    else [])

def tagNotices (context : ResolutionContext Sheet.Sinks) (document : Document) (tag : Element)
    (store : ArtifactStore) (isMade : Bool) : List Notice :=
  match Attachment.of context.project context.sourceAttribute document tag with
  | .reference value =>
      match context.referencedSheet document (tagLocation document tag) value with
      | .ok stylesheet => context.referenceNotices document stylesheet store isMade
      | .error _ => []
  | .injected host =>
      match context.injectedSheet host with
      | .ok (some stylesheet) => context.injectionNotices stylesheet isMade
      | _ => []
  | .nothing => []

end ResolutionContext

structure Retelling where
  state : PassState Sheet.Sinks
  notices : Array Notice

namespace Retelling

def say (retelling : Retelling) (level : NoticeLevel) (text : String) : Retelling :=
  { retelling with notices := retelling.notices.push { level, text } }

def tag (context : ResolutionContext Sheet.Sinks) (document : Document) (retelling : Retelling)
    (tag : Element) : Retelling :=
  let state := retelling.state
  let resolved := context.resolveTags document [tag] state 0
  let isMade := resolved.2.log.problems.size == state.log.problems.size
  { state := resolved.2
    notices := retelling.notices ++
      context.tagNotices document tag state.resolution.store isMade ++
      resolved.2.log.noticesSince state.log }

def declared (context : ResolutionContext Sheet.Sinks) (style : StyleTagSettings)
    (retelling : Retelling) (declared : ComponentClass) : Retelling :=
  match context.project.backingDocument? declared with
  | none =>
      retelling.say .detail (declared.name.qualified ++ " has no markup document with content")
  | some document =>
      let state := retelling.state
      let entered :=
        { retelling with state := { state with log := state.log.enter document.file } }
      let after := (style.tagsOf document).foldl (tag context document) entered
      let left :=
        { after with state := { after.state with log := after.state.log.leave } }
      let made := after.state.resolution.store.size - state.resolution.store.size
      left.say .detail (declared.name.qualified ++ ": " ++ toString made ++ " holders")

def base (context : ResolutionContext Sheet.Sinks) (style : StyleTagSettings)
    (progress : List ClassName × Retelling) (base : ComponentClass) :
    List ClassName × Retelling :=
  let found :=
    firstOfEachName progress.1 (context.project.findInheritors base true (.own context.module))
  let searching :=
    progress.2.say .step
      (context.module.text ++ ": searching inheritors of " ++ base.name.qualified)
  (found.map ComponentClass.name ++ progress.1,
    found.foldl (declared context style) searching)

end Retelling

namespace Project

def baseTypeNotices (project : Project) (settings : Settings) (module : ModuleName)
    (sdk : SdkVersion) : List Notice :=
  let missing := (settings.baseTypesFor sdk).filter fun name =>
    (project.findClass? name (.withDependencies module)).isNone
  missing.map fun name =>
    { level := .step
      text := module.text ++ ": base type " ++ name.qualified ++
        " is not on the dependency path" }

def applicationNotices (project : Project) (settings : Settings) (module : ModuleName)
    (sdk : SdkVersion) : List Notice :=
  let bases := project.baseClasses settings module sdk
  project.baseTypeNotices settings module sdk ++
    if bases.isEmpty then
      [{ level := .step
         text := module.text ++ ": no style-capable base type resolves for SDK " ++ sdk.text }]
    else
      let context : ResolutionContext Sheet.Sinks :=
        { project, compiler := sheetCompiler
          sourceAttribute := settings.style.sourceAttribute, module }
      let start : Retelling :=
        { state := { resolution := .start .empty, log := .empty }, notices := #[] }
      (bases.foldl (Retelling.base context settings.style) ([], start)).2.notices.toList

def libraryNotices (project : Project) (settings : Settings) (module : ModuleName)
    (library : ComponentModule) : List Notice :=
  let name := settings.library.defaultsSheet
  match project.defaultsSheet? library name with
  | none =>
      [{ level := .step, text := module.text ++ ": no " ++ name ++ " in any source root" }]
  | some document =>
      let (result, _, log) :=
        collectLibrary settings sheetCompiler project module library .empty .empty
      let unusable : List Notice :=
        match result with
        | .ok none => [unusableNotice module document.file]
        | _ => []
      document.compilationNotices module ++ unusable ++ log.noticesSince .empty

def passNotices (project : Project) (settings : Settings) (module : ModuleName) (sdk : String) :
    List Notice :=
  match project.knownModule module with
  | .error _ => []
  | .ok found =>
      { level := .progress
        text := "collecting local styles of " ++ found.nature.text ++ " module " ++
          module.text } ::
        match found.nature with
        | .library => project.libraryNotices settings module found
        | .application =>
            match SdkVersion.parse sdk with
            | .error _ => []
            | .ok version => project.applicationNotices settings module version

end Project

end ComponentStyles
