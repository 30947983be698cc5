import ComponentStyles.Pass.Extraction
import ComponentStyles.Project.Inheritors
import ComponentStyles.Source.Barrier

/-!
Collecting the styles of a module.

A pass waits for a consistent source model and holds read access while it runs.  An application
is searched for components, which descend from the base types of its SDK; a library gives its
defaults stylesheet.  A module without either has nothing to style.
-/

namespace ComponentStyles

structure Host where
  project : Project
  signals : Signals

def Host.ofProject (project : Project) : Host :=
  { project, signals := .initial }

variable {σ : Type}

def Project.defaultsSheet? (project : Project) (library : ComponentModule) (name : String) :
    Option Document :=
  (library.sourceRoots.findSome? (project.findChild? · name)).bind project.document?

/-- Collects the styles of a library.  A stylesheet that does not compile is recorded as a
problem, and the library has then nothing to style. -/
def collectLibrary (settings : Settings) (compiler : StyleCompiler σ) (project : Project)
    (module : ModuleName) (library : ComponentModule) (state : σ) (log : ProblemLog) :
    Except PassFailure (Option (List Artifact)) × σ × ProblemLog :=
  match project.defaultsSheet? library settings.library.defaultsSheet with
  | none => (.ok none, state, log)
  | some document =>
      match compiler.compile document module state with
      | (.ok data, after) => (.ok (some [.defaults document.file data]), after, log)
      | (.error (.stylesheet file reason), after) =>
          (.ok none, after, log.report document.file Message.notCompiledKey [file, reason])
      | (.error failure, after) => (.error (.host failure), after, log)

def Project.baseClasses (project : Project) (settings : Settings) (module : ModuleName)
    (sdk : SdkVersion) : List ComponentClass :=
  (settings.baseTypesFor sdk).filterMap (project.findClass? · (.withDependencies module))

def firstOfEachName (seen : List ClassName) : List ComponentClass → List ComponentClass
  | [] => []
  | declared :: rest =>
      if declared.name ∈ seen then firstOfEachName seen rest
      else declared :: firstOfEachName (declared.name :: seen) rest

/-- The module's own components: the classes that descend from the base types, nearest first
under each of them, and each name once. -/
def Project.components (project : Project) (module : ModuleName) (bases : List ComponentClass) :
    List ComponentClass :=
  firstOfEachName [] (bases.flatMap fun base => project.findInheritors base true (.own module))

def collectApplication (settings : Settings) (compiler : StyleCompiler σ) (project : Project)
    (module : ModuleName) (sdk : SdkVersion) (state : σ) (log : ProblemLog) :
    Except PassFailure (Option (List Artifact)) × σ × ProblemLog :=
  let bases := project.baseClasses settings module sdk
  if bases.isEmpty then (.ok none, state, log)
  else
    let context : ResolutionContext σ :=
      { project, compiler, sourceAttribute := settings.style.sourceAttribute, module }
    let start : PassState σ := { resolution := .start state, log }
    match context.extractAll settings.style (project.components module bases) start with
    | (.ok _, after) =>
        (.ok (some after.resolution.store.artifacts.toList), after.resolution.compilerState, after.log)
    | (.error failure, after) => (.error failure, after.resolution.compilerState, after.log)

def collectConsistent (settings : Settings) (compiler : StyleCompiler σ) (project : Project)
    (module : ModuleName) (sdk : String) (state : σ) (log : ProblemLog) :
    Except PassFailure (Option (List Artifact)) × σ × ProblemLog :=
  match project.knownModule module with
  | .error failure => (.error (.host failure), state, log)
  | .ok found =>
      match found.nature with
      | .library => collectLibrary settings compiler project module found state log
      | .application =>
          match SdkVersion.parse sdk with
          | .error fault => (.error (.sdk fault), state, log)
          | .ok version => collectApplication settings compiler project module version state log

structure PassOutcome (σ : Type) where
  result : Except PassFailure (Option (List Artifact))
  compilerState : σ
  log : ProblemLog
  signals : Signals

def BarrierPhase.failure : BarrierPhase → PassFailure
  | stopped => .host .executorStopped
  | _ => .commitWait

/-- Collects the styles of a module once the source model is consistent, with read access held
meanwhile.  There is no outcome when waiting would never end; `events` are what other threads do
until then. -/
def Host.collect (host : Host) (settings : Settings) (compiler : StyleCompiler σ)
    (module : ModuleName) (sdk : String) (state : σ) (log : ProblemLog) (thread : Nat)
    (events : List SourceEvent) : Option (PassOutcome σ) :=
  match host.signals.awaitConsistency thread events with
  | none => none
  | some (.passed, signals) =>
      let reading := signals.acquire thread
      let collected := collectConsistent settings compiler host.project module sdk state log
      some
        { result := collected.1
          compilerState := collected.2.1
          log := collected.2.2
          signals := reading.release thread }
  | some (phase, signals) =>
      some { result := .error phase.failure, compilerState := state, log, signals }

end ComponentStyles
