import ComponentStyles.CommandLine.Arguments
import ComponentStyles.CommandLine.Retelling
import ComponentStyles.Fixture.Reading
import ComponentStyles.Settings.FromToml

/-!
Runs of the program: what is printed for given arguments, and the exit code.
-/

namespace ComponentStyles.CommandLine

structure Printed where
  code : UInt8
  output : String
  errors : String
  deriving DecidableEq, Repr

inductive RunFailure where
  | settings (fault : SettingsFault)
  | fixture (fault : FixtureFault)
  | pass (failure : PassFailure)

def RunFailure.message : RunFailure → String
  | settings fault => fault.message
  | fixture fault => fault.message
  | pass failure => failure.message

def RunFailure.code : RunFailure → UInt8
  | settings _ => 2
  | fixture _ => 2
  | pass _ => 3

def usage : String :=
  "Usage: localstyle [--json] [--verbose] [--trace] collect <FIXTURE> " ++
    "--module <MODULE> --sdk <SDK> [--config <CONFIG>]\n"

def Ending.printed : Ending → Printed
  | help => { code := 0, output := usage, errors := "" }
  | version => { code := 0, output := "localstyle 0.1.0\n", errors := "" }
  | nothing => { code := 2, output := "", errors := usage }
  | fault found => { code := 2, output := "", errors := "error: " ++ found.message ++ "\n" }

def settingsOf (read : Except String String) : Except RunFailure Settings :=
  match read with
  | .error reason => .error (.settings (.unreadable reason))
  | .ok text =>
      match Settings.parseToml text with
      | .error fault => .error (.settings fault)
      | .ok settings => .ok settings

def projectOf (read : Except String String) : Except RunFailure Project :=
  match read with
  | .error reason => .error (.fixture (.unreadable reason))
  | .ok text =>
      match Fixture.parse text with
      | .error fault => .error (.fixture fault)
      | .ok fixture => .ok fixture.project

structure Material where
  settings : Settings
  project : Project

def CollectRequest.material {m : Type → Type} [Monad m]
    (read : String → m (Except String String)) (request : CollectRequest) :
    m (Except RunFailure Material) := do
  let settings ←
    match request.config with
    | none => pure (.ok Settings.standard)
    | some path => do pure (settingsOf (← read path))
  match settings with
  | .error failure => pure (.error failure)
  | .ok settings =>
      match projectOf (← read request.fixture) with
      | .error failure => pure (.error failure)
      | .ok project => pure (.ok { settings, project })

def CollectRequest.report (request : CollectRequest) (material : Material) :
    Except RunFailure Report :=
  match collectConsistent material.settings sheetCompiler material.project request.module
      request.sdk Sheet.Sinks.empty ProblemLog.empty with
  | (.error failure, _, _) => .error (.pass failure)
  | (.ok artifacts, sinks, log) =>
      .ok
        { module := request.module, sdk := request.sdk, artifacts, problems := log.problems.toList
          sinks }

def CollectRequest.story (request : CollectRequest) (material : Material) : List Notice :=
  { level := .step, text := "loaded fixture " ++ request.fixture } ::
    material.project.passNotices material.settings request.module request.sdk

/-- What is said on the error output.  The pass is not retold for its warnings alone, which the
report has. -/
def CollectRequest.notices (request : CollectRequest) (material : Material)
    (outcome : Except RunFailure Report) : List Notice :=
  if request.noticeLevel = .warning then
    match outcome with
    | .error _ => []
    | .ok report => report.warnings
  else
    let conclusion :=
      match outcome with
      | .error _ => []
      | .ok report => [report.conclusion]
    (request.story material ++ conclusion).filter (·.isWanted request.noticeLevel)

def RunFailure.printed (failure : RunFailure) (said : String) : Printed :=
  { code := failure.code, output := "", errors := said ++ "error: " ++ failure.message ++ "\n" }

def CollectRequest.printed (request : CollectRequest) (material : Material) : Printed :=
  let outcome := request.report material
  let said := String.join ((request.notices material outcome).map Notice.line)
  match outcome with
  | .error failure => failure.printed said
  | .ok report => { code := 0, output := report.text request.json, errors := said }

def run {m : Type → Type} [Monad m] (read : String → m (Except String String))
    (arguments : List String) : m Printed :=
  match request arguments with
  | .error ending => pure ending.printed
  | .ok request => do
      match ← request.material read with
      | .error failure => pure (failure.printed "")
      | .ok material => pure (request.printed material)

end ComponentStyles.CommandLine
