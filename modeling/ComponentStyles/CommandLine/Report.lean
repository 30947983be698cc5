import ComponentStyles.CommandLine.Notice
import ComponentStyles.Json.Printer
import ComponentStyles.Pass.Collection
import ComponentStyles.Sheet.Compiler

/-!
What a pass over a module is reported as, for readers and for programs.
-/

namespace ComponentStyles

def Problem.notice (problem : Problem) : CommandLine.Notice :=
  { level := .warning, text := problem.file.path ++ ": " ++ problem.message }

namespace CommandLine

def unusableNotice (module : ModuleName) (file : FileId) : Notice :=
  { level := .warning
    text := module.text ++ ": defaults stylesheet " ++ file.path ++ " does not compile" }

structure Report where
  module : ModuleName
  sdk : String
  artifacts : Option (List Artifact)
  problems : List Problem
  sinks : Sheet.Sinks

namespace Report

def padded (width : Nat) (text : String) : String :=
  text ++ "".pushn ' ' (width - text.length)

def artifactLines (artifact : Artifact) : List String :=
  ("  " ++ padded 8 artifact.origin.kindName ++ " " ++ artifact.file.path ++ "  " ++
      toString artifact.data.length ++ " bytes  " ++
      String.ofList (artifact.digest.toList.take 12)) ::
    artifact.users.map fun user => "           used by " ++ user.path

def summaryLines (report : Report) : List String :=
  match report.artifacts with
  | none => [report.module.text ++ ": nothing to style"]
  | some artifacts =>
      [report.module.text ++ ": " ++ toString artifacts.length ++ " local style holders (SDK " ++
          report.sdk ++ ")"] ++
        artifacts.flatMap artifactLines ++
        ["  " ++ toString report.sinks.strings.size ++ " strings, " ++
          toString report.sinks.components.total ++ " component references, " ++
          toString report.sinks.assets.total ++ " assets"]

def lines (report : Report) : List String :=
  report.summaryLines ++ report.problems.map fun problem => "warning: " ++ problem.text

def conclusion (report : Report) : Notice :=
  let text :=
    match report.artifacts with
    | none => "nothing to style"
    | some artifacts =>
        toString artifacts.length ++ " local style holders, " ++
          toString report.problems.length ++ " problems"
  { level := .progress, text := report.module.text ++ ": " ++ text }

def warnings (report : Report) : List Notice :=
  report.problems.flatMap fun problem =>
    if report.artifacts.isNone then
      [unusableNotice report.module problem.file, problem.notice]
    else [problem.notice]

def artifactValue (artifact : Artifact) : Json.Value :=
  .object
    [("file", .string artifact.file.path),
     ("kind", .string artifact.origin.kindName),
     ("size", .natural artifact.data.length),
     ("digest", .string artifact.digest),
     ("users", .array (artifact.users.map fun user => .string user.path))]

def problemValue (problem : Problem) : Json.Value :=
  .object
    [("file", .string problem.file.path),
     ("line", match problem.line with
       | some line => .natural line
       | none => .null),
     ("message", .string problem.message)]

def value (report : Report) : Json.Value :=
  .object
    [("module", .string report.module.text),
     ("sdk", .string report.sdk),
     ("holders", match report.artifacts with
       | some artifacts => .array (artifacts.map artifactValue)
       | none => .null),
     ("problems", .array (report.problems.map problemValue)),
     ("interned_strings", .natural report.sinks.strings.size),
     ("component_references", .natural report.sinks.components.total),
     ("assets", .natural report.sinks.assets.total)]

def text (report : Report) (json : Bool) : String :=
  if json then report.value.text ++ "\n"
  else String.join (report.lines.map (· ++ "\n"))

end Report

end CommandLine

end ComponentStyles
