import ComponentStyles.Name
import ComponentStyles.Problem.Message

/-!
Problems that authors cause, and the log that a pass keeps of them.

While a file is entered, problems are put down to that file.  Leaving a file leaves none
entered, whatever was entered before it.
-/

namespace ComponentStyles

structure ElementLocation where
  file : FileId
  element : Nat
  line : Option Nat
  deriving DecidableEq, Repr

def FileId.atLine (file : FileId) (line : Option Nat) : String :=
  match line with
  | some number => file.path ++ ":" ++ toString number
  | none => file.path

def ElementLocation.text (location : ElementLocation) : String :=
  location.file.atLine location.line

structure InvalidProperty where
  location : ElementLocation
  key : String
  arguments : List String
  deriving DecidableEq, Repr

namespace InvalidProperty

def message (property : InvalidProperty) : String :=
  Message.render property.key property.arguments

def text (property : InvalidProperty) : String :=
  property.location.text ++ ": " ++ property.message

end InvalidProperty

structure Problem where
  file : FileId
  line : Option Nat
  message : String
  deriving DecidableEq, Repr

def Problem.text (problem : Problem) : String :=
  problem.file.atLine problem.line ++ ": " ++ problem.message

structure ProblemLog where
  current : Option FileId
  problems : Array Problem
  deriving DecidableEq, Repr

namespace ProblemLog

def empty : ProblemLog :=
  { current := none, problems := #[] }

/-- Records a problem under the entered file, or else under its own. -/
def record (log : ProblemLog) (file : FileId) (line : Option Nat) (message : String) :
    ProblemLog :=
  { log with
    problems := log.problems.push { file := log.current.getD file, line, message } }

def add (log : ProblemLog) (property : InvalidProperty) : ProblemLog :=
  log.record property.location.file property.location.line property.message

def report (log : ProblemLog) (file : FileId) (key : String) (arguments : List String) :
    ProblemLog :=
  log.record file none (Message.render key arguments)

def setCurrent (log : ProblemLog) (file : Option FileId) : ProblemLog :=
  { log with current := file }

def enter (log : ProblemLog) (file : FileId) : ProblemLog :=
  log.setCurrent (some file)

def leave (log : ProblemLog) : ProblemLog :=
  log.setCurrent none

end ProblemLog

end ComponentStyles
