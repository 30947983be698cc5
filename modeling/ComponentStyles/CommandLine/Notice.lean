import ComponentStyles.Text.Guarded

/-!
Notices: what is said on the error output while a request is carried out.
-/

namespace ComponentStyles.CommandLine

inductive NoticeLevel where
  | warning
  | progress
  | step
  | detail
  deriving DecidableEq, Repr

namespace NoticeLevel

def rank : NoticeLevel → Nat
  | warning => 0
  | progress => 1
  | step => 2
  | detail => 3

def label : NoticeLevel → String
  | warning => " WARN"
  | progress => " INFO"
  | step => "DEBUG"
  | detail => "TRACE"

end NoticeLevel

structure Notice where
  level : NoticeLevel
  text : String
  deriving DecidableEq, Repr

namespace Notice

/-- The notice as it is printed.  A notice may quote any text of the project, so it is guarded. -/
def line (notice : Notice) : String :=
  notice.level.label ++ " " ++ Text.guarded notice.text ++ "\n"

def isWanted (notice : Notice) (level : NoticeLevel) : Bool :=
  notice.level.rank ≤ level.rank

end Notice

end ComponentStyles.CommandLine
