import ComponentStyles.Project.Basic
import ComponentStyles.Project.Path
import ComponentStyles.Text.Blank

/-!
References from one file to another.

A reference is relative to the directory of the file it stands in.  One that begins with a
slash is relative to the source roots that hold the file; modules are tried in the order of
their names and their roots in the order given.
-/

namespace ComponentStyles.Project

open ComponentStyles.Text

def findChild? (project : Project) (directory : FileId) (name : String) : Option FileId :=
  (project.document? { path := joinPath directory.path name }).map Document.file

/-- The source roots of all modules, modules in the order of their names. -/
def allSourceRoots (project : Project) : List FileId :=
  (project.modules.mergeSort fun left right => left.1.text ≤ right.1.text).flatMap fun entry =>
    entry.2.sourceRoots

/-- A file stands under a root when its path goes on behind the root with a slash. -/
def holdsFile (root file : FileId) : Bool :=
  (root.path ++ "/").toList.isPrefixOf file.path.toList

def candidatePaths (project : Project) (origin : FileId) (value : List Char) : List String :=
  match value with
  | '/' :: rooted =>
      (project.allSourceRoots.filter (holdsFile · origin)).map fun root =>
        joinPath root.path (String.ofList rooted)
  | _ => [joinPath (parentPath origin.path) (String.ofList value)]

def resolveReference? (project : Project) (origin : FileId) (value : String) : Option FileId :=
  let trimmedValue := trim value.toList
  if trimmedValue.isEmpty then none
  else
    ((project.candidatePaths origin trimmedValue).filterMap canonicalPath?).findSome? fun path =>
      (project.document? { path }).map Document.file

end ComponentStyles.Project
