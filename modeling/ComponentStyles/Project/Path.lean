import ComponentStyles.Name

/-!
Paths of a project.

A path is a sequence of segments between slashes.  Its canonical form has neither empty
segments nor dots, and every climb is taken back with the segment it leaves; a path that climbs
above the project has none.
-/

namespace ComponentStyles.Project

open ComponentStyles.Text

def joinPath (directory name : String) : String :=
  if directory.isEmpty then name else directory ++ "/" ++ name

def parentPath (file : String) : String :=
  String.ofList (leadingSegments '/' file.toList)

def takeSegment (taken : List (List Char)) (segment : List Char) : Option (List (List Char)) :=
  if segment = [] ∨ segment = ['.'] then some taken
  else if segment = ['.', '.'] then
    match taken with
    | [] => none
    | _ :: before => some before
  else some (segment :: taken)

def takeSegments (taken : List (List Char)) : List (List Char) → Option (List (List Char))
  | [] => some taken
  | segment :: rest => (takeSegment taken segment).bind (takeSegments · rest)

def canonicalPath? (path : String) : Option String :=
  (takeSegments [] (path.toList.splitOn '/')).map fun taken =>
    String.ofList (List.intercalate ['/'] taken.reverse)

end ComponentStyles.Project
