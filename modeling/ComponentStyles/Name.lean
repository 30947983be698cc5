import ComponentStyles.Text.Segment

/-!
Identifiers: files, classes and modules.

Each is a text of its own kind, kept as written.  A file's name is the last segment of its
path, a class's short name the last segment of its qualified name.
-/

namespace ComponentStyles

structure FileId where
  path : String
  deriving DecidableEq, Repr, Inhabited

structure ClassName where
  qualified : String
  deriving DecidableEq, Repr, Inhabited

structure ModuleName where
  text : String
  deriving DecidableEq, Repr, Inhabited

def FileId.fileName (file : FileId) : String :=
  String.ofList (Text.lastSegment '/' file.path.toList)

def ClassName.shortName (name : ClassName) : String :=
  String.ofList (Text.lastSegment '.' name.qualified.toList)

instance : ToString FileId := ⟨FileId.path⟩
instance : ToString ClassName := ⟨ClassName.qualified⟩
instance : ToString ModuleName := ⟨ModuleName.text⟩

end ComponentStyles
