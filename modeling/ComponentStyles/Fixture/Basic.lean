import ComponentStyles.Json.Lexical
import ComponentStyles.Project.Basic

/-!
Fixtures: descriptions of a whole project.

A fixture is accepted when its names are distinct and everything it names is declared in it.
An accepted fixture becomes a project with just its modules, documents and classes.
-/

namespace ComponentStyles

structure FixtureModule where
  name : ModuleName
  nature : ModuleNature
  sourceRoots : List FileId
  dependencies : List ModuleName
  deriving DecidableEq, Repr

/-- A document of a fixture.  Whatever its kind, it may be written with a tree and a text. -/
structure FixtureDocument where
  file : FileId
  kind : DocumentKind
  root : Option Element
  text : String
  deriving Repr

def FixtureModule.componentModule (module : FixtureModule) :
    ComponentModule :=
  { nature := module.nature, sourceRoots := module.sourceRoots
    dependencies := module.dependencies }

def FixtureDocument.document (described : FixtureDocument) : Document :=
  Document.ofKind described.kind described.file described.root described.text

structure Fixture where
  modules : List FixtureModule
  documents : List FixtureDocument
  classes : List ComponentClass
  deriving Repr

inductive FixtureFault where
  | unreadable (reason : String)
  | malformed (fault : Json.Fault)
  | duplicateModule (name : ModuleName)
  | unknownDependency (module dependency : ModuleName)
  | duplicateDocument (file : FileId)
  | treeOutsideMarkup (file : FileId)
  | classInUnknownModule (name : ClassName) (module : ModuleName)
  | classAtUnknownDocument (name : ClassName) (file : FileId)
  deriving DecidableEq, Repr

def FixtureFault.failure : FixtureFault → HostFailure
  | unreadable reason => .unreadable reason
  | malformed fault => .malformed fault.message
  | duplicateModule name => .fixture ("duplicate module '" ++ name.text ++ "'")
  | unknownDependency module dependency =>
      .fixture ("module '" ++ module.text ++ "' depends on unknown module '" ++
        dependency.text ++ "'")
  | duplicateDocument file => .fixture ("duplicate document '" ++ file.path ++ "'")
  | treeOutsideMarkup file =>
      .fixture ("document '" ++ file.path ++ "' has an element tree but is not markup")
  | classInUnknownModule name module =>
      .fixture ("class '" ++ name.qualified ++ "' belongs to unknown module '" ++
        module.text ++ "'")
  | classAtUnknownDocument name file =>
      .fixture ("class '" ++ name.qualified ++ "' points at unknown document '" ++
        file.path ++ "'")

def FixtureFault.message (fault : FixtureFault) : String :=
  fault.failure.message

namespace Fixture

def moduleNames (fixture : Fixture) : List ModuleName :=
  fixture.modules.map FixtureModule.name

def files (fixture : Fixture) : List FileId :=
  fixture.documents.map FixtureDocument.file

def duplicateModule? (seen : List ModuleName) : List FixtureModule → Option FixtureFault
  | [] => none
  | module :: rest =>
      if module.name ∈ seen then some (.duplicateModule module.name)
      else duplicateModule? (module.name :: seen) rest

def dependencyFault? (declared : List ModuleName) (module : FixtureModule) :
    Option FixtureFault :=
  (module.dependencies.find? (· ∉ declared)).map (.unknownDependency module.name)

/-- The first document whose path has been seen before, or that has a tree without being
markup. -/
def documentFault? (seen : List FileId) : List FixtureDocument → Option FixtureFault
  | [] => none
  | document :: rest =>
      if document.file ∈ seen then some (.duplicateDocument document.file)
      else if document.root.isSome ∧ document.kind ≠ .markup then
        some (.treeOutsideMarkup document.file)
      else documentFault? (document.file :: seen) rest

def classFault? (declared : List ModuleName) (stored : List FileId) (declaration : ComponentClass) :
    Option FixtureFault :=
  if declaration.module ∉ declared then
    some (.classInUnknownModule declaration.name declaration.module)
  else
    match declaration.file with
    | none => none
    | some file =>
        if file ∈ stored then none else some (.classAtUnknownDocument declaration.name file)

/-- The first fault of a fixture: module names, then dependencies, documents and classes. -/
def fault? (fixture : Fixture) : Option FixtureFault :=
  ((duplicateModule? [] fixture.modules).or
    (fixture.modules.findSome? (dependencyFault? fixture.moduleNames))).or
  ((documentFault? [] fixture.documents).or
    (fixture.classes.findSome? (classFault? fixture.moduleNames fixture.files)))

def checked (fixture : Fixture) : Except FixtureFault Fixture :=
  match fixture.fault? with
  | some fault => .error fault
  | none => .ok fixture

def project (fixture : Fixture) : Project :=
  let withModules := fixture.modules.foldl
    (fun (project : Project) module => project.addModule module.name module.componentModule)
    Project.empty
  let withDocuments := fixture.documents.foldl
    (fun (project : Project) described => project.addDocument described.document) withModules
  { withDocuments with classes := fixture.classes }

end Fixture

end ComponentStyles
