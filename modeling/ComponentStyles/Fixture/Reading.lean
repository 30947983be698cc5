import ComponentStyles.Fixture.Basic
import ComponentStyles.Json.Reader

/-!
Fixtures as JSON.

The fixture itself, its modules and its documents refuse unknown fields; elements and classes
pass over them.
-/

namespace ComponentStyles.Fixture

def lineLimit : Nat :=
  4294967295

def fileReader : Json.Reader FileId := fun text =>
  (Json.string text).map fun read => ({ path := read.1 }, read.2)

def moduleNameReader : Json.Reader ModuleName := fun text =>
  (Json.string text).map fun read => ({ text := read.1 }, read.2)

def classNameReader : Json.Reader ClassName := fun text =>
  (Json.string text).map fun read => ({ qualified := read.1 }, read.2)

def nature? : String → Option ModuleNature
  | "application" => some .application
  | "library" => some .library
  | _ => none

def documentKind? : String → Option DocumentKind
  | "markup" => some .markup
  | "stylesheet" => some .stylesheet
  | "other" => some .other
  | _ => none

structure ElementDraft where
  space : Option String
  name : Option String
  attributes : Option (Table String (Option String))
  children : Option (List Element)
  text : Option (Option String)
  language : Option (Option String)
  line : Option (Option Nat)

def elementShape (levels : Nat) (children : Json.Reader (List Element)) :
    Json.Shape ElementDraft Element where
  start := ⟨none, none, none, none, none, none, none⟩
  fields :=
    [.make "ns" (·.space) Json.string fun draft value => { draft with space := some value },
     .make "name" (·.name) Json.string fun draft value => { draft with name := some value },
     .make "attributes" (·.attributes)
       (Json.members levels (Json.optional Json.string) ([] : Table String (Option String)) Table.put)
       fun draft value => { draft with attributes := some value },
     .make "children" (·.children) children
       fun draft value => { draft with children := some value },
     .make "text" (·.text) (Json.optional Json.string)
       fun draft value => { draft with text := some value },
     .make "language" (·.language) (Json.optional Json.string)
       fun draft value => { draft with language := some value },
     .make "line" (·.line) (Json.optional (Json.natural lineLimit))
       fun draft value => { draft with line := some value }]
  strict := false
  finish := fun draft =>
    draft.name.map fun name =>
      { id := 0
        space := draft.space.getD ""
        name
        attributes := draft.attributes.getD []
        children := draft.children.getD []
        text := draft.text.getD none
        language := draft.language.getD none
        line := draft.line.getD none }

/-- An element with its subtree.  Every level of the tree takes two containers. -/
def elementReader : Nat → Json.Reader Element
  | levels + 2 =>
      Json.record (levels + 2) fun inner =>
        elementShape inner (Json.list inner fun _ => elementReader levels)
  | levels =>
      Json.record levels fun inner =>
        elementShape inner (Json.list inner fun _ _ => .error .malformed)

structure ModuleDraft where
  name : Option ModuleName
  nature : Option ModuleNature
  sourceRoots : Option (List FileId)
  dependencies : Option (List ModuleName)

def moduleShape (levels : Nat) : Json.Shape ModuleDraft FixtureModule where
  start := ⟨none, none, none, none⟩
  fields :=
    [.make "name" (·.name) moduleNameReader fun draft value => { draft with name := some value },
     .make "nature" (·.nature) (Json.choice levels nature?)
       fun draft value => { draft with nature := some value },
     .make "source_roots" (·.sourceRoots) (Json.list levels fun _ => fileReader)
       fun draft value => { draft with sourceRoots := some value },
     .make "dependencies" (·.dependencies) (Json.list levels fun _ => moduleNameReader)
       fun draft value => { draft with dependencies := some value }]
  strict := true
  finish := fun draft => do
    let name ← draft.name
    let nature ← draft.nature
    some
      { name, nature
        sourceRoots := draft.sourceRoots.getD []
        dependencies := draft.dependencies.getD [] }

structure DocumentDraft where
  file : Option FileId
  kind : Option DocumentKind
  root : Option (Option Element)
  text : Option String

def documentShape (levels : Nat) : Json.Shape DocumentDraft FixtureDocument where
  start := ⟨none, none, none, none⟩
  fields :=
    [.make "path" (·.file) fileReader fun draft value => { draft with file := some value },
     .make "kind" (·.kind) (Json.choice levels documentKind?)
       fun draft value => { draft with kind := some value },
     .make "root" (·.root) (Json.optional (elementReader levels))
       fun draft value => { draft with root := some value },
     .make "text" (·.text) Json.string fun draft value => { draft with text := some value }]
  strict := true
  finish := fun draft => do
    let file ← draft.file
    let kind ← draft.kind
    some { file, kind, root := draft.root.getD none, text := draft.text.getD "" }

structure ClassDraft where
  name : Option ClassName
  module : Option ModuleName
  extends? : Option (Option ClassName)
  file : Option (Option FileId)

def classShape : Json.Shape ClassDraft ComponentClass where
  start := ⟨none, none, none, none⟩
  fields :=
    [.make "name" (·.name) classNameReader fun draft value => { draft with name := some value },
     .make "module" (·.module) moduleNameReader
       fun draft value => { draft with module := some value },
     .make "extends" (·.extends?) (Json.optional classNameReader)
       fun draft value => { draft with extends? := some value },
     .make "file" (·.file) (Json.optional fileReader)
       fun draft value => { draft with file := some value }]
  strict := false
  finish := fun draft => do
    let name ← draft.name
    let module ← draft.module
    some { name, module, extends? := draft.extends?.getD none, file := draft.file.getD none }

structure FixtureDraft where
  modules : Option (List FixtureModule)
  documents : Option (List FixtureDocument)
  classes : Option (List ComponentClass)

def fixtureShape (levels : Nat) : Json.Shape FixtureDraft Fixture where
  start := ⟨none, none, none⟩
  fields :=
    [.make "modules" (·.modules)
       (Json.list levels fun levels => Json.record levels moduleShape)
       fun draft value => { draft with modules := some value },
     .make "documents" (·.documents)
       (Json.list levels fun levels => Json.record levels documentShape)
       fun draft value => { draft with documents := some value },
     .make "classes" (·.classes)
       (Json.list levels fun levels => Json.record levels fun _ => classShape)
       fun draft value => { draft with classes := some value }]
  strict := true
  finish := fun draft =>
    some
      { modules := draft.modules.getD []
        documents := draft.documents.getD []
        classes := draft.classes.getD [] }

def parse (text : String) : Except FixtureFault Fixture :=
  match Json.whole (Json.record Json.nestingLimit fixtureShape) text.toList with
  | .error fault => .error (.malformed fault)
  | .ok fixture => fixture.checked

end ComponentStyles.Fixture
