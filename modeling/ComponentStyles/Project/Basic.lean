import ComponentStyles.HostFailure
import ComponentStyles.Markup.Document

/-!
The project: its modules, its documents, its component classes, and what stands in for the
injected content of single elements.
-/

namespace ComponentStyles

inductive ModuleNature where
  | application
  | library
  deriving DecidableEq, Repr

def ModuleNature.text : ModuleNature → String
  | application => "application"
  | library => "library"

structure ComponentModule where
  nature : ModuleNature
  sourceRoots : List FileId
  dependencies : List ModuleName
  deriving DecidableEq, Repr

/-- A declared class.  Compiled library classes have no file. -/
structure ComponentClass where
  name : ClassName
  module : ModuleName
  extends? : Option ClassName
  file : Option FileId
  deriving DecidableEq, Repr

structure InjectionHost where
  file : FileId
  element : Nat
  deriving DecidableEq, Repr

/-- The part of a host's text that an injected fragment was taken from, in bytes. -/
structure Shred where
  host : InjectionHost
  start : Nat
  stop : Nat
  deriving DecidableEq, Repr

structure InjectedFragment where
  document : Document
  shreds : List Shred
  deriving Repr

/-- A project.  Classes stay in the order of their declaration, and a name may be declared more
than once. -/
structure Project where
  modules : Table ModuleName ComponentModule
  documents : List Document
  classes : List ComponentClass
  overrides : Table InjectionHost (List InjectedFragment)
  deriving Repr

namespace Project

def empty : Project :=
  { modules := [], documents := [], classes := [], overrides := [] }

def addModule (project : Project) (name : ModuleName) (added : ComponentModule) : Project :=
  { project with modules := project.modules.put name added }

def putDocument (document : Document) : List Document → List Document
  | [] => [document]
  | stored :: rest =>
      if stored.file = document.file then document :: rest
      else stored :: putDocument document rest

def addDocument (project : Project) (document : Document) : Project :=
  { project with documents := putDocument document project.documents }

def addClass (project : Project) (declared : ComponentClass) : Project :=
  { project with classes := project.classes ++ [declared] }

def overrideFragments (project : Project) (host : InjectionHost)
    (fragments : List InjectedFragment) : Project :=
  { project with overrides := project.overrides.put host fragments }

def module? (project : Project) (name : ModuleName) : Option ComponentModule :=
  project.modules.get? name

def document? (project : Project) (file : FileId) : Option Document :=
  project.documents.find? (·.file == file)

def knownModule (project : Project) (name : ModuleName) : Except HostFailure ComponentModule :=
  match project.module? name with
  | some found => .ok found
  | none => .error (.unknownModule name.text)

theorem file_of_document? {project : Project} {file : FileId} {document : Document}
    (found : project.document? file = some document) : document.file = file := by
  simpa using List.find?_some found

theorem find?_putDocument (document : Document) (documents : List Document) (file : FileId) :
    (putDocument document documents).find? (·.file == file) =
      if document.file = file then some document else documents.find? (·.file == file) := by
  induction documents with
  | nil => by_cases same : document.file = file <;> simp [putDocument, same]
  | cons stored rest inductionHypothesis =>
      by_cases replaced : stored.file = document.file
      · rw [putDocument, if_pos replaced]
        by_cases same : document.file = file <;> simp [replaced, same]
      · rw [putDocument, if_neg replaced]
        by_cases found : stored.file = file
        · have different : document.file ≠ file := fun equal =>
            replaced (found.trans equal.symm)
          simp [found, different]
        · rw [List.find?_cons_of_neg (by simpa using found),
            List.find?_cons_of_neg (by simpa using found), inductionHypothesis]

theorem document?_addDocument (project : Project) (document : Document) (file : FileId) :
    (project.addDocument document).document? file =
      if document.file = file then some document else project.document? file :=
  find?_putDocument document project.documents file

end Project

end ComponentStyles
