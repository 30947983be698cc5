import ComponentStyles.Markup.Element
import ComponentStyles.Name

/-!
Documents of a project: markup, stylesheets and other files.
-/

namespace ComponentStyles

inductive DocumentKind where
  | markup
  | stylesheet
  | other
  deriving DecidableEq, Repr

/-- A document as stored.  A markup document has an element tree and no text. -/
structure Document where
  file : FileId
  kind : DocumentKind
  root : Option Element
  text : String
  deriving Repr

namespace Document

/-- A markup document, its elements numbered in pre-order from zero. -/
def markup (file : FileId) (root : Option Element) : Document :=
  { file, kind := .markup, root := root.map fun element => (element.numbered 0).1, text := "" }

def stylesheet (file : FileId) (text : String) : Document :=
  { file, kind := .stylesheet, root := none, text }

def other (file : FileId) (text : String) : Document :=
  { file, kind := .other, root := none, text }

/-- A document of the given kind; the tree counts only for markup, the text only for the rest. -/
def ofKind (kind : DocumentKind) (file : FileId) (root : Option Element) (text : String) :
    Document :=
  match kind with
  | .markup => markup file root
  | .stylesheet => stylesheet file text
  | .other => other file text

def isStylesheet (document : Document) : Bool :=
  document.kind == .stylesheet

def element? (document : Document) (id : Nat) : Option Element :=
  document.root.bind (·.find? id)

end Document

end ComponentStyles
