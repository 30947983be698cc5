import ComponentStyles.Project.Basic
import ComponentStyles.Text.Ascii
import ComponentStyles.Text.Blank

/-!
Injected content: the body text of an element as a document of its own.

The identity of such a document is the hosting file, a number sign and the number of the
element.
-/

namespace ComponentStyles.Project

open ComponentStyles.Text

def fragmentFile (host : InjectionHost) : FileId :=
  { path := host.file.path ++ "#" ++ toString host.element }

/-- Body text is a stylesheet unless the element names another language. -/
def isStyleLanguage : Option String → Bool
  | none => true
  | some language => sameIgnoringCase language "css"

def fragmentOf? (project : Project) (host : InjectionHost) : Option InjectedFragment := do
  let document ← project.document? host.file
  let element ← document.element? host.element
  let text ← element.text
  let kind := if isStyleLanguage element.language then .stylesheet else .other
  some
    { document := Document.ofKind kind (fragmentFile host) none text
      shreds := [{ host, start := 0, stop := text.utf8ByteSize }] }

/-- The element as a host of injected content, if it is one: its fragments are given, or its
body text is not blank. -/
def injectionHost? (project : Project) (document : Document) (element : Element) :
    Option InjectionHost :=
  let host : InjectionHost := { file := document.file, element := element.id }
  let hasBody :=
    match element.text with
    | some text => !isBlankText text
    | none => false
  if (project.overrides.get? host).isSome || hasBody then some host else none

def injectedFragments (project : Project) (host : InjectionHost) : List InjectedFragment :=
  match project.overrides.get? host with
  | some fragments => fragments
  | none => (project.fragmentOf? host).toList

/-- The file that hosts a document: the part of its identity in front of the first number
sign. -/
def hostingFile (document : Document) : FileId :=
  match cutFirst? '#' document.file.path.toList with
  | some (front, _) => { path := String.ofList front }
  | none => document.file

end ComponentStyles.Project
