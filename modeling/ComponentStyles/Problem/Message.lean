/-!
Messages for problems in the words of authors.

A message has a key and arguments.  A known key has a template with numbered places; arguments
are put into it one after the other, so a place that an argument brings along is filled by a
later argument.  An unknown key stands for itself.
-/

namespace ComponentStyles.Message

def notStylesheetKey : String := "embed.source.is.not.css.file"
def notFoundKey : String := "embed.source.not.found"
def notCompiledKey : String := "css.compile.failed"

def templates : List (String × String) :=
  [(notStylesheetKey, "Embedded source is not a CSS file: \x7b0\x7d"),
   (notFoundKey, "Cannot resolve embedded source: \x7b0\x7d"),
   (notCompiledKey, "Cannot compile stylesheet \x7b0\x7d: \x7b1\x7d")]

def replaceFrom (mark replacement text done : List Char) : List Char :=
  match text with
  | [] => done.reverse
  | character :: rest =>
      if mark.isPrefixOf (character :: rest) then
        replaceFrom mark replacement (rest.drop (mark.length - 1)) (replacement.reverseAux done)
      else replaceFrom mark replacement rest (character :: done)
termination_by text.length
decreasing_by all_goals simp only [List.length_drop, List.length_cons]; omega

def replaceAll (mark replacement text : List Char) : List Char :=
  replaceFrom mark replacement text []

def placeOf (position : Nat) : List Char :=
  '\x7b' :: (toString position).toList ++ ['\x7d']

def fill (position : Nat) : List String → List Char → List Char
  | [], text => text
  | argument :: rest, text =>
      fill (position + 1) rest (replaceAll (placeOf position) argument.toList text)

def renderPlain (key : String) (arguments : List String) : String :=
  if arguments.isEmpty then key else key ++ ": " ++ ", ".intercalate arguments

def render (key : String) (arguments : List String) : String :=
  match templates.find? (·.1 == key) with
  | some (_, template) => String.ofList (fill 0 arguments template.toList)
  | none => renderPlain key arguments

end ComponentStyles.Message
