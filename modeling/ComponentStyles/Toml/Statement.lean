import ComponentStyles.Toml.Scalar
import ComponentStyles.Toml.Value

/-!
The statements of a TOML document: headers and entries, one to a line.
-/

namespace ComponentStyles.Toml

open ComponentStyles.Text

inductive Statement where
  | table (key : Key)
  | item (key : Key)
  | entry (key : Key) (value : Value)
  deriving Repr

def nestingLimit : Nat :=
  79

def skipComment : List Char → List Char
  | '#' :: rest => rest.dropWhile isPrintable
  | text => text

def endOfLine (text : List Char) : Option (List Char) :=
  match skipComment (skipBlanks text) with
  | [] => some []
  | rest => lineEnd? rest

theorem length_skipComment_le (text : List Char) : (skipComment text).length ≤ text.length := by
  match text with
  | [] => simp [skipComment]
  | character :: rest =>
      by_cases comment : character = '#'
      · subst comment
        have shorter := (List.dropWhile_sublist (p := isPrintable) (l := rest)).length_le
        simp only [skipComment, List.length_cons]
        omega
      · simp [skipComment, comment]

theorem length_lineEnd?_lt {text rest : List Char} (ended : lineEnd? text = some rest) :
    rest.length < text.length := by
  unfold lineEnd? at ended
  split at ended
  · cases ended
    simp
  · cases ended
    simp only [List.length_cons]
    omega
  · cases ended

def skipLines (text : List Char) : List Char :=
  match _ended : lineEnd? (skipComment (skipBlanks text)) with
  | some rest => skipLines rest
  | none => skipBlanks text
termination_by text.length
decreasing_by
  have blanks := (List.dropWhile_sublist (p := isBlank) (l := text)).length_le
  have comment := length_skipComment_le (skipBlanks text)
  have shorter := length_lineEnd?_lt _ended
  simp only [skipBlanks] at *
  omega

def isBare (character : Char) : Bool :=
  isLetter character || isDigit character || character == '_' || character == '-'

def name : Reader String
  | '"' :: rest => lineStringFrom '"' rest []
  | '\'' :: rest => lineStringFrom '\'' rest []
  | text =>
      let bare := text.takeWhile isBare
      if bare.isEmpty then none else some (String.ofList bare, text.drop bare.length)

def keyFrom (rounds : Nat) (outer : List String) (text : List Char) :
    Option (Key × List Char) :=
  match rounds with
  | 0 => none
  | rounds + 1 =>
      match name (skipBlanks text) with
      | none => none
      | some (last, rest) =>
          match skipBlanks rest with
          | '.' :: rest => keyFrom rounds (last :: outer) rest
          | rest => some ({ outer := outer.reverse, name := last }, rest)

def key : Reader Key :=
  keyFrom nestingLimit []

def itemsFrom (value : Reader Value) (rounds : List Char) (items : Array Value)
    (text : List Char) : Option (List Value × List Char) :=
  match rounds with
  | [] => none
  | _ :: rounds =>
      match skipLines text with
      | ']' :: rest => some (items.toList, rest)
      | text =>
          match value text with
          | none => none
          | some (item, rest) =>
              match skipLines rest with
              | ',' :: rest => itemsFrom value rounds (items.push item) rest
              | ']' :: rest => some ((items.push item).toList, rest)
              | _ => none

def entry (value : Reader Value) : Reader (Key × Value) := fun text => do
  let (key, text) ← key text
  let (_, text) ← mark '=' text
  let (value, text) ← value (skipBlanks text)
  some ((key, value), text)

def entriesFrom (value : Reader Value) (rounds : List Char) (entries : Entries)
    (text : List Char) : Option (Entries × List Char) :=
  match rounds with
  | [] => none
  | _ :: rounds =>
      match entry value text with
      | none => none
      | some ((key, value'), rest) =>
          match entries.insert? key.name value' key.outer with
          | none => none
          | some entries =>
              match skipBlanks rest with
              | ',' :: rest => entriesFrom value rounds entries rest
              | '\x7d' :: rest => some (entries, rest)
              | _ => none

def scalar : Reader Value
  | '"' :: rest => (quoted '"' rest).map fun read => (.string read.1, read.2)
  | '\'' :: rest => (quoted '\'' rest).map fun read => (.string read.1, read.2)
  | 't' :: 'r' :: 'u' :: 'e' :: rest => some (.boolean true, rest)
  | 'f' :: 'a' :: 'l' :: 's' :: 'e' :: rest => some (.boolean false, rest)
  | text =>
      if beginsDate text || beginsTime text then
        (moment text).map fun read => (.moment, read.2)
      else
        (number text).map fun read =>
          (match read.1 with
            | some value => .integer value
            | none => .real, read.2)

def value (levels : Nat) : Reader Value :=
  match levels with
  | 0 => fun text =>
      match text with
      | '[' :: _ => none
      | '\x7b' :: _ => none
      | text => scalar text
  | levels + 1 => fun text =>
      match text with
      | '[' :: rest =>
          (itemsFrom (value levels) rest #[] rest).map fun read => (.array read.1, read.2)
      | '\x7b' :: rest =>
          match skipBlanks rest with
          | '\x7d' :: rest => some (.table .inlined [], rest)
          | rest =>
              (entriesFrom (value levels) rest [] rest).map fun read =>
                (.table .inlined read.1, read.2)
      | text => scalar text

def header : Reader Statement
  | '[' :: '[' :: rest => do
      let (key, rest) ← key rest
      let (_, rest) ← mark ']' rest
      let (_, rest) ← mark ']' rest
      some (.item key, rest)
  | '[' :: rest => do
      let (key, rest) ← key rest
      let (_, rest) ← mark ']' rest
      some (.table key, rest)
  | _ => none

def statement : Reader Statement
  | '[' :: rest => header ('[' :: rest)
  | text => (entry (value nestingLimit) text).map fun read =>
      (.entry read.1.1 read.1.2, read.2)

def statementsFrom (rounds : List Char) (read : Array Statement) (text : List Char) :
    Option (List Statement) :=
  match skipLines text with
  | [] => some read.toList
  | '#' :: comment =>
      if (comment.dropWhile isPrintable).isEmpty then some read.toList else none
  | text =>
      match rounds with
      | [] => none
      | _ :: rounds =>
          match statement text with
          | none => none
          | some (next, rest) =>
              match endOfLine rest with
              | none => none
              | some rest => statementsFrom rounds (read.push next) rest

def statements (text : List Char) : Option (List Statement) :=
  match text with
  | '\uFEFF' :: text => statementsFrom text #[] text
  | text => statementsFrom text #[] text

end ComponentStyles.Toml
