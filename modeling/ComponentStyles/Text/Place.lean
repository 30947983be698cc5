/-!
Places in a text: line and column as a person counts them.

Lines end at a line feed, a form feed, a carriage return, or a carriage return with a line
feed.  Columns count UTF-16 code units, so a character outside the basic plane takes two.
-/

namespace ComponentStyles.Text

def isNewline (character : Char) : Bool :=
  character == '\n' || character == '\r' || character == '\x0c'

def units16 (character : Char) : Nat :=
  if character.toNat < 0x10000 then 1 else 2

/-- Line and column, both counted from one. -/
structure Place where
  line : Nat
  column : Nat
  deriving DecidableEq, Repr

namespace Place

def start : Place :=
  { line := 1, column := 1 }

def nextLine (place : Place) : Place :=
  { line := place.line + 1, column := 1 }

def after : List Char → Place → Place
  | [], place => place
  | '\r' :: '\n' :: rest, place => after rest place.nextLine
  | character :: rest, place =>
      if isNewline character then after rest place.nextLine
      else after rest { place with column := place.column + units16 character }

def behind (characters : List Char) : Place :=
  after characters start

end Place

end ComponentStyles.Text
