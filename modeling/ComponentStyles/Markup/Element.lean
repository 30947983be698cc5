import ComponentStyles.Table

/-!
Elements of a markup document.

Elements are numbered in pre-order, an element before its children.
-/

namespace ComponentStyles

/-- An element with its attributes, its children and its own body text.  An attribute written
without a value has none. -/
structure Element where
  id : Nat
  space : String
  name : String
  attributes : Table String (Option String)
  children : List Element
  text : Option String
  language : Option String
  line : Option Nat
  deriving Repr, Inhabited

namespace Element

/-- Absent, present without a value, or present with one. -/
def attribute? (element : Element) (name : String) : Option (Option String) :=
  element.attributes.get? name

def isNamed (element : Element) (space name : String) : Bool :=
  element.space == space && element.name == name

mutual

/-- The element numbered in pre-order from the given number, with the next free number. -/
def numbered : Element → Nat → Element × Nat
  | { id := _, space, name, attributes, children, text, language, line }, number =>
      let inner := numberedAll children (number + 1)
      ({ id := number, space, name, attributes, children := inner.1, text, language, line },
        inner.2)

def numberedAll : List Element → Nat → List Element × Nat
  | [], number => ([], number)
  | element :: rest, number =>
      let first := numbered element number
      let others := numberedAll rest first.2
      (first.1 :: others.1, others.2)

end

mutual

def find? (id : Nat) : Element → Option Element
  | { id := own, space, name, attributes, children, text, language, line } =>
      if own = id then
        some { id := own, space, name, attributes, children, text, language, line }
      else findAmong? id children

def findAmong? (id : Nat) : List Element → Option Element
  | [] => none
  | element :: rest => (find? id element).or (findAmong? id rest)

end

def descendant? (element : Element) : List Nat → Option Element
  | [] => some element
  | position :: path =>
      match element.children[position]? with
      | some child => child.descendant? path
      | none => none

end Element

end ComponentStyles
