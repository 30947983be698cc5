/-!
Tokens of a stylesheet.

A token is what one stretch of the text means; a lexeme keeps the stretch beside it, so the
text can be put together again from its lexemes.
-/

namespace ComponentStyles.Css

inductive Bracket where
  | curly
  | square
  | round
  deriving DecidableEq, Repr

/-- What a stretch of text means.  Names and quoted values carry their text with every escape
decoded; a number is known by its lexeme alone. -/
inductive Token where
  | blank
  /-- A comment, closed or ended by the end of the text. -/
  | comment
  | identifier (name : String)
  | function (name : String)
  | atKeyword (name : String)
  /-- A number sign with a name; the flag tells whether the name could stand alone. -/
  | hash (name : String) (standsAlone : Bool)
  | quoted (value : String)
  /-- A quoted value broken off by the end of its line. -/
  | brokenQuoted (value : String)
  | url (address : String)
  | brokenUrl
  | number
  | percentage
  | dimension (unit : String)
  /-- An attribute comparison such as `~=`, named by its first character. -/
  | comparison (sign : Char)
  | colon
  | semicolon
  | comma
  | markupOpening
  | markupClosing
  | opening (bracket : Bracket)
  | closing (bracket : Bracket)
  | delimiter (sign : Char)
  deriving DecidableEq, Repr

namespace Token

def opens : Token → Option Bracket
  | function _ => some .round
  | opening bracket => some bracket
  | _ => none

def closes : Token → Option Bracket
  | closing bracket => some bracket
  | _ => none

def isSeparator : Token → Bool
  | blank | comment => true
  | _ => false

end Token

structure Lexeme where
  token : Token
  text : List Char
  deriving DecidableEq, Repr

end ComponentStyles.Css
