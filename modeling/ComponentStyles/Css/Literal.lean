import ComponentStyles.Css.Name
import ComponentStyles.Css.Token

/-!
Quoted values, unquoted addresses, numbers and comments.

Every reader starts behind the mark that told the kind, and returns the token with the number
of characters it took.
-/

namespace ComponentStyles.Css

open ComponentStyles.Text

/-- Reads on in a quoted value up to its closing quote.  A newline breaks the value off and
stays unread; an escaped newline stands for nothing. -/
def quotedFrom (quote : Char) (characters : List Char) (read : List Char) (width : Nat) :
    Token × Nat :=
  match characters with
  | [] => (.quoted (String.ofList read.reverse), width)
  | character :: rest =>
      if character = quote then (.quoted (String.ofList read.reverse), width + 1)
      else if isNewline character then (.brokenQuoted (String.ofList read.reverse), width)
      else if character = '\\' then
        if rest.isEmpty then (.quoted (String.ofList read.reverse), width + 1)
        else if beginsNewline rest then
          quotedFrom quote (rest.drop (oneSpaceWidth rest)) read (width + 1 + oneSpaceWidth rest)
        else
          quotedFrom quote (rest.drop (escaped rest).2) ((escaped rest).1 :: read)
            (width + 1 + (escaped rest).2)
      else if character = '\x00' then quotedFrom quote rest (replacement :: read) (width + 1)
      else quotedFrom quote rest (character :: read) (width + 1)
termination_by characters.length
decreasing_by all_goals simp only [List.length_drop, List.length_cons]; omega

def breaksUrl (character : Char) : Bool :=
  character == '"' || character == '\'' || character == '(' || character.toNat == 0x7F ||
    (1 ≤ character.toNat && character.toNat ≤ 0x1F && !isSpace character)

def brokenUrlWidth : List Char → Nat → Nat
  | [], width => width
  | ')' :: _, width => width + 1
  | '\\' :: ')' :: rest, width => brokenUrlWidth rest (width + 2)
  | '\\' :: '\\' :: rest, width => brokenUrlWidth rest (width + 2)
  | _ :: rest, width => brokenUrlWidth rest (width + 1)

def urlEnd (address : String) : List Char → Nat → Token × Nat
  | [], width => (.url address, width)
  | character :: rest, width =>
      if character = ')' then (.url address, width + 1)
      else if isSpace character then urlEnd address rest (width + 1)
      else (.brokenUrl, brokenUrlWidth rest (width + 1))

def urlFrom (characters : List Char) (read : List Char) (width : Nat) : Token × Nat :=
  match characters with
  | [] => (.url (String.ofList read.reverse), width)
  | character :: rest =>
      if character = ')' then (.url (String.ofList read.reverse), width + 1)
      else if isSpace character then
        urlEnd (String.ofList read.reverse) (character :: rest) width
      else if breaksUrl character then (.brokenUrl, brokenUrlWidth rest (width + 1))
      else if character = '\\' then
        if beginsNewline rest then (.brokenUrl, brokenUrlWidth rest (width + 1))
        else
          urlFrom (rest.drop (escaped rest).2) ((escaped rest).1 :: read)
            (width + 1 + (escaped rest).2)
      else if character = '\x00' then urlFrom rest (replacement :: read) (width + 1)
      else urlFrom rest (character :: read) (width + 1)
termination_by characters.length
decreasing_by all_goals simp only [List.length_drop, List.length_cons]; omega

/-- The address behind `url(`, unless a quote comes first: then the name is a function's. -/
def readUrl (characters : List Char) : Option (Token × Nat) :=
  let blanks := (characters.takeWhile isSpace).length
  match characters.drop blanks with
  | [] => some (.url "", blanks)
  | character :: rest =>
      if character = '"' ∨ character = '\'' then none
      else if character = ')' then some (.url "", blanks + 1)
      else some (urlFrom (character :: rest) [] blanks)

def digitsWidth (characters : List Char) : Nat :=
  (characters.takeWhile isDigit).length

def beginsDigit : List Char → Bool
  | character :: _ => isDigit character
  | [] => false

def beginsUnsigned : List Char → Bool
  | '.' :: rest => beginsDigit rest
  | characters => beginsDigit characters

def beginsNumber : List Char → Bool
  | '+' :: rest => beginsUnsigned rest
  | '-' :: rest => beginsUnsigned rest
  | characters => beginsUnsigned characters

def signWidth : List Char → Nat
  | '+' :: _ => 1
  | '-' :: _ => 1
  | _ => 0

def fractionWidth : List Char → Nat
  | '.' :: rest => if beginsDigit rest then 1 + digitsWidth rest else 0
  | _ => 0

def exponentWidth : List Char → Nat
  | letter :: rest =>
      if (letter = 'e' ∨ letter = 'E') ∧ beginsDigit (rest.drop (signWidth rest)) then
        1 + signWidth rest + digitsWidth (rest.drop (signWidth rest))
      else 0
  | [] => 0

def numberWidth (characters : List Char) : Nat :=
  let whole := signWidth characters + digitsWidth (characters.drop (signWidth characters))
  let decimal := whole + fractionWidth (characters.drop whole)
  decimal + exponentWidth (characters.drop decimal)

def readNumber (characters : List Char) : Token × Nat :=
  let width := numberWidth characters
  match characters.drop width with
  | '%' :: _ => (.percentage, width + 1)
  | rest =>
      if beginsIdentifier rest then (.dimension (readName rest).1, width + (readName rest).2)
      else (.number, width)

def commentWidth : List Char → Nat → Nat
  | [], width => width
  | '*' :: '/' :: _, width => width + 2
  | _ :: rest, width => commentWidth rest (width + 1)

end ComponentStyles.Css
