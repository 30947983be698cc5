import ComponentStyles.Text.Ascii
import ComponentStyles.Text.Place

/-!
Names and escapes of a stylesheet.

Each reader returns what it read with the number of characters it took, so that the caller
can cut the text at that point.
-/

namespace ComponentStyles.Css

open ComponentStyles.Text

/-- The only white space of the grammar: space, tab and the newline characters. -/
def isSpace (character : Char) : Bool :=
  character == ' ' || character == '\t' || isNewline character

def replacement : Char := '\uFFFD'

def isNameStart (character : Char) : Bool :=
  isLetter character || character == '_' || character == '\x00' || 0x80 ≤ character.toNat

def isNameCharacter (character : Char) : Bool :=
  isNameStart character || isDigit character || character == '-'

def beginsNewline : List Char → Bool
  | character :: _ => isNewline character
  | [] => false

/-- The text goes on with a name that can stand alone.  A backslash begins one unless a newline
follows it; behind a hyphen it always does. -/
def beginsIdentifier : List Char → Bool
  | '-' :: character :: _ => isNameStart character || character == '-' || character == '\\'
  | '\\' :: rest => !beginsNewline rest
  | character :: _ => isNameStart character
  | [] => false

/-- How many characters one white space takes: a carriage return and a line feed go together. -/
def oneSpaceWidth : List Char → Nat
  | '\r' :: '\n' :: _ => 2
  | character :: _ => if isSpace character then 1 else 0
  | [] => 0

def characterOf (code : Nat) : Char :=
  if code ≠ 0 ∧ code.isValidChar then Char.ofNat code else replacement

/-- The character that an escape stands for, read behind its backslash, with the number of
characters read: up to six hexadecimal digits and one white space, or a single character. -/
def escaped : List Char → Char × Nat
  | [] => (replacement, 0)
  | character :: rest =>
      if isHexDigit character then
        let digits := ((character :: rest).take 6).takeWhile isHexDigit
        (characterOf (digitsValue 16 digits),
          digits.length + oneSpaceWidth ((character :: rest).drop digits.length))
      else if character = '\x00' then (replacement, 1)
      else (character, 1)

def nameFrom (characters : List Char) (read : List Char) (width : Nat) : String × Nat :=
  match characters with
  | [] => (String.ofList read.reverse, width)
  | character :: rest =>
      if character = '\\' then
        if beginsNewline rest then (String.ofList read.reverse, width)
        else
          nameFrom (rest.drop (escaped rest).2) ((escaped rest).1 :: read)
            (width + 1 + (escaped rest).2)
      else if character = '\x00' then nameFrom rest (replacement :: read) (width + 1)
      else if isNameCharacter character then nameFrom rest (character :: read) (width + 1)
      else (String.ofList read.reverse, width)
termination_by characters.length
decreasing_by all_goals simp only [List.length_drop, List.length_cons]; omega

def readName (characters : List Char) : String × Nat :=
  nameFrom characters [] 0

end ComponentStyles.Css
