import ComponentStyles.Text.Numeral

/-!
The scalars of TOML: quoted strings, numbers, dates and times.

A reader takes what it reads off the front of the text and gives the rest back; no text is a
scalar in two ways, so a reader that has begun does not try another way.
-/

namespace ComponentStyles.Toml

open ComponentStyles.Text

abbrev Reader (α : Type) :=
  List Char → Option (α × List Char)

def isBlank (character : Char) : Bool :=
  character == ' ' || character == '\t'

def skipBlanks (text : List Char) : List Char :=
  text.dropWhile isBlank

def lineEnd? : List Char → Option (List Char)
  | '\n' :: rest => some rest
  | '\r' :: '\n' :: rest => some rest
  | _ => none

def isPrintable (character : Char) : Bool :=
  character == '\t' || (' ' ≤ character && character ≠ '\x7f')

def letterEscape? : Char → Option Char
  | 'b' => some '\x08'
  | 'f' => some '\x0c'
  | 'n' => some '\n'
  | 'r' => some '\r'
  | 't' => some '\t'
  | '"' => some '"'
  | '\\' => some '\\'
  | _ => none

def numericEscape? (count : Nat) (text : List Char) : Option Char :=
  let digits := text.take count
  let number := digitsValue 16 digits
  if digits.length = count ∧ digits.all isHexDigit then
    if number.isValidChar then some (Char.ofNat number) else none
  else none

def escape? : List Char → Option (Char × Nat)
  | [] => none
  | letter :: rest =>
      if letter = 'u' then (numericEscape? 4 rest).map (·, 5)
      else if letter = 'U' then (numericEscape? 8 rest).map (·, 9)
      else (letterEscape? letter).map (·, 1)

/-- Reads on in a string up to its closing quote; what is read so far is in reverse.  Only
double quotes know escapes. -/
def lineStringFrom (quote : Char) (text : List Char) (read : List Char) :
    Option (String × List Char) :=
  match text with
  | [] => none
  | character :: rest =>
      if character = quote then some (String.ofList read.reverse, rest)
      else if character = '\\' ∧ quote = '"' then
        match escape? rest with
        | some (meant, width) => lineStringFrom quote (rest.drop width) (meant :: read)
        | none => none
      else if isPrintable character then lineStringFrom quote rest (character :: read)
      else none
termination_by text.length
decreasing_by all_goals simp only [List.length_drop, List.length_cons]; omega

def skipBlankLines : List Char → List Char
  | [] => []
  | '\r' :: '\n' :: rest => skipBlankLines rest
  | character :: rest =>
      if isBlank character || character == '\n' then skipBlankLines rest else character :: rest

def continuedLine? (text : List Char) : Option (List Char) :=
  (lineEnd? (skipBlanks text)).map skipBlankLines

/-- Reads on in a string of several lines up to its three closing quotes; what is read so far is
in reverse.  One or two quotes belong to the string, also right in front of the closing ones.
Every round takes a character of the text, and `rounds` is the text at the first one. -/
def textBlockFrom (quote : Char) (rounds text read : List Char) : Option (String × List Char) :=
  match rounds with
  | [] => none
  | _ :: rounds =>
      match text with
      | [] => none
      | character :: rest =>
          if character = quote then
            let quotes := text.takeWhile (· == quote)
            let behind := text.drop quotes.length
            if quotes.length < 3 then textBlockFrom quote rounds behind (quotes ++ read)
            else
              let kept := min 2 (quotes.length - 3)
              some (String.ofList (List.replicate kept quote ++ read).reverse,
                text.drop (kept + 3))
          else if character = '\\' ∧ quote = '"' then
            match continuedLine? rest with
            | some rest => textBlockFrom quote rounds rest read
            | none =>
                match escape? rest with
                | some (meant, width) =>
                    textBlockFrom quote rounds (rest.drop width) (meant :: read)
                | none => none
          else
            match lineEnd? text with
            | some rest => textBlockFrom quote rounds rest ('\n' :: read)
            | none =>
                if isPrintable character then textBlockFrom quote rounds rest (character :: read)
                else none

def textBlock (quote : Char) : Reader String := fun text =>
  let body := (lineEnd? text).getD text
  textBlockFrom quote body body []

def quoted (quote : Char) : Reader String := fun text =>
  match text with
  | first :: second :: rest =>
      if first = quote ∧ second = quote then textBlock quote rest
      else lineStringFrom quote text []
  | _ => lineStringFrom quote text []

def digitsFrom (isMember : Char → Bool) (read : List Char) :
    List Char → Option (List Char × List Char)
  | [] => if read.isEmpty then none else some (read.reverse, [])
  | '_' :: digit :: rest =>
      if read.isEmpty then none
      else if isMember digit then digitsFrom isMember (digit :: read) rest
      else none
  | character :: rest =>
      if isMember character then digitsFrom isMember (character :: read) rest
      else if read.isEmpty ∨ character = '_' then none
      else some (read.reverse, character :: rest)

def digitRun (isMember : Char → Bool) : Reader (List Char) :=
  digitsFrom isMember []

def sign : List Char → Bool × List Char
  | '-' :: rest => (true, rest)
  | '+' :: rest => (false, rest)
  | text => (false, text)

def wholeDigits : Reader (List Char)
  | '0' :: rest => some (['0'], rest)
  | text => digitRun isDigit text

def fractionDigits : Reader (List Char)
  | '.' :: rest => digitRun isDigit rest
  | text => some ([], text)

def exponentDigits : Reader (Option (Bool × List Char))
  | [] => some (none, [])
  | letter :: rest =>
      if letter = 'e' ∨ letter = 'E' then
        let (negative, rest) := sign rest
        (digitRun isDigit rest).map fun read => (some (negative, read.1), read.2)
      else some (none, letter :: rest)

def numeral : Reader Numeral := fun text => do
  let (negative, text) := sign text
  let (whole, text) ← wholeDigits text
  let (fraction, text) ← fractionDigits text
  let (exponent, text) ← exponentDigits text
  some ({ negative, whole, fraction, exponent }, text)

def integerLimit : Nat :=
  9223372036854775807

/-- The value of a decimal number: an integer, or none for a number with a point or an exponent,
which must not be too large. -/
def numeralValue? (number : Numeral) : Option (Option Int) :=
  if number.fraction.isEmpty ∧ number.exponent.isNone then
    if number.negative then
      (digitsUpTo? 10 (integerLimit + 1) number.whole).map fun size => some (-(size : Int))
    else (digitsUpTo? 10 integerLimit number.whole).map fun size => some (size : Int)
  else if number.isTooLarge ∧ ¬ number.negative then none
  else some none

def basedInteger (base : Nat) (isMember : Char → Bool) : Reader (Option Int) := fun text => do
  let (digits, rest) ← digitRun isMember text
  let size ← digitsUpTo? base integerLimit digits
  some (some (size : Int), rest)

def isNamedNumber : List Char → Bool
  | 'i' :: 'n' :: 'f' :: _ => true
  | 'n' :: 'a' :: 'n' :: _ => true
  | _ => false

def number : Reader (Option Int)
  | '0' :: 'x' :: rest => basedInteger 16 isHexDigit rest
  | '0' :: 'o' :: rest => basedInteger 8 (fun digit => '0' ≤ digit && digit ≤ '7') rest
  | '0' :: 'b' :: rest => basedInteger 2 (fun digit => digit == '0' || digit == '1') rest
  | text =>
      let unsigned := (sign text).2
      if isNamedNumber unsigned then some (none, unsigned.drop 3)
      else do
        let (read, rest) ← numeral text
        let value ← numeralValue? read
        some (value, rest)

def fixedNumber (count least most : Nat) : Reader Nat := fun text =>
  let digits := text.take count
  let value := digitsValue 10 digits
  if digits.length = count ∧ digits.all isDigit ∧ least ≤ value ∧ value ≤ most then
    some (value, text.drop count)
  else none

def mark (wanted : Char) : Reader Unit
  | [] => none
  | character :: rest => if character = wanted then some ((), rest) else none

def isLeapYear (year : Nat) : Bool :=
  year % 4 == 0 && (year % 100 != 0 || year % 400 == 0)

def daysIn (year month : Nat) : Nat :=
  if month = 2 then if isLeapYear year then 29 else 28
  else if month = 4 ∨ month = 6 ∨ month = 9 ∨ month = 11 then 30
  else 31

def date : Reader Unit := fun text => do
  let (year, text) ← fixedNumber 4 0 9999 text
  let (_, text) ← mark '-' text
  let (month, text) ← fixedNumber 2 1 12 text
  let (_, text) ← mark '-' text
  let (_, text) ← fixedNumber 2 1 (daysIn year month) text
  some ((), text)

def secondFraction : List Char → List Char
  | '.' :: digit :: rest =>
      if isDigit digit then rest.dropWhile isDigit else '.' :: digit :: rest
  | text => text

def time : Reader Unit := fun text => do
  let (_, text) ← fixedNumber 2 0 23 text
  let (_, text) ← mark ':' text
  let (_, text) ← fixedNumber 2 0 59 text
  let (_, text) ← mark ':' text
  let (_, text) ← fixedNumber 2 0 60 text
  some ((), secondFraction text)

def offset : Reader Unit := fun text =>
  match text with
  | [] => some ((), [])
  | character :: rest =>
      if character = 'Z' ∨ character = 'z' then some ((), rest)
      else if character = '+' ∨ character = '-' then do
        let (_, rest) ← fixedNumber 2 0 23 rest
        let (_, rest) ← mark ':' rest
        let (_, rest) ← fixedNumber 2 0 59 rest
        some ((), rest)
      else some ((), character :: rest)

def beginsDate (text : List Char) : Bool :=
  match fixedNumber 4 0 9999 text with
  | some (_, '-' :: _) => true
  | _ => false

def beginsTime (text : List Char) : Bool :=
  match fixedNumber 2 0 23 text with
  | some (_, ':' :: _) => true
  | _ => false

def moment : Reader Unit := fun text =>
  if beginsTime text then time text
  else
    match date text with
    | none => none
    | some (_, between :: rest) =>
        if (between = 'T' ∨ between = 't' ∨ between = ' ') ∧ beginsTime rest then do
          let (_, rest) ← time rest
          offset rest
        else some ((), between :: rest)
    | some (_, []) => some ((), [])

end ComponentStyles.Toml
