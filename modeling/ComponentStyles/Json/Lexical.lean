import ComponentStyles.Json.Magnitude

/-!
The leaves of JSON: white space, words, strings and numbers.

A reader takes what it reads off the front of the text and gives the rest back.  The first
fault met in the text decides what is reported.
-/

namespace ComponentStyles.Json

open ComponentStyles.Text

inductive Fault where
  | malformed
  | mismatched
  | truncated
  deriving DecidableEq, Repr

def Fault.message : Fault → String
  | malformed => "the text is not JSON"
  | mismatched => "the text has another form than expected"
  | truncated => "the text ends too early"

abbrev Reader (α : Type) :=
  List Char → Except Fault (α × List Char)

def isSpace (character : Char) : Bool :=
  character == ' ' || character == '\t' || character == '\n' || character == '\r'

def skipSpace (text : List Char) : List Char :=
  text.dropWhile isSpace

def word : List Char → Reader Unit
  | [], text => .ok ((), text)
  | _ :: _, [] => .error .truncated
  | expected :: wanted, character :: text =>
      if character = expected then word wanted text else .error .malformed

def byteCount (text : List Char) : Nat :=
  text.foldl (fun count character => count + character.utf8Size) 0

/-- The number that four hexadecimal digits write.  The text ends too early when not even four
bytes are left. -/
def fourHexDigits (text : List Char) : Except Fault Nat :=
  let digits := text.take 4
  if digits.length = 4 ∧ digits.all isHexDigit then .ok (digitsValue 16 digits)
  else if byteCount digits < 4 then .error .truncated
  else .error .malformed

def isLeadingSurrogate (unit : Nat) : Bool :=
  0xD800 ≤ unit && unit ≤ 0xDBFF

def isTrailingSurrogate (unit : Nat) : Bool :=
  0xDC00 ≤ unit && unit ≤ 0xDFFF

def trailingUnit : List Char → Except Fault Nat
  | [] => .error .truncated
  | ['\\'] => .error .truncated
  | '\\' :: 'u' :: rest =>
      match fourHexDigits rest with
      | .ok unit => if isTrailingSurrogate unit then .ok unit else .error .malformed
      | .error fault => .error fault
  | _ => .error .malformed

def numericEscape (text : List Char) : Except Fault (Char × Nat) :=
  match fourHexDigits text with
  | .error fault => .error fault
  | .ok unit =>
      if isTrailingSurrogate unit then .error .malformed
      else if isLeadingSurrogate unit then
        match trailingUnit (text.drop 4) with
        | .ok trailing =>
            .ok (Char.ofNat (0x10000 + (unit - 0xD800) * 0x400 + (trailing - 0xDC00)), 10)
        | .error fault => .error fault
      else .ok (Char.ofNat unit, 4)

def letterEscape? : Char → Option Char
  | '"' => some '"'
  | '\\' => some '\\'
  | '/' => some '/'
  | 'b' => some '\x08'
  | 'f' => some '\x0c'
  | 'n' => some '\n'
  | 'r' => some '\r'
  | 't' => some '\t'
  | _ => none

def escape : List Char → Except Fault (Char × Nat)
  | [] => .error .truncated
  | 'u' :: rest => (numericEscape rest).map fun read => (read.1, read.2 + 1)
  | letter :: _ =>
      match letterEscape? letter with
      | some character => .ok (character, 1)
      | none => .error .malformed

def stringFrom (text : List Char) (read : List Char) : Except Fault (String × List Char) :=
  match text with
  | [] => .error .truncated
  | character :: rest =>
      if character = '"' then .ok (String.ofList read.reverse, rest)
      else if character = '\\' then
        match escape rest with
        | .ok (meant, width) => stringFrom (rest.drop width) (meant :: read)
        | .error fault => .error fault
      else if character.toNat < 0x20 then .error .malformed
      else stringFrom rest (character :: read)
termination_by text.length
decreasing_by all_goals simp only [List.length_drop, List.length_cons]; omega

def stringBody : Reader String :=
  fun text => stringFrom text []

/-- The number of characters of an escape that is passed over: halves of pairs may stand
alone. -/
def escapeWidth : List Char → Except Fault Nat
  | [] => .error .truncated
  | 'u' :: rest => (fourHexDigits rest).map fun _ => 5
  | letter :: _ => if (letterEscape? letter).isSome then .ok 1 else .error .malformed

def skipString (text : List Char) : Except Fault (Unit × List Char) :=
  match text with
  | [] => .error .truncated
  | character :: rest =>
      if character = '"' then .ok ((), rest)
      else if character = '\\' then
        match escapeWidth rest with
        | .ok width => skipString (rest.drop width)
        | .error fault => .error fault
      else if character.toNat < 0x20 then .error .malformed
      else skipString rest
termination_by text.length
decreasing_by all_goals simp only [List.length_drop, List.length_cons]; omega

def digits (text : List Char) : Except Fault (List Char × List Char) :=
  match text with
  | [] => .error .truncated
  | first :: _ =>
      if isDigit first then .ok (text.takeWhile isDigit, text.dropWhile isDigit)
      else .error .malformed

def wholeDigits (text : List Char) : Except Fault (List Char × List Char) :=
  match digits text with
  | .error fault => .error fault
  | .ok (whole, rest) =>
      if whole.head? = some '0' ∧ 1 < whole.length then .error .malformed else .ok (whole, rest)

def fractionDigits : List Char → Except Fault (List Char × List Char)
  | '.' :: rest => digits rest
  | text => .ok ([], text)

def exponentDigits : List Char → Except Fault (Option (Bool × List Char) × List Char)
  | letter :: rest =>
      if letter = 'e' ∨ letter = 'E' then
        match rest with
        | '-' :: rest => (digits rest).map fun read => (some (true, read.1), read.2)
        | '+' :: rest => (digits rest).map fun read => (some (false, read.1), read.2)
        | rest => (digits rest).map fun read => (some (false, read.1), read.2)
      else .ok (none, letter :: rest)
  | [] => .ok (none, [])

def numeral : Reader Numeral := fun text => do
  let (negative, text) :=
    match text with
    | '-' :: rest => (true, rest)
    | text => (false, text)
  let (whole, text) ← wholeDigits text
  let (fraction, text) ← fractionDigits text
  let (exponent, text) ← exponentDigits text
  .ok ({ negative, whole, fraction, exponent }, text)

def number : Reader Numeral := fun text => do
  let (read, rest) ← numeral text
  if (Magnitude.of read).isTooLarge then .error .malformed else .ok (read, rest)

end ComponentStyles.Json
