import ComponentStyles.Json.Lexical

/-!
Passing over a JSON value of any form.

What is passed over must be JSON, but its strings need not be text and its numbers need no
value.
-/

namespace ComponentStyles.Json

open ComponentStyles.Text

inductive Container where
  | array
  | object
  deriving DecidableEq, Repr

inductive SkipPhase where
  | value
  | key
  | behind
  deriving DecidableEq, Repr

def skipNumber (text : List Char) : Except Fault (Unit × List Char) :=
  match numeral text with
  | .ok (_, rest) => .ok ((), rest)
  | .error _ => .error .malformed

def skipColon (text : List Char) : Except Fault (Unit × List Char) :=
  match skipSpace text with
  | ':' :: rest => .ok ((), rest)
  | [] => .error .truncated
  | _ => .error .malformed

def skipScalar (text : List Char) : Except Fault (Option Container × List Char) :=
  match text with
  | [] => .error .truncated
  | 'n' :: rest => (word "ull".toList rest).map fun read => (none, read.2)
  | 't' :: rest => (word "rue".toList rest).map fun read => (none, read.2)
  | 'f' :: rest => (word "alse".toList rest).map fun read => (none, read.2)
  | '"' :: rest => (skipString rest).map fun read => (none, read.2)
  | '[' :: rest => .ok (some .array, rest)
  | '\x7b' :: rest => .ok (some .object, rest)
  | character :: rest =>
      if character = '-' ∨ isDigit character then
        (skipNumber (character :: rest)).map fun read => (none, read.2)
      else .error .malformed

def Container.phase : Container → SkipPhase
  | array => .value
  | object => .key

def Container.ending : Container → Char
  | array => ']'
  | object => '\x7d'

def enter (container : Container) (inside : List Container) (text : List Char) :
    SkipPhase × List Container × List Char :=
  match skipSpace text with
  | character :: rest =>
      if character = container.ending then (.behind, inside, rest)
      else (container.phase, container :: inside, character :: rest)
  | [] => (container.phase, container :: inside, [])

/-- Passes over the rest of a value inside the given containers, innermost first.  Every round
takes a character of the text, and `rounds` is the text at the first one. -/
def skipFrom (rounds : List Char) (phase : SkipPhase) (inside : List Container)
    (text : List Char) : Except Fault (Unit × List Char) :=
  match phase, inside, rounds with
  | .behind, [], _ => .ok ((), text)
  | _, _, [] => .error .truncated
  | .behind, container :: outer, _ :: rounds =>
      match skipSpace text with
      | [] => .error .truncated
      | character :: rest =>
          if character = ',' then skipFrom rounds container.phase inside rest
          else if character = container.ending then skipFrom rounds .behind outer rest
          else .error .malformed
  | .key, inside, _ :: rounds =>
      match skipSpace text with
      | [] => .error .truncated
      | '"' :: rest =>
          match skipString rest with
          | .error fault => .error fault
          | .ok (_, rest) =>
              match skipColon rest with
              | .error fault => .error fault
              | .ok (_, rest) => skipFrom rounds .value inside rest
      | _ => .error .malformed
  | .value, inside, _ :: rounds =>
      match skipScalar (skipSpace text) with
      | .error fault => .error fault
      | .ok (none, rest) => skipFrom rounds .behind inside rest
      | .ok (some container, rest) =>
          let entered := enter container inside rest
          skipFrom rounds entered.1 entered.2.1 entered.2.2

def skipValue : Reader Unit := fun text =>
  skipFrom text .value [] text

end ComponentStyles.Json
