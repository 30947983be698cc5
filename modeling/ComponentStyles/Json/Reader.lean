import ComponentStyles.Json.Skip

/-!
Readers for values of a wanted form.

`levels` is the number of containers that may still be entered.  A value of another form is a
mismatch, but only once it has been read as far as its kind shows.
-/

namespace ComponentStyles.Json

open ComponentStyles.Text

def nestingLimit : Nat :=
  127

def otherKind (text : List Char) : Fault :=
  let orElse {α : Type} : Except Fault α → Fault
    | .ok _ => .mismatched
    | .error fault => fault
  match text with
  | [] => .truncated
  | 'n' :: rest => orElse (word "ull".toList rest)
  | 't' :: rest => orElse (word "rue".toList rest)
  | 'f' :: rest => orElse (word "alse".toList rest)
  | '"' :: rest => orElse (stringBody rest)
  | '[' :: _ => .mismatched
  | '\x7b' :: _ => .mismatched
  | character :: rest =>
      if character = '-' ∨ isDigit character then orElse (number (character :: rest))
      else .malformed

def string : Reader String := fun text =>
  match skipSpace text with
  | '"' :: rest => stringBody rest
  | other => .error (otherKind other)

def natural (limit : Nat) : Reader Nat := fun text =>
  match skipSpace text with
  | [] => .error .truncated
  | character :: rest =>
      if character = '-' ∨ isDigit character then
        match number (character :: rest) with
        | .error fault => .error fault
        | .ok (read, rest) =>
            match read.natural? limit with
            | some value => .ok (value, rest)
            | none => .error .mismatched
      else .error (otherKind (character :: rest))

def optional {α : Type} (reader : Reader α) : Reader (Option α) := fun text =>
  match skipSpace text with
  | 'n' :: rest => (word "ull".toList rest).map fun read => (none, read.2)
  | other => (reader other).map fun read => (some read.1, read.2)

def whole {α : Type} (reader : Reader α) (text : List Char) : Except Fault α :=
  match reader text with
  | .error fault => .error fault
  | .ok (value, rest) => if (skipSpace rest).isEmpty then .ok value else .error .malformed

def nextItem (first : Bool) (text : List Char) : Except Fault (Bool × List Char) :=
  match skipSpace text with
  | [] => .error .truncated
  | ']' :: rest => .ok (false, ']' :: rest)
  | other =>
      if first then .ok (true, other)
      else
        match other with
        | ',' :: rest =>
            match skipSpace rest with
            | [] => .error .truncated
            | ']' :: _ => .error .malformed
            | item => .ok (true, item)
        | _ => .error .malformed

def nextKey (first : Bool) (text : List Char) : Except Fault (Option String × List Char) :=
  let key : List Char → Except Fault (Option String × List Char)
    | '"' :: rest => (stringBody rest).map fun read => (some read.1, read.2)
    | [] => .error .truncated
    | _ => .error .malformed
  match skipSpace text with
  | [] => .error .truncated
  | '\x7d' :: rest => .ok (none, '\x7d' :: rest)
  | other =>
      if first then key other
      else
        match other with
        | ',' :: rest => key (skipSpace rest)
        | _ => .error .malformed

/-- Reads the items of an array up to its closing bracket.  Every round takes a character of the
text, and `rounds` is the text at the first one. -/
def itemsFrom {α : Type} (reader : Reader α) (rounds : List Char) (found : Array α)
    (text : List Char) : Except Fault (List α × List Char) :=
  match rounds with
  | [] => .error .truncated
  | _ :: rounds =>
      match nextItem found.isEmpty text with
      | .error fault => .error fault
      | .ok (false, rest) => .ok (found.toList, rest.tail)
      | .ok (true, rest) =>
          match reader rest with
          | .error fault => .error fault
          | .ok (item, rest) => itemsFrom reader rounds (found.push item) rest

def list {α : Type} (levels : Nat) (reader : Nat → Reader α) : Reader (List α) := fun text =>
  match skipSpace text with
  | '[' :: rest =>
      match levels with
      | 0 => .error .malformed
      | inner + 1 => itemsFrom (reader inner) rest #[] rest
  | other => .error (otherKind other)

/-- Reads the members of an object up to its closing bracket; a later member replaces an
earlier one with its key.  Every round takes a character of the text, and `rounds` is the text at
the first one. -/
def membersFrom {α σ : Type} (reader : Reader α) (put : σ → String → α → σ)
    (rounds : List Char) (first : Bool) (members : σ) (text : List Char) :
    Except Fault (σ × List Char) :=
  match rounds with
  | [] => .error .truncated
  | _ :: rounds =>
      match nextKey first text with
      | .error fault => .error fault
      | .ok (none, rest) => .ok (members, rest.tail)
      | .ok (some key, rest) =>
          match skipColon rest with
          | .error fault => .error fault
          | .ok (_, rest) =>
              match reader rest with
              | .error fault => .error fault
              | .ok (value, rest) =>
                  membersFrom reader put rounds false (put members key value) rest

def members {α σ : Type} (levels : Nat) (reader : Reader α) (start : σ)
    (put : σ → String → α → σ) : Reader σ := fun text =>
  match skipSpace text with
  | '\x7b' :: rest =>
      match levels with
      | 0 => .error .malformed
      | _ + 1 => membersFrom reader put rest true start rest
  | other => .error (otherKind other)

/-- One of several names: a string, or an object whose only key is the name and whose value is
`null`. -/
def choice {α : Type} (levels : Nat) (named : String → Option α) : Reader α :=
  let chosen : String × List Char → Except Fault (α × List Char) := fun read =>
    match named read.1 with
    | some value => .ok (value, read.2)
    | none => .error .mismatched
  fun text =>
    match skipSpace text with
    | [] => .error .truncated
    | '"' :: rest => (stringBody rest).bind chosen
    | '\x7b' :: rest =>
        match levels with
        | 0 => .error .malformed
        | _ + 1 => do
            let (value, rest) ←
              match skipSpace rest with
              | '"' :: rest => (stringBody rest).bind chosen
              | [] => .error .truncated
              | _ => .error .malformed
            let (_, rest) ← skipColon rest
            let rest ←
              match skipSpace rest with
              | 'n' :: rest => (word "ull".toList rest).map (·.2)
              | other => .error (otherKind other)
            match skipSpace rest with
            | '\x7d' :: rest => .ok (value, rest)
            | [] => .error .truncated
            | _ => .error .malformed
    | _ => .error .malformed

structure Field (σ : Type) where
  name : String
  isSet : σ → Bool
  read : σ → Reader σ

def Field.make {σ α : Type} (name : String) (get? : σ → Option α) (reader : Reader α)
    (set : σ → α → σ) : Field σ :=
  { name
    isSet := fun draft => (get? draft).isSome
    read := fun draft text => (reader text).map fun read => (set draft read.1, read.2) }

/-- A record: the draft to begin with, its fields in order, whether other fields are refused,
and the value of a finished draft if no field that must be there is missing. -/
structure Shape (σ α : Type) where
  start : σ
  fields : List (Field σ)
  strict : Bool
  finish : σ → Option α

def Shape.finished {σ α : Type} (shape : Shape σ α) (draft : σ) : Except Fault α :=
  match shape.finish draft with
  | some value => .ok value
  | none => .error .mismatched

def Shape.fieldsFrom {σ α : Type} (shape : Shape σ α) (rounds : List Char) (first : Bool)
    (draft : σ) (text : List Char) : Except Fault (α × List Char) :=
  match rounds with
  | [] => .error .truncated
  | _ :: rounds =>
      match nextKey first text with
      | .error fault => .error fault
      | .ok (none, rest) => (shape.finished draft).map fun value => (value, rest.tail)
      | .ok (some key, rest) =>
          match shape.fields.find? (·.name == key) with
          | some field =>
              if field.isSet draft then .error .mismatched
              else
                match skipColon rest with
                | .error fault => .error fault
                | .ok (_, rest) =>
                    match field.read draft rest with
                    | .error fault => .error fault
                    | .ok (draft, rest) => shape.fieldsFrom rounds false draft rest
          | none =>
              if shape.strict then .error .mismatched
              else
                match skipColon rest with
                | .error fault => .error fault
                | .ok (_, rest) =>
                    match skipValue rest with
                    | .error fault => .error fault
                    | .ok (_, rest) => shape.fieldsFrom rounds false draft rest

def arrayEnd : Reader Unit := fun text =>
  match skipSpace text with
  | ']' :: rest => .ok ((), rest)
  | [] => .error .truncated
  | _ => .error .malformed

def Shape.positionsFrom {σ α : Type} (shape : Shape σ α) (fields : List (Field σ)) (first : Bool)
    (draft : σ) (text : List Char) : Except Fault (α × List Char) :=
  let ended : List Char → Except Fault (α × List Char) := fun text => do
    let value ← shape.finished draft
    let (_, rest) ← arrayEnd text
    .ok (value, rest)
  match fields with
  | [] => ended text
  | field :: later =>
      match nextItem first text with
      | .error fault => .error fault
      | .ok (false, rest) => ended rest
      | .ok (true, rest) =>
          match field.read draft rest with
          | .error fault => .error fault
          | .ok (draft, rest) => shape.positionsFrom later false draft rest

def record {σ α : Type} (levels : Nat) (shape : Nat → Shape σ α) : Reader α := fun text =>
  match skipSpace text with
  | '\x7b' :: rest =>
      match levels with
      | 0 => .error .malformed
      | inner + 1 =>
          let shape := shape inner
          shape.fieldsFrom rest true shape.start rest
  | '[' :: rest =>
      match levels with
      | 0 => .error .malformed
      | inner + 1 =>
          let shape := shape inner
          shape.positionsFrom shape.fields true shape.start rest
  | other => .error (otherKind other)

end ComponentStyles.Json
