import ComponentStyles.Bytes.Hex

/-!
JSON as text for readers: two blanks for each level, one item or member to a line.
-/

namespace ComponentStyles.Json

inductive Value where
  | null
  | natural (value : Nat)
  | string (text : String)
  | array (items : List Value)
  | object (members : List (String × Value))
  deriving Repr

def controlDigits (character : Char) : String :=
  "00" ++ Bytes.hexText [UInt8.ofNat character.toNat]

/-- A character inside a string.  Only quotes, backslashes and control characters below the
blank are written otherwise. -/
def characterText (character : Char) : String :=
  match character with
  | '"' => "\\\""
  | '\\' => "\\\\"
  | '\x08' => "\\b"
  | '\x0c' => "\\f"
  | '\n' => "\\n"
  | '\r' => "\\r"
  | '\t' => "\\t"
  | other =>
      if other.toNat < 0x20 then "\\u" ++ controlDigits other else String.singleton other

def quoted (text : String) : String :=
  "\"" ++ String.join (text.toList.map characterText) ++ "\""

def bracketed (opening closing indentation : String) (lines : List String) : String :=
  if lines.isEmpty then opening ++ closing
  else
    let inner := "\n" ++ indentation ++ "  "
    opening ++ inner ++ String.intercalate ("," ++ inner) lines ++ "\n" ++ indentation ++ closing

mutual

def Value.textAt (indentation : String) : Value → String
  | .null => "null"
  | .natural value => toString value
  | .string text => quoted text
  | .array items => bracketed "[" "]" indentation (itemTexts (indentation ++ "  ") items)
  | .object members =>
      bracketed "\x7b" "\x7d" indentation (memberTexts (indentation ++ "  ") members)

def itemTexts (indentation : String) : List Value → List String
  | [] => []
  | item :: rest => item.textAt indentation :: itemTexts indentation rest

def memberTexts (indentation : String) : List (String × Value) → List String
  | [] => []
  | (name, value) :: rest =>
      (quoted name ++ ": " ++ value.textAt indentation) :: memberTexts indentation rest

end

def Value.text (value : Value) : String :=
  value.textAt ""

end ComponentStyles.Json
