import ComponentStyles.Bytes.Hex

/-!
Text that cannot steer a terminal.

The characters with which a text could steer a terminal are written by their numbers.  Those that
only move on, such as tabs and line ends, stay as they are.
-/

namespace ComponentStyles.Text

def steers (character : Char) : Bool :=
  ['\x07', '\x08', '\x0c', '\x1b', '\x7f'].contains character ||
    ('\u0080' ≤ character && character ≤ '\u009f')

def numbered (character : Char) : List Char :=
  let digits := (Bytes.hexText [UInt8.ofNat character.toNat]).toList
  if character ≤ '\x7f' then '\\' :: 'x' :: digits
  else '\\' :: 'u' :: '\x7b' :: digits ++ ['\x7d']

/-- The text with every character that steers a terminal written by its number. -/
def guarded (text : String) : String :=
  String.ofList (text.toList.flatMap fun character =>
    if steers character then numbered character else [character])

end ComponentStyles.Text
