/-!
What a terminal shows of a text.

Control characters are not shown, except those that move on as white space does, and neither are
the sequences that an escape character begins.  A sequence ends with its last character, with a
new escape, or when it is cancelled.

White space within an escape or control sequence is shown and suspends it: what follows is plain
text up to the next character that is never shown, and there the sequence goes on.  A character
outside ASCII that is shown ends what it finds suspended.
-/

namespace ComponentStyles.Text

inductive TerminalSequence where
  | ground
  | escape
  | escapeTail
  | control
  | device
  | deviceParameters
  | deviceTail
  | string
  | command
  deriving DecidableEq, Repr

def movesOn (character : Char) : Bool :=
  character == '\t' || character == '\n' || character == '\x0c' || character == '\r'

def isShown (character : Char) : Bool :=
  movesOn character || (decide (' ' ≤ character) && character != '\x7f')

def holdsTerminator (character : Char) : Bool :=
  (String.singleton character).toUTF8.toList.contains 0x9C

namespace TerminalSequence

def shows (sequence : TerminalSequence) (character : Char) : Bool :=
  match sequence with
  | ground => isShown character
  | escape | escapeTail | control => movesOn character
  | device | deviceParameters | deviceTail | string | command => false

def ofEscaped (character : Char) : TerminalSequence :=
  if character = '[' then .control
  else if character = ']' then .command
  else if character = 'P' then .device
  else if character = 'X' ∨ character = '^' ∨ character = '_' then .string
  else if character ≤ '/' then .escapeTail
  else .ground

def behind (sequence : TerminalSequence) (character : Char) : TerminalSequence :=
  match sequence with
  | ground | string | command => sequence
  | escape => ofEscaped character
  | escapeTail => if '0' ≤ character then ground else escapeTail
  | control => if '@' ≤ character then ground else control
  | device =>
      if '@' ≤ character then string
      else if '0' ≤ character then deviceParameters
      else deviceTail
  | deviceParameters =>
      if '<' ≤ character then string
      else if '0' ≤ character then deviceParameters
      else deviceTail
  | deviceTail => if '0' ≤ character then string else deviceTail

def past (sequence : TerminalSequence) (character : Char) : TerminalSequence :=
  if character = '\x1b' then escape
  else if character = '\x18' ∨ character = '\x1a' then ground
  else if character < ' ' then
    if sequence = command ∧ character = '\x07' then ground else sequence
  else if character < '\x7f' then sequence.behind character
  else if sequence = string ∧ holdsTerminator character then ground
  else sequence

end TerminalSequence

structure TerminalState where
  sequence : TerminalSequence
  isShowing : Bool
  deriving DecidableEq, Repr

namespace TerminalState

def start : TerminalState := ⟨.ground, true⟩

def shows (state : TerminalState) (character : Char) : Bool :=
  if state.isShowing then isShown character else state.sequence.shows character

def next (state : TerminalState) (character : Char) : TerminalState :=
  if state.shows character then ⟨if '\x7f' < character then .ground else state.sequence, true⟩
  else ⟨state.sequence.past character, false⟩

end TerminalState

def shownFrom (state : TerminalState) : List Char → List Char
  | [] => []
  | character :: rest =>
      if state.shows character then character :: shownFrom (state.next character) rest
      else shownFrom (state.next character) rest

def shown (text : String) : String :=
  String.ofList (shownFrom .start text.toList)

end ComponentStyles.Text
