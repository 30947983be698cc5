import ComponentStyles.CommandLine.Notice
import ComponentStyles.Name
import ComponentStyles.Table
import ComponentStyles.Text.Terminal

/-!
Command line arguments.

The program has one command, `collect`.  Flags may stand in front of it and behind it, and an
option takes the argument behind it or the text behind its equals sign.  The first argument that
cannot be understood decides what is reported; what is missing counts only in the end.
-/

namespace ComponentStyles.CommandLine

structure CollectRequest where
  fixture : String
  module : ModuleName
  sdk : String
  config : Option String
  json : Bool
  noticeLevel : NoticeLevel
  deriving DecidableEq, Repr

inductive Flag where
  | json
  | verbose
  | trace
  deriving DecidableEq, Repr

def Flag.name : Flag → String
  | json => "--json"
  | verbose => "--verbose"
  | trace => "--trace"

def Flag.ofName? : String → Option Flag
  | "json" => some json
  | "verbose" => some verbose
  | "trace" => some trace
  | _ => none

def noticeLevelOf (flags : List Flag) : NoticeLevel :=
  if .trace ∈ flags then .detail
  else if .verbose ∈ flags then .step
  else .warning

inductive Slot where
  | fixture
  | module
  | sdk
  | config
  deriving DecidableEq, Repr

def Slot.name : Slot → String
  | fixture => "<FIXTURE>"
  | module => "--module <MODULE>"
  | sdk => "--sdk <SDK>"
  | config => "--config <CONFIG>"

def Slot.ofOption? : String → Option Slot
  | "module" => some module
  | "sdk" => some sdk
  | "config" => some config
  | _ => none

def Slot.isPath : Slot → Bool
  | fixture => true
  | config => true
  | _ => false

inductive UsageFault where
  | missingCommand
  | unknownCommand (name : String)
  | unexpectedArgument (argument : String)
  | unexpectedValue (value option : String)
  | missingValue (slot : Slot)
  | repeatedFlag (flag : Flag)
  | repeatedOption (slot : Slot)
  | missingArguments (slots : List Slot)
  deriving DecidableEq, Repr

def UsageFault.message : UsageFault → String
  | missingCommand => "'localstyle' requires a subcommand but one was not provided"
  | unknownCommand name => "unrecognized subcommand '" ++ Text.shown name ++ "'"
  | unexpectedArgument argument => "unexpected argument '" ++ Text.shown argument ++ "' found"
  | unexpectedValue value option =>
      "unexpected value '" ++ Text.shown value ++ "' for '" ++ option ++
        "' found; no more were expected"
  | missingValue slot => "a value is required for '" ++ slot.name ++ "' but none was supplied"
  | repeatedFlag flag => "the argument '" ++ flag.name ++ "' cannot be used multiple times"
  | repeatedOption slot => "the argument '" ++ slot.name ++ "' cannot be used multiple times"
  | missingArguments slots =>
      "the following required arguments were not provided:" ++
        String.join (slots.map fun slot => "\n  " ++ slot.name)

inductive Ending where
  | help
  | version
  | nothing
  | fault (found : UsageFault)
  deriving DecidableEq, Repr

inductive Word where
  | separator
  | long (name : String) (value : Option String)
  | short (letters : List Char)
  | plain (text : String)
  deriving DecidableEq, Repr

def Word.ofArgument (argument : String) : Word :=
  match argument.toList with
  | ['-', '-'] => .separator
  | '-' :: '-' :: rest =>
      match rest.dropWhile (· ≠ '=') with
      | _ :: value => .long (String.ofList (rest.takeWhile (· ≠ '='))) (some (String.ofList value))
      | [] => .long (String.ofList rest) none
  | '-' :: letter :: letters => .short (letter :: letters)
  | _ => .plain argument

def setFlag (flags : List Flag) (flag : Flag) : Except Ending (List Flag) :=
  if flag ∈ flags then .error (.fault (.repeatedFlag flag)) else .ok (flag :: flags)

def longFlag (inFront : Bool) (flags : List Flag) (name : String) (value : Option String) :
    Except Ending (List Flag) :=
  let refused : Except Ending (List Flag) :=
    match value with
    | some value => .error (.fault (.unexpectedValue value ("--" ++ name)))
    | none => .ok flags
  match Flag.ofName? name with
  | some flag => refused.bind fun flags => setFlag flags flag
  | none =>
      if name = "help" then refused.bind fun _ => .error .help
      else if name = "version" ∧ inFront then refused.bind fun _ => .error .version
      else .error (.fault (.unexpectedArgument ("--" ++ name)))

def shortFlags (inFront : Bool) (flags : List Flag) : List Char → Except Ending (List Flag)
  | [] => .ok flags
  | letter :: letters =>
      if letter = 'v' then
        (setFlag flags .verbose).bind fun flags => shortFlags inFront flags letters
      else if letter = 'h' then .error .help
      else if letter = 'V' ∧ inFront then .error .version
      else .error (.fault (.unexpectedArgument (String.ofList ['-', letter])))

structure CollectDraft where
  flags : List Flag
  values : Table Slot String
  pending : Option (Slot × Option String)

namespace CollectDraft

def store (draft : CollectDraft) (slot : Slot) (value : String) : Except Ending CollectDraft :=
  if (draft.values.get? slot).isSome then .error (.fault (.repeatedOption slot))
  else if slot.isPath ∧ value.isEmpty then .error (.fault (.missingValue slot))
  else .ok { draft with values := draft.values.put slot value, pending := none }

def settled (draft : CollectDraft) : Except Ending CollectDraft :=
  match draft.pending with
  | none => .ok draft
  | some (slot, none) => .error (.fault (.missingValue slot))
  | some (slot, some value) => draft.store slot value

def hasFixture (draft : CollectDraft) : Bool :=
  (draft.values.get? .fixture).isSome || (draft.pending.map Prod.fst == some .fixture)

def addPlain (draft : CollectDraft) (text : String) : Except Ending CollectDraft :=
  if draft.hasFixture then .error (.fault (.unexpectedArgument text))
  else draft.settled.map fun draft => { draft with pending := some (.fixture, some text) }

def addLong (draft : CollectDraft) (name : String) (value : Option String) :
    Except Ending CollectDraft :=
  match Slot.ofOption? name, value with
  | some slot, some value => draft.settled.bind fun draft => draft.store slot value
  | some slot, none => draft.settled.map fun draft => { draft with pending := some (slot, none) }
  | none, some _ => (longFlag false draft.flags name value).map fun _ => draft
  | none, none =>
      if (Flag.ofName? name).isSome ∨ name = "help" then
        draft.settled.bind fun draft =>
          (longFlag false draft.flags name none).map fun flags => { draft with flags }
      else (longFlag false draft.flags name none).map fun _ => draft

def addShort (draft : CollectDraft) (letters : List Char) : Except Ending CollectDraft :=
  if letters.head? = some 'v' ∨ letters.head? = some 'h' then
    draft.settled.bind fun draft =>
      (shortFlags false draft.flags letters).map fun flags => { draft with flags }
  else (shortFlags false draft.flags letters).map fun _ => draft

def add (draft : CollectDraft) (argument : String) : Except Ending CollectDraft :=
  match Word.ofArgument argument with
  | .long name value => draft.addLong name value
  | .short letters => draft.addShort letters
  | _ =>
      match draft.pending with
      | some (slot, none) => .ok { draft with pending := some (slot, some argument) }
      | _ => draft.addPlain argument

def request (draft : CollectDraft) (flags : List Flag) : Except Ending CollectRequest :=
  let all := draft.flags ++ flags
  match draft.values.get? .fixture, draft.values.get? .module, draft.values.get? .sdk with
  | some fixture, some module, some sdk =>
      .ok
        { fixture, module := { text := module }, sdk
          config := draft.values.get? .config
          json := .json ∈ all
          noticeLevel := noticeLevelOf all }
  | _, _, _ =>
      .error (.fault (.missingArguments
        ([Slot.fixture, .module, .sdk].filter fun slot => (draft.values.get? slot).isNone)))

def read (draft : CollectDraft) : List String → Except Ending CollectDraft
  | [] => .ok draft
  | argument :: rest =>
      if argument = "--" then rest.foldlM addPlain draft
      else (draft.add argument).bind fun draft => draft.read rest

end CollectDraft

def collectRequest (flags : List Flag) (arguments : List String) :
    Except Ending CollectRequest := do
  let draft ← CollectDraft.read { flags := [], values := [], pending := none } arguments
  let draft ← draft.settled
  draft.request flags

def helpFor (arguments : List String) : Ending :=
  match arguments with
  | [] => .help
  | name :: rest =>
      if name = "collect" ∨ name = "help" then
        match rest with
        | [] => .help
        | extra :: _ => .fault (.unknownCommand extra)
      else .fault (.unknownCommand name)

def requestFrom (flags : List Flag) : List String → Except Ending CollectRequest
  | [] => .error (if flags.isEmpty then .nothing else .fault .missingCommand)
  | argument :: rest =>
      match Word.ofArgument argument with
      | .separator =>
          match rest with
          | [] => .error (if flags.isEmpty then .nothing else .fault .missingCommand)
          | name :: _ =>
              .error (.fault
                (if name = "collect" ∨ name = "help" then .unexpectedArgument name
                else .unknownCommand name))
      | .long name value => (longFlag true flags name value).bind (requestFrom · rest)
      | .short letters => (shortFlags true flags letters).bind (requestFrom · rest)
      | .plain name =>
          if name = "collect" then collectRequest flags rest
          else if name = "help" then .error (helpFor rest)
          else .error (.fault (.unknownCommand name))

def request (arguments : List String) : Except Ending CollectRequest :=
  requestFrom [] arguments

end ComponentStyles.CommandLine
