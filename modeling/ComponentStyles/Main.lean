import ComponentStyles.CommandLine.Run

/-!
The program: reads files and prints what a run says.
-/

namespace ComponentStyles

def reasonWords? (number : Nat) : Option String :=
  match number with
  | 2 => some "No such file or directory"
  | 13 => some "Permission denied"
  | 20 => some "Not a directory"
  | 21 => some "Is a directory"
  | 36 => some "File name too long"
  | 40 => some "Too many levels of symbolic links"
  | _ => none

def numberedReason (code : UInt32) (details : String) : String :=
  let number := if code < 0x80000000 then code.toNat else (0 - code).toNat
  (reasonWords? number).getD details ++ " (os error " ++ toString number ++ ")"

def systemReason : IO.Error → String
  | .noFileOrDirectory _ code details => numberedReason code details
  | .permissionDenied _ code details => numberedReason code details
  | .inappropriateType _ code details => numberedReason code details
  | .invalidArgument _ code details => numberedReason code details
  | .resourceExhausted _ code details => numberedReason code details
  | .otherError code details => numberedReason code details
  | other => toString other

def readText (path : String) : IO (Except String String) := do
  match ← (IO.FS.readBinFile path).toBaseIO with
  | .error reason => return .error (systemReason reason)
  | .ok bytes =>
      match String.fromUTF8? bytes with
      | some text => return .ok text
      | none => return .error "stream did not contain valid UTF-8"

end ComponentStyles

def main (arguments : List String) : IO UInt32 := do
  let printed ← ComponentStyles.CommandLine.run ComponentStyles.readText arguments
  IO.print printed.output
  IO.eprint printed.errors
  return printed.code.toUInt32
