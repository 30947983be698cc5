import ComponentStyles.Text.Ascii
import ComponentStyles.Text.Blank

/-!
Versions of the SDK.

A version is a text that begins with a number, the major version; the rest is kept but means
nothing.  Blanks around the text are not part of it.
-/

namespace ComponentStyles

open ComponentStyles.Text

structure SdkVersion where
  major : Nat
  text : String
  deriving DecidableEq, Repr

structure InvalidSdkVersion where
  input : String
  deriving DecidableEq, Repr

def InvalidSdkVersion.message (fault : InvalidSdkVersion) : String :=
  "invalid SDK version: '" ++ fault.input ++ "'"

namespace SdkVersion

def majorLimit : Nat := 4294967295

def parse (input : String) : Except InvalidSdkVersion SdkVersion :=
  let text := trim input.toList
  let digits := text.takeWhile isDigit
  match digits, digitsUpTo? 10 majorLimit digits with
  | _ :: _, some major => .ok { major, text := String.ofList text }
  | _, _ => .error { input }

def supports (version : SdkVersion) (minimum : Nat) : Bool :=
  minimum ≤ version.major

end SdkVersion

end ComponentStyles
