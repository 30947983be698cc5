import ComponentStyles.Text.Numeral

/-!
How large a JSON number is taken to be.

A number is kept as a significand of 64 bits and a power of ten.  Both are rounded before they
are multiplied, so a number close to the limit may be refused although it is below it, or
accepted although it is above.
-/

namespace ComponentStyles.Json

open ComponentStyles.Text

def significandLimit : Nat :=
  18446744073709551615

/-- The limit of the exponent; one of this size outweighs any count of digits. -/
def exponentLimit : Nat :=
  2147483648

def powerLimit : Int :=
  308

def appendDigits (significand : Nat) : List Char → Nat × List Char
  | [] => (significand, [])
  | digit :: rest =>
      let longer := significand * 10 + (hexValue? digit).getD 0
      if longer ≤ significandLimit then appendDigits longer rest
      else (significand, digit :: rest)

structure Magnitude where
  significand : Nat
  power : Int
  deriving DecidableEq, Repr

/-- The magnitude of a number.  Digits in front of the point that do not fit count as zeros, and
those behind it are left out. -/
def Magnitude.of (number : Numeral) : Magnitude :=
  let whole := appendDigits 0 number.whole
  let all := appendDigits whole.1 number.fraction
  { significand := all.1
    power := number.power exponentLimit + whole.2.length + all.2.length - number.fraction.length }

def Magnitude.isTooLarge (magnitude : Magnitude) : Bool :=
  if magnitude.significand = 0 ∨ magnitude.power < 0 then false
  else if powerLimit < magnitude.power then true
  else
    Binary.limit ≤
      Binary.rounded magnitude.significand * Binary.rounded (Nat.pow 10 magnitude.power.toNat)

end ComponentStyles.Json
