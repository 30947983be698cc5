import ComponentStyles.Text.Ascii
import ComponentStyles.Text.Binary

/-!
Decimal numbers as they are written: a sign, digits around a point, and an exponent.
-/

namespace ComponentStyles.Text

structure Numeral where
  negative : Bool
  whole : List Char
  fraction : List Char
  exponent : Option (Bool × List Char)
  deriving DecidableEq, Repr

namespace Numeral

/-- The size of an exponent: its digits are read until the limit is reached, and those behind are
without effect. -/
def exponentSize (limit : Nat) (digits : List Char) : Nat :=
  digits.foldl (fun size digit =>
    if size < limit then size * 10 + (hexValue? digit).getD 0 else size) 0

def power (number : Numeral) (limit : Nat) : Int :=
  match number.exponent with
  | none => 0
  | some (negative, digits) =>
      if negative then -(exponentSize limit digits : Int) else exponentSize limit digits

def exponentLimit : Nat :=
  65536

def limitSize : Nat :=
  309

/-- The number rounds beyond every finite number.  From the first digit on that is not zero, the
digits in front of the point are counted, and compared where their count does not decide. -/
def isTooLarge (number : Numeral) : Bool :=
  let digits := (number.whole ++ number.fraction).dropWhile (· == '0')
  let size : Int := digits.length + number.power exponentLimit - number.fraction.length
  if digits.isEmpty ∨ size < limitSize then false
  else if limitSize < size then true
  else
    Binary.limit ≤ digitsValue 10 ((digits ++ List.replicate limitSize '0').take limitSize)

def natural? (number : Numeral) (limit : Nat) : Option Nat :=
  if number.negative || !number.fraction.isEmpty || number.exponent.isSome then none
  else digitsUpTo? 10 limit number.whole

end Numeral

end ComponentStyles.Text
