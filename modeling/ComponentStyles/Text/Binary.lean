/-!
Binary floating point in 64 bits: how natural numbers are rounded, and from which on they are
beyond every finite number.
-/

namespace ComponentStyles.Text.Binary

def precision : Nat :=
  53

/-- The least number that rounds beyond every finite one.  It lies half way between the largest
finite number and the next power of two, which is the even neighbour. -/
def limit : Nat :=
  Nat.pow 2 1024 - Nat.pow 2 970

def rounded (value : Nat) : Nat :=
  let excess := value.log2 + 1 - precision
  let unit := Nat.pow 2 excess
  let kept := value / unit
  let dropped := value % unit
  if unit < 2 * dropped ∨ (unit = 2 * dropped ∧ kept % 2 = 1) then (kept + 1) * unit
  else kept * unit

end ComponentStyles.Text.Binary
