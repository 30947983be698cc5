/-!
Numbers of fixed width, least significant byte first.

Writing and reading undo each other for every number that fits the width, whatever bytes
follow.
-/

namespace ComponentStyles.Bytes

def littleEndian : Nat → Nat → List UInt8
  | 0, _ => []
  | width + 1, value => UInt8.ofNat value :: littleEndian width (value / 256)

def readLittleEndian : Nat → List UInt8 → Option (Nat × List UInt8)
  | 0, bytes => some (0, bytes)
  | _ + 1, [] => none
  | width + 1, byte :: bytes =>
      (readLittleEndian width bytes).map fun read => (byte.toNat + 256 * read.1, read.2)

theorem readLittleEndian_append (width value : Nat) (rest : List UInt8)
    (fits : value < Nat.pow 256 width) :
    readLittleEndian width (littleEndian width value ++ rest) = some (value, rest) := by
  induction width generalizing value with
  | zero =>
      have zero : value = 0 := Nat.lt_one_iff.mp fits
      subst zero
      rfl
  | succ width inductionHypothesis =>
      have smaller : value / 256 < Nat.pow 256 width :=
        (Nat.div_lt_iff_lt_mul (by decide)).mpr fits
      simp only [littleEndian, List.cons_append, readLittleEndian,
        inductionHypothesis _ smaller, Option.map_some, UInt8.toNat_ofNat']
      congr 2
      omega

end ComponentStyles.Bytes
