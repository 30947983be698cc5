/-!
The string table shared by everything compiled in one pass.

A string gets its number when it first comes, and the numbers count up from zero.  They are 32
bits wide, and a string beyond that width gets its position modulo the width.
-/

namespace ComponentStyles.Sheet

structure StringTable where
  strings : Array String
  deriving DecidableEq, Repr

namespace StringTable

def empty : StringTable :=
  { strings := #[] }

def size (table : StringTable) : Nat :=
  table.strings.size

def intern (table : StringTable) (text : String) : UInt32 × StringTable :=
  match table.strings.idxOf? text with
  | some position => (UInt32.ofNat position, table)
  | none => (UInt32.ofNat table.size, { strings := table.strings.push text })

def get? (table : StringTable) (id : UInt32) : Option String :=
  table.strings[id.toNat]?

end StringTable

end ComponentStyles.Sheet
