import ComponentStyles.Name
import ComponentStyles.Text.Ascii

/-!
What compiled stylesheets refer to: component classes and embedded assets.
-/

namespace ComponentStyles.Sheet

structure ComponentTally where
  references : List ClassName
  deriving DecidableEq, Repr

namespace ComponentTally

def empty : ComponentTally :=
  { references := [] }

def register (tally : ComponentTally) (name : ClassName) : ComponentTally :=
  { references := name :: tally.references }

def count (tally : ComponentTally) (name : ClassName) : Nat :=
  tally.references.count name

def total (tally : ComponentTally) : Nat :=
  tally.references.length

end ComponentTally

structure AssetTally where
  images : Nat
  films : Nat
  deriving DecidableEq, Repr

namespace AssetTally

def empty : AssetTally :=
  { images := 0, films := 0 }

def isFilm (path : String) : Bool :=
  ".swf".toList.isSuffixOf (Text.lowercased path).toList

/-- The last four characters of the path are `.swf`, in letters of either case. -/
def NamesFilm (path : String) : Prop :=
  Text.CasesOf (path.toList.drop (path.toList.length - 4)) ".swf".toList
  deriving Decidable

theorem isFilm_iff {path : String} : isFilm path = true ↔ NamesFilm path := by
  have lower : (Text.lowercased path).toList = path.toList.map Text.lowerAscii :=
    String.toList_ofList
  have ending : isFilm path = true ↔
      ".swf".toList = (path.toList.drop (path.toList.length - 4)).map Text.lowerAscii := by
    rw [isFilm, List.isSuffixOf_iff_suffix, List.suffix_iff_eq_drop, lower, List.length_map,
      List.map_drop]
    rfl
  rw [ending, eq_comm, Text.map_lowerAscii_eq_iff (by decide), NamesFilm]

def record (tally : AssetTally) (path : String) : AssetTally :=
  if isFilm path then { tally with films := tally.films + 1 }
  else { tally with images := tally.images + 1 }

def total (tally : AssetTally) : Nat :=
  tally.images + tally.films

end AssetTally

end ComponentStyles.Sheet
