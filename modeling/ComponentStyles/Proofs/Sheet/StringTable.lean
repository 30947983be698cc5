import ComponentStyles.Sheet.Layout
import ComponentStyles.Sheet.StringTable
import Mathlib.Data.List.Basic

/-!
String numbers keep their meaning.

A table only grows at its end, so the number that a string got from a table is its number in
every later one.  While a table has no more strings than there are numbers below the mark for
no condition, each number names one string, and none of them is the mark.
-/

namespace ComponentStyles.Sheet

namespace StringTable

def IncludedIn (earlier later : StringTable) : Prop :=
  earlier.strings.toList <+: later.strings.toList

theorem IncludedIn.refl (table : StringTable) : table.IncludedIn table :=
  List.prefix_rfl

theorem IncludedIn.trans {earlier middle later : StringTable} (first : earlier.IncludedIn middle)
    (second : middle.IncludedIn later) : earlier.IncludedIn later :=
  List.IsPrefix.trans first second

def Holds (table : StringTable) (text : String) : Prop :=
  text ∈ table.strings.toList

def numberOf (table : StringTable) (text : String) : UInt32 :=
  UInt32.ofNat (table.strings.toList.idxOf text)

theorem Holds.later {earlier later : StringTable} {text : String} (holds : earlier.Holds text)
    (included : earlier.IncludedIn later) : later.Holds text :=
  List.IsPrefix.subset included holds

theorem Holds.numberOf_later {earlier later : StringTable} {text : String}
    (holds : earlier.Holds text) (included : earlier.IncludedIn later) :
    earlier.numberOf text = later.numberOf text := by
  unfold numberOf
  rw [List.IsPrefix.idxOf_eq_of_mem included holds]

theorem idxOf?_strings (table : StringTable) (text : String) :
    table.strings.idxOf? text = table.strings.toList.idxOf? text := by
  rw [← List.idxOf?_toArray, Array.toArray_toList]

theorem intern_held {table : StringTable} {text : String} (holds : table.Holds text) :
    table.intern text = (table.numberOf text, table) := by
  cases position : table.strings.toList.idxOf? text with
  | none => exact absurd holds (List.idxOf?_eq_none_iff.mp position)
  | some found =>
      have number : table.strings.toList.idxOf text = found := by
        rw [List.idxOf_eq_getD_idxOf?, position, Option.getD_some]
      simp only [intern, idxOf?_strings, position, numberOf, number]

theorem intern_new {table : StringTable} {text : String} (absent : ¬ table.Holds text) :
    table.intern text =
      (UInt32.ofNat table.size, { strings := table.strings.push text }) := by
  have position : table.strings.toList.idxOf? text = none := List.idxOf?_eq_none_iff.mpr absent
  simp only [intern, idxOf?_strings, position]

theorem includedIn_intern (table : StringTable) (text : String) :
    table.IncludedIn (table.intern text).2 := by
  by_cases holds : table.Holds text
  · rw [intern_held holds]
    exact IncludedIn.refl table
  · rw [intern_new holds]
    refine ⟨[text], ?_⟩
    rw [Array.toList_push]

theorem holds_intern (table : StringTable) (text : String) :
    (table.intern text).2.Holds text := by
  by_cases holds : table.Holds text
  · rw [intern_held holds]
    exact holds
  · rw [intern_new holds]
    unfold Holds
    rw [Array.toList_push]
    exact List.mem_concat_self

theorem intern_eq_numberOf (table : StringTable) (text : String) :
    (table.intern text).1 = (table.intern text).2.numberOf text := by
  by_cases holds : table.Holds text
  · rw [intern_held holds]
  · rw [intern_new holds]
    have absent : text ∉ table.strings.toList := holds
    unfold numberOf
    rw [Array.toList_push, List.idxOf_append_of_notMem absent, List.idxOf_cons_self,
      Nat.add_zero, Array.length_toList]
    rfl

theorem intern_later {table later : StringTable} {text : String}
    (included : (table.intern text).2.IncludedIn later) :
    (table.intern text).1 = later.numberOf text ∧ later.Holds text := by
  have holds := table.holds_intern text
  refine ⟨?_, holds.later included⟩
  rw [table.intern_eq_numberOf text]
  exact holds.numberOf_later included

/-- There are no more strings than numbers. -/
def FitsWidth (table : StringTable) : Prop :=
  table.size ≤ 4294967296

theorem Holds.toNat_eq_idxOf {table : StringTable} {text : String} (holds : table.Holds text)
    (fits : table.FitsWidth) :
    (table.numberOf text).toNat = table.strings.toList.idxOf text := by
  have position : table.strings.toList.idxOf text < table.strings.toList.length :=
    List.idxOf_lt_length_of_mem holds
  rw [Array.length_toList] at position
  exact UInt32.toNat_ofNat_of_lt' (Nat.lt_of_lt_of_le position fits)

theorem Holds.get?_of_fits {table : StringTable} {text : String} (holds : table.Holds text)
    (fits : table.FitsWidth) : table.get? (table.numberOf text) = some text := by
  unfold get?
  rw [holds.toNat_eq_idxOf fits, ← Array.getElem?_toList]
  exact List.getElem?_idxOf holds

/-- Every string of the table has a number of its own below the mark for no condition. -/
def WithinNumbers (table : StringTable) : Prop :=
  table.size ≤ noCondition.toNat

theorem WithinNumbers.fits {table : StringTable} (within : table.WithinNumbers) :
    table.FitsWidth :=
  Nat.le_trans within (Nat.le_of_lt noCondition.toNat_lt)

theorem Holds.toNat_numberOf {table : StringTable} {text : String} (holds : table.Holds text)
    (within : table.WithinNumbers) :
    (table.numberOf text).toNat = table.strings.toList.idxOf text ∧
      (table.numberOf text).toNat < noCondition.toNat := by
  have position : table.strings.toList.idxOf text < table.strings.toList.length :=
    List.idxOf_lt_length_of_mem holds
  have number := holds.toNat_eq_idxOf within.fits
  rw [Array.length_toList] at position
  exact ⟨number, number ▸ Nat.lt_of_lt_of_le position within⟩

theorem Holds.get?_numberOf {table : StringTable} {text : String} (holds : table.Holds text)
    (within : table.WithinNumbers) : table.get? (table.numberOf text) = some text :=
  holds.get?_of_fits within.fits

theorem Holds.numberOf_ne_noCondition {table : StringTable} {text : String}
    (holds : table.Holds text) (within : table.WithinNumbers) :
    table.numberOf text ≠ noCondition := by
  intro same
  have below := (holds.toNat_numberOf within).2
  rw [same] at below
  exact Nat.lt_irrefl _ below

end StringTable

end ComponentStyles.Sheet
