import ComponentStyles.Proofs.Sheet.StringTable
import ComponentStyles.Table
import Mathlib.Data.List.Induction
import Mathlib.Data.List.Nodup

/-!
Numbers given in a run of strings.

A fresh table numbers strings from zero up, in the order in which they first come, and a string
keeps its number.  So numbers and strings determine each other while there are numbers left; the
last number of all is the mark for no condition.  An index from the strings to their numbers can
be kept beside the table, and either part is then the inverse of the other.
-/

namespace ComponentStyles.Sheet

theorem eraseDups_concat_known {texts : List String} {text : String} (known : text ∈ texts) :
    (texts ++ [text]).eraseDups = texts.eraseDups := by
  have dropped : [text].removeAll texts = [] := by simp [List.removeAll, known]
  rw [List.eraseDups_append, dropped, List.eraseDups_nil, List.append_nil]

theorem eraseDups_concat_new {texts : List String} {text : String} (new : text ∉ texts) :
    (texts ++ [text]).eraseDups = texts.eraseDups ++ [text] := by
  have kept : [text].removeAll texts = [text] := by simp [List.removeAll, new]
  rw [List.eraseDups_append, kept]
  rfl

namespace StringTable

/-- The table behind a run: fresh at first, it has been asked for the strings in turn. -/
def after (calls : List String) : StringTable :=
  calls.foldl (fun table text => (table.intern text).2) empty

def given (calls : List String) (text : String) : UInt32 :=
  ((after calls).intern text).1

def Gave (calls : List String) (text : String) (id : UInt32) : Prop :=
  ∃ earlier later, calls = earlier ++ text :: later ∧ id = given earlier text

theorem after_concat (calls : List String) (text : String) :
    after (calls ++ [text]) = ((after calls).intern text).2 :=
  List.foldl_concat ..

/-- The table holds the distinct strings of the run, in the order in which they first came. -/
theorem strings_after (calls : List String) :
    (after calls).strings.toList = calls.eraseDups ∧ calls.eraseDups.Nodup := by
  induction calls using List.reverseRecOn with
  | nil => exact ⟨rfl, List.nodup_nil⟩
  | append_singleton calls text inductionHypothesis =>
      obtain ⟨same, distinct⟩ := inductionHypothesis
      by_cases known : text ∈ calls
      · have holds : (after calls).Holds text := by
          unfold Holds
          rw [same]
          exact List.mem_eraseDups.mpr known
        rw [after_concat, intern_held holds, eraseDups_concat_known known]
        exact ⟨same, distinct⟩
      · have absent : text ∉ calls.eraseDups := fun inside => known (List.mem_eraseDups.mp inside)
        have new : ¬ (after calls).Holds text := by
          unfold Holds
          rw [same]
          exact absent
        rw [after_concat, intern_new new, eraseDups_concat_new known, Array.toList_push, same]
        exact ⟨rfl, List.nodup_append.mpr ⟨distinct, List.nodup_singleton text,
          fun other inside last lastInside equal =>
            absent (List.mem_singleton.mp lastInside ▸ equal ▸ inside)⟩⟩

theorem holds_after (calls : List String) (text : String) :
    (after calls).Holds text ↔ text ∈ calls := by
  unfold Holds
  rw [(strings_after calls).1]
  exact List.mem_eraseDups

theorem size_after (calls : List String) : (after calls).size = calls.eraseDups.length := by
  rw [← (strings_after calls).1, Array.length_toList, size]

theorem includedIn_after (earlier later : List String) :
    (after earlier).IncludedIn (after (earlier ++ later)) := by
  induction later using List.reverseRecOn with
  | nil =>
      rw [List.append_nil]
      exact IncludedIn.refl _
  | append_singleton later text inductionHypothesis =>
      rw [← List.append_assoc, after_concat]
      exact inductionHypothesis.trans (includedIn_intern _ text)

theorem given_later (earlier : List String) (text : String) (later : List String) :
    given earlier text = (after (earlier ++ text :: later)).numberOf text := by
  have included := includedIn_after (earlier ++ [text]) later
  rw [after_concat, List.append_assoc] at included
  exact (intern_later included).1

theorem gave_iff (calls : List String) (text : String) (id : UInt32) :
    Gave calls text id ↔ text ∈ calls ∧ id = (after calls).numberOf text := by
  constructor
  · rintro ⟨earlier, later, rfl, rfl⟩
    exact ⟨List.mem_append_right earlier List.mem_cons_self, given_later earlier text later⟩
  · rintro ⟨inside, rfl⟩
    obtain ⟨earlier, later, rfl⟩ := List.append_of_mem inside
    exact ⟨earlier, later, rfl, (given_later earlier text later).symm⟩

section Fits

variable {calls : List String} (few : calls.eraseDups.length ≤ 4294967296)
include few

theorem fits_after : (after calls).FitsWidth := by
  unfold FitsWidth
  rw [size_after]
  exact few

theorem get?_after_iff (id : UInt32) (text : String) :
    (after calls).get? id = some text ↔ Gave calls text id := by
  rw [gave_iff]
  constructor
  · intro found
    obtain ⟨same, distinct⟩ := strings_after calls
    unfold get? at found
    rw [← Array.getElem?_toList, same, List.getElem?_eq_some_iff] at found
    obtain ⟨within, isText⟩ := found
    have inside : text ∈ calls := List.mem_eraseDups.mp (isText ▸ List.getElem_mem within)
    have number := ((holds_after calls text).mpr inside).toNat_eq_idxOf (fits_after few)
    rw [same, ← isText, distinct.idxOf_getElem, isText] at number
    exact ⟨inside, UInt32.toNat_inj.mp number.symm⟩
  · rintro ⟨inside, rfl⟩
    exact ((holds_after calls text).mpr inside).get?_of_fits (fits_after few)

end Fits

/-- A new string gets the number of distinct strings in front of it. -/
theorem given_new {calls : List String} {text : String} (new : text ∉ calls) :
    given calls text = UInt32.ofNat calls.eraseDups.length := by
  unfold given
  rw [intern_new fun holds => new ((holds_after calls text).mp holds), size_after]

theorem intern_known {calls : List String} {text : String} {id : UInt32}
    (known : Gave calls text id) : (after calls).intern text = (id, after calls) := by
  obtain ⟨inside, rfl⟩ := (gave_iff calls text id).mp known
  exact intern_held ((holds_after calls text).mpr inside)

end StringTable

structure IndexedTable where
  numbers : Table String UInt32
  strings : Array String

namespace IndexedTable

def empty : IndexedTable :=
  { numbers := [], strings := #[] }

def intern (table : IndexedTable) (text : String) : UInt32 × IndexedTable :=
  match table.numbers.get? text with
  | some id => (id, table)
  | none =>
      (UInt32.ofNat table.strings.size,
        { numbers := table.numbers.put text (UInt32.ofNat table.strings.size)
          strings := table.strings.push text })

def after (calls : List String) : IndexedTable :=
  calls.foldl (fun table text => (table.intern text).2) empty

/-- The index leads from the strings of the table to their numbers, and from nothing else. -/
structure Indexes (indexed : IndexedTable) (table : StringTable) : Prop where
  strings : indexed.strings = table.strings
  held : ∀ text, table.Holds text → indexed.numbers.get? text = some (table.numberOf text)
  absent : ∀ text, ¬ table.Holds text → indexed.numbers.get? text = none

theorem indexes_empty : empty.Indexes .empty where
  strings := rfl
  held _ holds := absurd holds List.not_mem_nil
  absent _ _ := rfl

/-- With the index and without it, a call gives the same number, and the index stays one. -/
theorem Indexes.intern {indexed : IndexedTable} {table : StringTable}
    (indexes : indexed.Indexes table) (text : String) :
    (indexed.intern text).1 = (table.intern text).1 ∧
      (indexed.intern text).2.Indexes (table.intern text).2 := by
  unfold IndexedTable.intern
  by_cases holds : table.Holds text
  · rw [indexes.held text holds, StringTable.intern_held holds]
    exact ⟨rfl, indexes⟩
  · have number := table.intern_eq_numberOf text
    have included := table.includedIn_intern text
    have inside := table.holds_intern text
    have same : UInt32.ofNat indexed.strings.size = (table.intern text).1 := by
      rw [StringTable.intern_new holds, indexes.strings]
      rfl
    rw [indexes.absent text holds]
    dsimp only
    refine ⟨same, ?_, ?_, ?_⟩
    · rw [StringTable.intern_new holds, indexes.strings]
    · intro other otherHolds
      rw [Table.get?_put]
      by_cases isText : text = other
      · rw [if_pos isText, same, number, isText]
      · have before : table.Holds other := by
          rw [StringTable.intern_new holds] at otherHolds
          unfold StringTable.Holds at otherHolds
          rw [Array.toList_push, List.mem_append, List.mem_singleton] at otherHolds
          exact otherHolds.resolve_right fun equal => isText equal.symm
        rw [if_neg isText, indexes.held other before, before.numberOf_later included]
    · intro other otherAbsent
      have isOther : text ≠ other := fun equal => otherAbsent (equal ▸ inside)
      rw [Table.get?_put_of_ne _ _ isOther]
      exact indexes.absent other fun before => otherAbsent (before.later included)

theorem indexes_after (calls : List String) : (after calls).Indexes (StringTable.after calls) := by
  induction calls using List.reverseRecOn with
  | nil => exact indexes_empty
  | append_singleton calls text inductionHypothesis =>
      unfold after at inductionHypothesis ⊢
      rw [StringTable.after_concat, List.foldl_concat]
      exact (inductionHypothesis.intern text).2

theorem get?_numbers_iff (calls : List String) (text : String) (id : UInt32) :
    (after calls).numbers.get? text = some id ↔ StringTable.Gave calls text id := by
  have indexes := indexes_after calls
  rw [StringTable.gave_iff, ← StringTable.holds_after]
  by_cases holds : (StringTable.after calls).Holds text
  · rw [indexes.held text holds, Option.some_inj, eq_comm, and_iff_right holds]
  · rw [indexes.absent text holds]
    exact ⟨nofun, fun given => absurd given.1 holds⟩

end IndexedTable

open StringTable

/-- What a run on a fresh table of strings comes to.  A new string gets the number of distinct
strings in front of it, a known one the number that it has, which changes nothing; a number leads
to its string from then on, and no other number leads to any; two strings never share a number.
With an index beside the strings the same numbers are given, and the index and the strings are
inverse to each other.  No string gets the mark for no condition, unless it is the last that there
are numbers for, which does get it. -/
theorem numbers_of_run (calls : List String) (few : calls.eraseDups.length ≤ 4294967296) :
    (∀ earlier text later, calls = earlier ++ text :: later →
      (text ∉ earlier → (given earlier text).toNat = earlier.eraseDups.length) ∧
      (∀ id, Gave earlier text id → (after earlier).intern text = (id, after earlier)) ∧
      (∀ front, front <+: later →
        (after (earlier ++ text :: front)).get? (given earlier text) = some text) ∧
      (text ∉ earlier → earlier.eraseDups.length = 4294967295 →
        given earlier text = noCondition)) ∧
    (∀ id, (∀ text, ¬ Gave calls text id) → (after calls).get? id = none) ∧
    (∀ text other id otherId, Gave calls text id → Gave calls other otherId →
      (id = otherId ↔ text = other)) ∧
    (calls.eraseDups.length ≤ 4294967295 → ∀ text id, Gave calls text id → id ≠ noCondition) ∧
    (∀ text id, (IndexedTable.after calls).numbers.get? text = some id ↔ Gave calls text id) ∧
    ∀ text id, (IndexedTable.after calls).numbers.get? text = some id ↔
      (IndexedTable.after calls).strings[id.toNat]? = some text := by
  have leads := get?_after_iff few
  refine ⟨?_, ?_, ?_, ?_, IndexedTable.get?_numbers_iff calls, ?_⟩
  · rintro earlier text later rfl
    have fewer : ∀ front rest, earlier ++ text :: later = front ++ rest →
        front.eraseDups.length ≤ 4294967296 := by
      intro front rest parts
      have grows := (includedIn_after front rest).length_le
      rw [← parts, (strings_after _).1, (strings_after _).1] at grows
      exact Nat.le_trans grows few
    refine ⟨?_, fun _ known => intern_known known, ?_, ?_⟩
    · intro new
      have room := fewer (earlier ++ [text]) later (by simp)
      rw [eraseDups_concat_new new, List.length_append, List.length_singleton] at room
      rw [given_new new]
      exact UInt32.toNat_ofNat_of_lt' room
    · rintro front ⟨rest, rfl⟩
      have room := fewer (earlier ++ text :: front) rest (by simp)
      exact (get?_after_iff room _ _).mpr ⟨earlier, front, rfl, rfl⟩
    · intro new last
      rw [given_new new, last]
      rfl
  · intro id never
    cases found : (after calls).get? id with
    | none => rfl
    | some text => exact absurd ((leads id text).mp found) (never text)
  · intro text other id otherId gave gaveOther
    constructor
    · rintro rfl
      have found := (leads id text).mpr gave
      rw [(leads id other).mpr gaveOther] at found
      exact (Option.some.inj found).symm
    · rintro rfl
      rw [((gave_iff calls text id).mp gave).2, ((gave_iff calls text otherId).mp gaveOther).2]
  · intro fewer text id gave
    obtain ⟨inside, rfl⟩ := (gave_iff calls text id).mp gave
    have within : (after calls).WithinNumbers := by
      unfold WithinNumbers
      rw [size_after]
      exact fewer
    exact ((holds_after calls text).mpr inside).numberOf_ne_noCondition within
  · intro text id
    rw [IndexedTable.get?_numbers_iff, ← leads, (IndexedTable.indexes_after calls).strings]
    rfl

def strokes (count : Nat) : String :=
  String.ofList (List.replicate count '|')

def tallies (count : Nat) : List String :=
  (List.range count).map strokes

theorem tallies_succ (count : Nat) : tallies (count + 1) = tallies count ++ [strokes count] := by
  rw [tallies, List.range_succ, List.map_append]
  rfl

theorem strokes_notMem_tallies (count : Nat) : strokes count ∉ tallies count := by
  intro inside
  obtain ⟨smaller, within, same⟩ := List.mem_map.mp inside
  have lengths := congrArg String.length same
  rw [strokes, strokes, String.length_ofList, String.length_ofList, List.length_replicate,
    List.length_replicate] at lengths
  rw [List.mem_range, lengths] at within
  exact Nat.lt_irrefl _ within

theorem length_eraseDups_tallies (count : Nat) : (tallies count).eraseDups.length = count := by
  induction count with
  | zero => rfl
  | succ count inductionHypothesis =>
      rw [tallies_succ, eraseDups_concat_new (strokes_notMem_tallies count), List.length_append,
        List.length_singleton, inductionHypothesis]

/-- Of as many distinct strings as there are numbers, the last one gets the mark for no
condition. -/
theorem last_tally_marked :
    (tallies (4294967295 + 1)).eraseDups.length ≤ 4294967296 ∧
      given (tallies 4294967295) (strokes 4294967295) = noCondition := by
  have few : (tallies (4294967295 + 1)).eraseDups.length ≤ 4294967296 :=
    Nat.le_of_eq (length_eraseDups_tallies _)
  obtain ⟨_, _, _, marked⟩ := (numbers_of_run _ few).1 _ _ [] (tallies_succ 4294967295)
  exact ⟨few, marked (strokes_notMem_tallies _) (length_eraseDups_tallies _)⟩

end ComponentStyles.Sheet
