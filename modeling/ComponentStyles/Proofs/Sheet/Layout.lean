import ComponentStyles.Sheet.Layout

/-!
Reading a compiled stylesheet gives back what was written.

Each reader takes off exactly the bytes of its own writer, whatever follows them.  The only
limit is on the counts, which have two bytes each.
-/

namespace ComponentStyles.Sheet

open ComponentStyles.Bytes

theorem readLittleEndian_count (count : Nat) (rest : List UInt8) (few : count ≤ countLimit) :
    readLittleEndian 2 (littleEndian 2 count ++ rest) = some (count, rest) := by
  have fits : count < Nat.pow 256 2 := Nat.lt_succ_of_le few
  exact readLittleEndian_append 2 count rest fits

theorem readId_writeId (id : UInt32) (rest : List UInt8) :
    readId (writeId id ++ rest) = some (id, rest) := by
  have fits : id.toNat < Nat.pow 256 4 := id.toNat_lt
  unfold readId writeId
  rw [readLittleEndian_append 4 id.toNat rest fits, Option.map_some, UInt32.ofNat_toNat]

theorem readDeclarations_written (declarations : List (UInt32 × UInt32)) (rest : List UInt8) :
    readDeclarations declarations.length (declarations.flatMap writeDeclaration ++ rest) =
      some (declarations, rest) := by
  induction declarations with
  | nil => rfl
  | cons declaration later inductionHypothesis =>
      simp only [List.flatMap_cons, List.length_cons, writeDeclaration, List.append_assoc,
        readDeclarations, readId_writeId, inductionHypothesis, Option.bind_eq_bind,
        Option.bind_some]

def RuleRecord.CountFits (record : RuleRecord) : Prop :=
  record.declarations.length ≤ countLimit

theorem RuleRecord.read_write (record : RuleRecord) (rest : List UInt8)
    (counted : record.CountFits) :
    RuleRecord.read (record.write ++ rest) = some (record, rest) := by
  have count := readLittleEndian_count record.declarations.length
  simp only [RuleRecord.write, RuleRecord.read, List.append_assoc, readId_writeId,
    count _ counted, readDeclarations_written, Option.bind_eq_bind, Option.bind_some]

theorem readRules_written (records : List RuleRecord) (rest : List UInt8)
    (counted : ∀ record ∈ records, record.CountFits) :
    readRules records.length (records.flatMap RuleRecord.write ++ rest) =
      some (records, rest) := by
  induction records with
  | nil => rfl
  | cons record later inductionHypothesis =>
      have first := record.read_write (later.flatMap RuleRecord.write ++ rest)
        (counted record List.mem_cons_self)
      have others := inductionHypothesis fun other inside =>
        counted other (List.mem_cons_of_mem record inside)
      simp only [List.flatMap_cons, List.length_cons, List.append_assoc, readRules, first, others,
        Option.bind_eq_bind, Option.bind_some]

theorem readSheet_writeSheet (records : List RuleRecord) (few : records.length ≤ countLimit)
    (counted : ∀ record ∈ records, record.CountFits) :
    readSheet (writeSheet records) = some records := by
  have rules := readRules_written records [] counted
  rw [List.append_nil] at rules
  simp only [readSheet, writeSheet, readLittleEndian_count _ _ few, rules, Option.bind_eq_bind,
    Option.bind_some, List.isEmpty_nil, if_true]

end ComponentStyles.Sheet
