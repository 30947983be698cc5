import ComponentStyles.Proofs.Sheet.Layout
import ComponentStyles.Proofs.Sheet.Recording

/-!
Compiled stylesheets are read back through the final string table.

However many sheets one run compiles, the table behind the run says what every one of them
means, the earliest included.
-/

namespace ComponentStyles.Sheet

open ComponentStyles.Css

def decodeCondition (table : StringTable) (id : UInt32) : Option (Option String) :=
  if id = noCondition then some none else (table.get? id).map some

def decodeDeclaration (table : StringTable) (ids : UInt32 × UInt32) : Option Declaration := do
  let name ← table.get? ids.1
  let value ← table.get? ids.2
  some { name, value }

def decodeRule (table : StringTable) (record : RuleRecord) : Option Rule := do
  let condition ← decodeCondition table record.condition
  let selector ← table.get? record.selector
  let declarations ← record.declarations.mapM (decodeDeclaration table)
  some { condition, selector, declarations }

/-- The rules that bytes stand for, if the bytes are a sheet from their first to their last. -/
def decodeSheet (table : StringTable) (bytes : List UInt8) : Option (List Rule) := do
  let records ← readSheet bytes
  records.mapM (decodeRule table)

theorem mapM_encoded {α β : Type} (decode : β → Option α) (encode : α → β) (items : List α)
    (each : ∀ item ∈ items, decode (encode item) = some item) :
    (items.map encode).mapM decode = some items := by
  induction items with
  | nil => rfl
  | cons item rest inductionHypothesis =>
      have first := each item List.mem_cons_self
      have others := inductionHypothesis fun other inside =>
        each other (List.mem_cons_of_mem item inside)
      rw [List.map_cons, List.mapM_cons, first, others]
      rfl

variable {table : StringTable}

theorem decodeCondition_conditionOf {condition : Option String}
    (held : table.HoldsCondition condition) (within : table.WithinNumbers) :
    decodeCondition table (table.conditionOf condition) = some condition := by
  cases condition with
  | none => rfl
  | some text =>
      have holds := held text rfl
      have other := holds.numberOf_ne_noCondition within
      simp only [decodeCondition, StringTable.conditionOf, Option.elim_some, other, if_false,
        holds.get?_numberOf within, Option.map_some]

theorem decodeDeclaration_numbersOf {declaration : Declaration}
    (held : table.HoldsDeclaration declaration) (within : table.WithinNumbers) :
    decodeDeclaration table (table.numbersOf declaration) = some declaration := by
  have name := held.1.get?_numberOf within
  have value := held.2.get?_numberOf within
  simp only [decodeDeclaration, StringTable.numbersOf, name, value, Option.bind_eq_bind,
    Option.bind_some]

theorem decodeRule_recordOf {rule : Rule} (held : table.HoldsRule rule)
    (within : table.WithinNumbers) : decodeRule table (table.recordOf rule) = some rule := by
  have condition := decodeCondition_conditionOf held.condition within
  have selector := held.selector.get?_numberOf within
  have declarations := mapM_encoded (decodeDeclaration table) table.numbersOf rule.declarations
    fun declaration inside =>
      decodeDeclaration_numbersOf (held.declarations declaration inside) within
  simp only [decodeRule, StringTable.recordOf, condition, selector, declarations,
    Option.bind_eq_bind, Option.bind_some]

theorem decodeSheet_bytesOf {rules : List Rule} (fits : CountsFit rules)
    (held : ∀ rule ∈ rules, table.HoldsRule rule) (within : table.WithinNumbers) :
    decodeSheet table (table.bytesOf rules) = some rules := by
  have few : (rules.map table.recordOf).length ≤ countLimit := by
    rw [List.length_map]
    exact fits.rules
  have counted : ∀ record ∈ rules.map table.recordOf, record.CountFits := by
    intro record inside
    obtain ⟨rule, present, same⟩ := List.mem_map.mp inside
    have short := fits.declarations rule present
    subst same
    simpa only [RuleRecord.CountFits, StringTable.recordOf, List.length_map] using short
  have decoded := mapM_encoded (decodeRule table) table.recordOf rules
    fun rule inside => decodeRule_recordOf (held rule inside) within
  simp only [decodeSheet, StringTable.bytesOf, readSheet_writeSheet _ few counted, decoded,
    Option.bind_eq_bind, Option.bind_some]

def compileAll (sheets : List (Document × ModuleName)) (sinks : Sinks) :
    Array (Except HostFailure (List UInt8)) × Sinks :=
  recordAll (fun sheet => sheetCompiler.compile sheet.1 sheet.2) sheets sinks #[]

theorem compileAll_replies (sheets : List (Document × ModuleName)) (sinks : Sinks) :
    (compileAll sheets sinks).1.toList =
        sheets.map (fun sheet => (compileAll sheets sinks).2.strings.replyOf sheet.1) ∧
      ∀ sheet ∈ sheets, (compileAll sheets sinks).2.strings.HoldsSheet sheet.1 :=
  records_sheet.recordAll_encodes sheets sinks #[] (compileAll sheets sinks).2.strings
    (StringTable.IncludedIn.refl _)

theorem compileAll_ok {sheets : List (Document × ModuleName)} {sinks : Sinks} {position : Nat}
    {sheet : Document × ModuleName} {bytes : List UInt8}
    (asked : sheets[position]? = some sheet)
    (compiled : (compileAll sheets sinks).1[position]? = some (.ok bytes)) :
    ∃ rules, checkedRules sheet.1.text = .ok rules ∧
      bytes = (compileAll sheets sinks).2.strings.bytesOf rules ∧
      ∀ rule ∈ rules, (compileAll sheets sinks).2.strings.HoldsRule rule := by
  obtain ⟨replies, held⟩ := compileAll_replies sheets sinks
  rw [← Array.getElem?_toList, replies, List.getElem?_map, asked, Option.map_some,
    Option.some.injEq] at compiled
  unfold StringTable.replyOf at compiled
  cases checked : checkedRules sheet.1.text with
  | error fault => simp only [checked, reduceCtorEq] at compiled
  | ok rules =>
      simp only [checked, Except.ok.injEq] at compiled
      have inside := List.mem_of_getElem? asked
      exact ⟨rules, rfl, compiled.symm, held sheet inside rules checked⟩

/-- While one run numbers no more than 2³² − 1 strings, the table behind it reads the bytes of
every sheet that compiled back to the rules of its text, and takes up all of them.  Two sheets
have the same bytes if and only if they have the same rules. -/
theorem compiled_sheets_decode (sheets : List (Document × ModuleName)) (sinks : Sinks)
    (few : (compileAll sheets sinks).2.strings.size < UInt32.size) :
    let run := compileAll sheets sinks
    run.1.size = sheets.length ∧
    (∀ (position : Nat) (sheet : Document × ModuleName) (bytes : List UInt8),
      sheets[position]? = some sheet → run.1[position]? = some (.ok bytes) →
      ∃ rules, Css.rules sheet.1.text = .ok rules ∧
        decodeSheet run.2.strings bytes = some rules) ∧
    (∀ (left right : Nat) (leftSheet rightSheet : Document × ModuleName)
      (leftBytes rightBytes : List UInt8),
      sheets[left]? = some leftSheet → run.1[left]? = some (.ok leftBytes) →
      sheets[right]? = some rightSheet → run.1[right]? = some (.ok rightBytes) →
      (leftBytes = rightBytes ↔
        Css.rules leftSheet.1.text = Css.rules rightSheet.1.text)) := by
  intro run
  have within : run.2.strings.WithinNumbers := by
    have mark : noCondition.toNat + 1 = UInt32.size := rfl
    rw [← mark] at few
    exact Nat.le_of_lt_succ few
  have decodes : ∀ (position : Nat) (sheet : Document × ModuleName) (bytes : List UInt8),
      sheets[position]? = some sheet → run.1[position]? = some (.ok bytes) →
      ∃ rules, Css.rules sheet.1.text = .ok rules ∧ bytes = run.2.strings.bytesOf rules ∧
        decodeSheet run.2.strings bytes = some rules := by
    intro position sheet bytes asked compiled
    obtain ⟨rules, checked, written, held⟩ := compileAll_ok asked compiled
    obtain ⟨parsed, fits⟩ := checkedRules_ok checked
    refine ⟨rules, parsed, written, ?_⟩
    rw [written]
    exact decodeSheet_bytesOf fits held within
  refine ⟨?_, ?_, ?_⟩
  · have replies := congrArg List.length (compileAll_replies sheets sinks).1
    rw [Array.length_toList, List.length_map] at replies
    exact replies
  · intro position sheet bytes asked compiled
    obtain ⟨rules, parsed, _written, decoded⟩ := decodes position sheet bytes asked compiled
    exact ⟨rules, parsed, decoded⟩
  · intro left right leftSheet rightSheet leftBytes rightBytes leftAsked leftCompiled rightAsked
      rightCompiled
    obtain ⟨leftRules, leftParsed, leftWritten, leftDecoded⟩ :=
      decodes left leftSheet leftBytes leftAsked leftCompiled
    obtain ⟨rightRules, rightParsed, rightWritten, rightDecoded⟩ :=
      decodes right rightSheet rightBytes rightAsked rightCompiled
    rw [leftParsed, rightParsed, Except.ok.injEq]
    constructor
    · intro same
      rw [same, rightDecoded, Option.some.injEq] at leftDecoded
      exact leftDecoded.symm
    · intro same
      rw [leftWritten, rightWritten, same]

def sheetsAroundFailure : List (Document × ModuleName) :=
  [(.stylesheet ⟨"first.css"⟩ "A{b:c}", ⟨"app"⟩),
    (.stylesheet ⟨"broken.css"⟩ "A", ⟨"lib"⟩),
    (.stylesheet ⟨"last.css"⟩ "@media m { A { b: d } }", ⟨"app"⟩)]

theorem sheetsAroundFailure_decode :
    ∃ firstBytes lastBytes firstRules lastRules,
      (compileAll sheetsAroundFailure .empty).1[0]? = some (.ok firstBytes) ∧
      (compileAll sheetsAroundFailure .empty).1[2]? = some (.ok lastBytes) ∧
      Css.rules "A{b:c}" = .ok firstRules ∧
      Css.rules "@media m { A { b: d } }" = .ok lastRules ∧
      decodeSheet (compileAll sheetsAroundFailure .empty).2.strings firstBytes = some firstRules ∧
      decodeSheet (compileAll sheetsAroundFailure .empty).2.strings lastBytes = some lastRules := by
  have size : (compileAll sheetsAroundFailure .empty).2.strings.size = 5 := by decide +kernel
  have few : (compileAll sheetsAroundFailure .empty).2.strings.size < UInt32.size := by
    rw [size]
    decide
  obtain ⟨_size, decodes, _equal⟩ := compiled_sheets_decode sheetsAroundFailure .empty few
  have first : (compileAll sheetsAroundFailure .empty).1[0]? =
      some (.ok [1, 0, 255, 255, 255, 255, 0, 0, 0, 0, 1, 0, 1, 0, 0, 0, 2, 0, 0, 0]) := by
    decide +kernel
  have last : (compileAll sheetsAroundFailure .empty).1[2]? =
      some (.ok [1, 0, 3, 0, 0, 0, 0, 0, 0, 0, 1, 0, 1, 0, 0, 0, 4, 0, 0, 0]) := by
    decide +kernel
  obtain ⟨firstRules, firstParsed, firstDecoded⟩ := decodes 0 _ _ rfl first
  obtain ⟨lastRules, lastParsed, lastDecoded⟩ := decodes 2 _ _ rfl last
  exact ⟨_, _, firstRules, lastRules, first, last, firstParsed, lastParsed, firstDecoded,
    lastDecoded⟩

end ComponentStyles.Sheet
