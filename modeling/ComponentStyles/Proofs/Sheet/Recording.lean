import ComponentStyles.Proofs.Sheet.StringTable
import ComponentStyles.Sheet.Compiler

/-!
What a compiled stylesheet says, seen from any later string table.

Recording numbers strings while the table grows.  What it writes down is a function of the
rules and of any table that the one behind it is included in, so the numbers need not be
followed through the run.
-/

namespace ComponentStyles.Sheet

open ComponentStyles.Css

namespace StringTable

def numbersOf (table : StringTable) (declaration : Declaration) : UInt32 × UInt32 :=
  (table.numberOf declaration.name, table.numberOf declaration.value)

def conditionOf (table : StringTable) (condition : Option String) : UInt32 :=
  condition.elim noCondition table.numberOf

def recordOf (table : StringTable) (rule : Rule) : RuleRecord :=
  { condition := table.conditionOf rule.condition
    selector := table.numberOf rule.selector
    declarations := rule.declarations.map table.numbersOf }

def bytesOf (table : StringTable) (rules : List Rule) : List UInt8 :=
  writeSheet (rules.map table.recordOf)

def HoldsDeclaration (table : StringTable) (declaration : Declaration) : Prop :=
  table.Holds declaration.name ∧ table.Holds declaration.value

def HoldsCondition (table : StringTable) (condition : Option String) : Prop :=
  ∀ text, condition = some text → table.Holds text

structure HoldsRule (table : StringTable) (rule : Rule) : Prop where
  condition : table.HoldsCondition rule.condition
  selector : table.Holds rule.selector
  declarations : ∀ declaration ∈ rule.declarations, table.HoldsDeclaration declaration

end StringTable

/-- A recording step that writes an item down in the numbers of every later table. -/
structure Records {α β : Type} (step : α → Sinks → β × Sinks) (encode : StringTable → α → β)
    (holds : StringTable → α → Prop) : Prop where
  grows : ∀ (item : α) (sinks : Sinks), sinks.strings.IncludedIn (step item sinks).2.strings
  encodes : ∀ (item : α) (sinks : Sinks) (later : StringTable),
    (step item sinks).2.strings.IncludedIn later →
      (step item sinks).1 = encode later item ∧ holds later item

variable {α β : Type} {step : α → Sinks → β × Sinks} {encode : StringTable → α → β}
  {holds : StringTable → α → Prop}

theorem Records.recordAll_grows (recorded : Records step encode holds) (items : List α)
    (sinks : Sinks) (records : Array β) :
    sinks.strings.IncludedIn (recordAll step items sinks records).2.strings := by
  induction items generalizing sinks records with
  | nil => exact StringTable.IncludedIn.refl sinks.strings
  | cons item rest inductionHypothesis =>
      have first := recorded.grows item sinks
      have later := inductionHypothesis (step item sinks).2 (records.push (step item sinks).1)
      exact first.trans later

theorem Records.recordAll_encodes (recorded : Records step encode holds) (items : List α)
    (sinks : Sinks) (records : Array β) (later : StringTable)
    (included : (recordAll step items sinks records).2.strings.IncludedIn later) :
    (recordAll step items sinks records).1.toList = records.toList ++ items.map (encode later) ∧
      ∀ item ∈ items, holds later item := by
  induction items generalizing sinks records with
  | nil =>
      refine ⟨?_, ?_⟩
      · rw [List.map_nil, List.append_nil]
        rfl
      · intro item inside
        cases inside
  | cons item rest inductionHypothesis =>
      have stepIncluded : (step item sinks).2.strings.IncludedIn later :=
        (recorded.recordAll_grows rest (step item sinks).2 _).trans included
      obtain ⟨written, held⟩ := recorded.encodes item sinks later stepIncluded
      obtain ⟨others, othersHeld⟩ := inductionHypothesis (step item sinks).2
        (records.push (step item sinks).1) included
      refine ⟨?_, ?_⟩
      · rw [Array.toList_push, List.append_assoc, List.singleton_append] at others
        rw [List.map_cons, ← written]
        exact others
      · intro other inside
        rcases List.mem_cons.mp inside with same | inside
        · rw [same]
          exact held
        · exact othersHeld other inside

theorem Sinks.note_strings (sinks : Sinks) (reference : Reference) :
    (sinks.note reference).strings = sinks.strings := by
  cases reference <;> rfl

theorem Sinks.scan_strings (sinks : Sinks) (value : String) :
    (sinks.scan value).strings = sinks.strings := by
  have noted : ∀ (found : List Reference) (current : Sinks),
      (found.foldl Sinks.note current).strings = current.strings := by
    intro found
    induction found with
    | nil =>
        intro current
        rfl
    | cons reference rest inductionHypothesis =>
        intro current
        rw [List.foldl_cons, inductionHypothesis, Sinks.note_strings]
  exact noted (references value) sinks

theorem records_declaration :
    Records recordDeclaration StringTable.numbersOf StringTable.HoldsDeclaration where
  grows declaration sinks := by
    have scanned : sinks.strings.IncludedIn (sinks.scan declaration.value).strings := by
      rw [Sinks.scan_strings]
      exact StringTable.IncludedIn.refl sinks.strings
    have name := (sinks.scan declaration.value).strings.includedIn_intern declaration.name
    have value := ((sinks.scan declaration.value).intern declaration.name).2.strings
      |>.includedIn_intern declaration.value
    exact (scanned.trans name).trans value
  encodes declaration sinks later included := by
    have value := StringTable.intern_later included
    have nameIncluded := StringTable.includedIn_intern
      ((sinks.scan declaration.value).intern declaration.name).2.strings declaration.value
    have name := StringTable.intern_later (nameIncluded.trans included)
    exact ⟨Prod.ext name.1 value.1, name.2, value.2⟩

theorem records_condition :
    Records recordCondition StringTable.conditionOf StringTable.HoldsCondition where
  grows condition sinks := by
    cases condition with
    | none => exact StringTable.IncludedIn.refl sinks.strings
    | some text => exact sinks.strings.includedIn_intern text
  encodes condition sinks later included := by
    cases condition with
    | none =>
        refine ⟨rfl, ?_⟩
        intro text impossible
        cases impossible
    | some text =>
        have written := StringTable.intern_later included
        refine ⟨written.1, ?_⟩
        intro other same
        cases same
        exact written.2

theorem records_rule : Records recordRule StringTable.recordOf StringTable.HoldsRule where
  grows rule sinks := by
    have condition := records_condition.grows rule.condition sinks
    have selector := (recordCondition rule.condition sinks).2.strings
      |>.includedIn_intern rule.selector
    have declarations := records_declaration.recordAll_grows rule.declarations
      ((recordCondition rule.condition sinks).2.intern rule.selector).2 #[]
    exact (condition.trans selector).trans declarations
  encodes rule sinks later included := by
    have declarationsIncluded := records_declaration.recordAll_grows rule.declarations
      ((recordCondition rule.condition sinks).2.intern rule.selector).2 #[]
    have selectorIncluded := (recordCondition rule.condition sinks).2.strings
      |>.includedIn_intern rule.selector
    obtain ⟨declarations, declarationsHeld⟩ :=
      records_declaration.recordAll_encodes rule.declarations _ #[] later included
    have selector := StringTable.intern_later (declarationsIncluded.trans included)
    have condition := records_condition.encodes rule.condition sinks later
      (selectorIncluded.trans (declarationsIncluded.trans included))
    refine ⟨?_, condition.2, selector.2, declarationsHeld⟩
    rw [List.nil_append] at declarations
    simp only [recordRule, StringTable.recordOf, RuleRecord.mk.injEq]
    exact ⟨condition.1, selector.1, declarations⟩

theorem compileRules_grows (rules : List Rule) (sinks : Sinks) :
    sinks.strings.IncludedIn (compileRules rules sinks).2.strings :=
  records_rule.recordAll_grows rules sinks #[]

theorem compileRules_encodes (rules : List Rule) (sinks : Sinks) (later : StringTable)
    (included : (compileRules rules sinks).2.strings.IncludedIn later) :
    (compileRules rules sinks).1 = later.bytesOf rules ∧ ∀ rule ∈ rules, later.HoldsRule rule := by
  obtain ⟨written, held⟩ := records_rule.recordAll_encodes rules sinks #[] later included
  rw [List.nil_append] at written
  refine ⟨?_, held⟩
  simp only [compileRules, StringTable.bytesOf, written]

/-- Rules that the layout can hold. -/
structure CountsFit (found : List Rule) : Prop where
  rules : found.length ≤ countLimit
  declarations : ∀ rule ∈ found, rule.declarations.length ≤ countLimit

theorem checkedRules_ok {text : String} {found : List Rule}
    (checked : checkedRules text = .ok found) : Css.rules text = .ok found ∧ CountsFit found := by
  unfold checkedRules at checked
  cases parsed : Css.rules text with
  | error fault => simp only [parsed, reduceCtorEq] at checked
  | ok read =>
      simp only [parsed] at checked
      by_cases many : countLimit < read.length
      · simp only [many, if_true, reduceCtorEq] at checked
      · simp only [many, if_false] at checked
        cases long : read.find? oversized with
        | some rule => simp only [long, reduceCtorEq] at checked
        | none =>
            simp only [long, Except.ok.injEq] at checked
            subst checked
            refine ⟨rfl, Nat.le_of_not_lt many, ?_⟩
            intro rule inside
            have short := List.find?_eq_none.mp long rule inside
            simp only [oversized, decide_eq_true_eq] at short
            exact Nat.le_of_not_lt short

end ComponentStyles.Sheet

namespace ComponentStyles

open ComponentStyles.Sheet

def Sheet.StringTable.replyOf (table : StringTable) (document : Document) :
    Except HostFailure (List UInt8) :=
  match checkedRules document.text with
  | .ok rules => .ok (table.bytesOf rules)
  | .error fault => .error (.stylesheet document.file.path fault.message)

def Sheet.StringTable.HoldsSheet (table : StringTable) (document : Document) : Prop :=
  ∀ rules, checkedRules document.text = .ok rules → ∀ rule ∈ rules, table.HoldsRule rule

theorem records_sheet :
    Records (fun (sheet : Document × ModuleName) => sheetCompiler.compile sheet.1 sheet.2)
      (fun table sheet => table.replyOf sheet.1) (fun table sheet => table.HoldsSheet sheet.1) where
  grows sheet sinks := by
    simp only [sheetCompiler, compileText]
    cases checked : checkedRules sheet.1.text with
    | error fault => exact StringTable.IncludedIn.refl sinks.strings
    | ok found => exact compileRules_grows found sinks
  encodes sheet sinks later included := by
    simp only [sheetCompiler, compileText, StringTable.replyOf, StringTable.HoldsSheet]
      at included ⊢
    cases checked : checkedRules sheet.1.text with
    | error fault =>
        refine ⟨rfl, ?_⟩
        intro rules impossible
        cases impossible
    | ok found =>
        simp only [checked] at included
        obtain ⟨written, held⟩ := compileRules_encodes found sinks later included
        refine ⟨congrArg Except.ok written, ?_⟩
        intro rules same
        cases same
        exact held

end ComponentStyles
