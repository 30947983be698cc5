import ComponentStyles.Proofs.Css.Declaration
import ComponentStyles.Proofs.Css.RuleList

/-!
Lists of rules read by a cursor.

A cursor in front of a list of rules reads one entry of it in each round.  So the reading ends
behind the list with the rules of the list, or with the fault of its first bare selector; no other
fault can come out of a list.
-/

namespace ComponentStyles.Css

open Cursor

theorem Token.curlyBlock?_of_opening {token : Token} (isOpening : token = .opening .curly) :
    token.curlyBlock? = some () := by
  rw [isOpening]
  rfl

namespace Cursor.Faces

variable {cursor : Cursor} {inside : Option Bracket} {nodes rest : List Node} {node : Node}
  {tail : List Lexeme}

theorem next_first (faces : cursor.Faces inside (node :: rest) tail)
    (plain : node.isSeparator = false) :
    cursor.next (delimitersIn inside) =
      { result := .ok node.token, cursor := Cursor.behindFirst node (flatAll rest ++ tail) } :=
  faces.next_of_node (List.dropWhile_cons_of_neg (Bool.eq_false_iff.mp plain))
    (isDelimiter_delimitersIn faces.placed List.mem_cons_self)

theorem expect_first {α : Type} {wanted : Token → Option α} {value : α}
    (faces : cursor.Faces inside (node :: rest) tail) (plain : node.isSeparator = false)
    (isWanted : wanted node.token = some value) :
    cursor.expect (delimitersIn inside) wanted =
      { result := .ok value, cursor := Cursor.behindFirst node (flatAll rest ++ tail) } := by
  unfold expect
  rw [faces.next_first plain, andThen_ok, isWanted]

theorem expect_other {α : Type} {wanted : Token → Option α}
    (faces : cursor.Faces inside (node :: rest) tail) (plain : node.isSeparator = false)
    (isOther : wanted node.token = none) :
    ∃ fault, cursor.expect (delimitersIn inside) wanted =
      { result := .error fault, cursor := Cursor.behindFirst node (flatAll rest ++ tail) } := by
  unfold expect
  rw [faces.next_first plain, andThen_ok, isOther]
  exact ⟨_, rfl⟩

theorem expect_nothing {α : Type} (wanted : Token → Option α)
    (faces : cursor.Faces inside [] tail) :
    ∃ fault, cursor.expect (delimitersIn inside) wanted =
      { result := .error fault, cursor := facing tail } := by
  unfold expect
  rw [faces.next_of_separators faces.ends rfl]
  exact ⟨_, rfl⟩

theorem readUntil_front {more : List Delimiter} {keeps : Node → Bool} {front back : List Node}
    (faces : cursor.Faces inside (front ++ back) tail)
    (same : ∀ node ∈ front ++ back, isDelimiter more node.token = !keeps node)
    (kept : ∀ node ∈ front, keeps node = true)
    (stops : back.dropWhile keeps = back) :
    cursor.readUntil (delimitersIn inside) more readRest =
      { result := .ok (), cursor := facing (flatAll back ++ tail) } := by
  rw [readUntil_readRest, faces.skim_eq same, List.dropWhile_append_of_pos kept, stops]

end Cursor.Faces

section Rounds

variable {cursor : Cursor} {inside : Option Bracket} {rest content : List Node} {opening : Lexeme}
  {closing : Option Lexeme} {tail : List Lexeme}

theorem readAtRule_prelude {name : String} {prelude back : List Node}
    (faces : cursor.Faces inside (prelude ++ back) tail) (opened : cursor.opened = none)
    (within : ∀ node ∈ prelude, node.insidePrelude = true)
    (stops : back.dropWhile Node.insidePrelude = back) :
    readAtRule (delimitersIn inside) name cursor =
      let block := (facing (flatAll back ++ tail)).expect (delimitersIn inside) Token.curlyBlock?
      match block.result with
      | .error _ => .passed block.cursor
      | .ok _ =>
          match AtRuleKind.of name with
          | .group => .entered (atRuleHeader name prelude) block.cursor
          | .descriptors =>
              .keeping (atRuleHeader name prelude) (block.cursor.readBlock .curly readDeclarations)
          | .skipped => .passed block.cursor := by
  have header : headerOf name (textBetween cursor.ahead (flatAll back ++ tail)) =
      atRuleHeader name prelude := by
    rw [ahead_of_opened opened, faces.settled, textBetween_flatAll]
    rfl
  have read :=
    faces.readUntil_front (fun node among => ends_prelude faces.placed among) within stops
  unfold readAtRule
  rw [read, ← header]
  rfl

theorem readAtRule_block {name : String} {prelude : List Node}
    (faces : cursor.Faces inside (prelude ++ .block opening content closing :: rest) tail)
    (opened : cursor.opened = none) (within : ∀ node ∈ prelude, node.insidePrelude = true)
    (isOpening : opening.token = .opening .curly) :
    readAtRule (delimitersIn inside) name cursor =
      match AtRuleKind.of name with
      | .group =>
          .entered (atRuleHeader name prelude)
            (behindFirst (.block opening content closing) (flatAll rest ++ tail))
      | .descriptors =>
          .kept (atRuleHeader name prelude) (declarations content) (facing (flatAll rest ++ tail))
      | .skipped =>
          .passed (behindFirst (.block opening content closing) (flatAll rest ++ tail)) := by
  have behind : .block opening content closing :: rest <:+
      prelude ++ .block opening content closing :: rest := List.suffix_append prelude _
  have blockFaces := faces.of_suffix behind
  have stops : (Node.block opening content closing :: rest).dropWhile Node.insidePrelude =
      .block opening content closing :: rest :=
    List.dropWhile_cons_of_neg (by simp [Node.insidePrelude, Node.isCurly, isOpening])
  rw [readAtRule_prelude faces opened within stops,
    blockFaces.expect_first rfl (Token.curlyBlock?_of_opening isOpening)]
  cases kind : AtRuleKind.of name with
  | group => rfl
  | skipped => rfl
  | descriptors =>
      dsimp only
      rw [faces.readBlock_declarations behind isOpening]
      rfl

theorem readAtRule_semicolon {name : String} {prelude : List Node} {semicolon : Node}
    (faces : cursor.Faces inside (prelude ++ semicolon :: rest) tail)
    (opened : cursor.opened = none) (within : ∀ node ∈ prelude, node.insidePrelude = true)
    (isSemicolon : semicolon.isSemicolon = true) :
    readAtRule (delimitersIn inside) name cursor =
      .passed (behindFirst semicolon (flatAll rest ++ tail)) := by
  cases semicolon with
  | block opening content closing => cases isSemicolon
  | leaf lexeme =>
      have isToken : lexeme.token = .semicolon := beq_iff_eq.mp isSemicolon
      have plain : (Node.leaf lexeme).isSeparator = false := by rw [Node.isSeparator, isToken]; rfl
      have isOther : (Node.leaf lexeme).token.curlyBlock? = none := by
        rw [Node.token, Node.first, isToken]
        rfl
      have stops : (Node.leaf lexeme :: rest).dropWhile Node.insidePrelude = .leaf lexeme :: rest :=
        List.dropWhile_cons_of_neg (by simp [Node.insidePrelude, isSemicolon])
      obtain ⟨fault, failed⟩ :=
        (faces.of_suffix (List.suffix_append prelude _)).expect_other plain isOther
      rw [readAtRule_prelude faces opened within stops, failed]

theorem readAtRule_end {name : String} {prelude : List Node}
    (faces : cursor.Faces inside prelude tail) (opened : cursor.opened = none)
    (within : ∀ node ∈ prelude, node.insidePrelude = true) :
    readAtRule (delimitersIn inside) name cursor = .passed (facing tail) := by
  obtain ⟨fault, failed⟩ :=
    (faces.of_suffix List.nil_suffix).expect_nothing Token.curlyBlock?
  rw [← List.append_nil prelude] at faces
  rw [readAtRule_prelude faces opened within rfl, failed]

theorem readStyleRule_prelude (first : Node) {others back : List Node}
    (faces : cursor.Faces inside (others ++ back) tail)
    (within : ∀ node ∈ others, node.insideSelector = true)
    (stops : back.dropWhile Node.insideSelector = back) :
    readStyleRule (delimitersIn inside) (flatAll (first :: (others ++ back)) ++ tail) cursor =
      let block := (facing (flatAll back ++ tail)).expect (delimitersIn inside) Token.curlyBlock?
      match block.result with
      | .error _ =>
          .ended
            (.error
              { kind := .missingBlock (trimmedText (first :: others))
                ahead := block.cursor.ahead })
            block.cursor
      | .ok _ =>
          .keeping (trimmedText (first :: others))
            (block.cursor.readBlock .curly readDeclarations) := by
  have selector := textBetween_flatAll (first :: others) back tail
  rw [List.cons_append] at selector
  have read :=
    faces.readUntil_front (fun node among => ends_selector faces.placed among) within stops
  unfold readStyleRule
  rw [read, ← selector]
  rfl

theorem readStyleRule_block {first : Node} {others : List Node}
    (faces : cursor.Faces inside (others ++ .block opening content closing :: rest) tail)
    (within : ∀ node ∈ others, node.insideSelector = true)
    (isOpening : opening.token = .opening .curly) :
    readStyleRule (delimitersIn inside)
        (flatAll (first :: (others ++ .block opening content closing :: rest)) ++ tail) cursor =
      .kept (trimmedText (first :: others)) (declarations content)
        (facing (flatAll rest ++ tail)) := by
  have behind : .block opening content closing :: rest <:+
      others ++ .block opening content closing :: rest := List.suffix_append others _
  have blockFaces := faces.of_suffix behind
  have stops : (Node.block opening content closing :: rest).dropWhile Node.insideSelector =
      .block opening content closing :: rest :=
    List.dropWhile_cons_of_neg (by simp [Node.insideSelector, Node.isCurly, isOpening])
  rw [readStyleRule_prelude first faces within stops,
    blockFaces.expect_first rfl (Token.curlyBlock?_of_opening isOpening)]
  dsimp only
  rw [faces.readBlock_declarations behind isOpening]
  rfl

theorem readStyleRule_end {first : Node} {others : List Node}
    (faces : cursor.Faces inside others tail)
    (within : ∀ node ∈ others, node.insideSelector = true) :
    readStyleRule (delimitersIn inside) (flatAll (first :: others) ++ tail) cursor =
      .ended
        (.error { kind := .missingBlock (trimmedText (first :: others)), ahead := tail })
        (facing tail) := by
  obtain ⟨fault, failed⟩ :=
    (faces.of_suffix List.nil_suffix).expect_nothing Token.curlyBlock?
  rw [← List.append_nil others] at faces
  have read := readStyleRule_prelude first faces within rfl
  rw [failed, List.append_nil] at read
  exact read

theorem readRound_nothing {nodes : List Node} (faces : cursor.Faces inside nodes tail)
    (separators : nodes.dropWhile Node.isSeparator = []) :
    readRound (delimitersIn inside) cursor = .ended (.ok ()) (facing tail) := by
  have start := faces.of_suffix (List.dropWhile_suffix Node.isSeparator)
  rw [separators] at start
  unfold readRound
  rw [faces.passSeparators_eq, separators]
  dsimp only
  rw [start.next_of_separators start.ends rfl]

theorem readRound_first {node : Node} (faces : cursor.Faces inside (node :: rest) tail)
    (plain : node.isSeparator = false) :
    readRound (delimitersIn inside) cursor =
      match node.token with
      | .markupOpening | .markupClosing | .semicolon | .opening .curly =>
          .passed (behindFirst node (flatAll rest ++ tail))
      | .atKeyword name =>
          readAtRule (delimitersIn inside) name (behindFirst node (flatAll rest ++ tail))
      | _ =>
          readStyleRule (delimitersIn inside) (flatAll (node :: rest) ++ tail)
            (behindFirst node (flatAll rest ++ tail)) := by
  have stays : (node :: rest).dropWhile Node.isSeparator = node :: rest :=
    List.dropWhile_cons_of_neg (Bool.eq_false_iff.mp plain)
  have start := faces.of_suffix (List.suffix_refl _)
  unfold readRound
  rw [faces.passSeparators_eq, stays]
  dsimp only
  rw [start.next_first plain]
  rfl

theorem readRound_mark {node : Node} (faces : cursor.Faces inside (node :: rest) tail)
    (plain : node.isSeparator = false) (stands : node.token.standsBetween = true) :
    readRound (delimitersIn inside) cursor =
      .passed (behindFirst node (flatAll rest ++ tail)) := by
  rw [readRound_first faces plain]
  rw [faces.placed.isSeparator_eq List.mem_cons_self] at plain
  generalize node.token = token at plain stands ⊢
  cases token with
  | markupOpening | markupClosing | semicolon => rfl
  | blank | comment => cases plain
  | opening bracket =>
      cases bracket with
      | curly => rfl
      | square | round => cases stands
  | _ => cases stands

theorem readRound_atKeyword {keyword : Node} {name : String}
    (faces : cursor.Faces inside (keyword :: rest) tail)
    (isKeyword : keyword.token = .atKeyword name) :
    readRound (delimitersIn inside) cursor =
      readAtRule (delimitersIn inside) name (behindFirst keyword (flatAll rest ++ tail)) := by
  have plain : keyword.isSeparator = false := by
    rw [faces.placed.isSeparator_eq List.mem_cons_self, isKeyword]
    rfl
  rw [readRound_first faces plain, isKeyword]

theorem readRound_atRule {keyword : Node} {name : String} {prelude : List Node}
    (faces : cursor.Faces inside (keyword :: (prelude ++ .block opening content closing :: rest))
      tail)
    (isKeyword : keyword.token = .atKeyword name)
    (within : ∀ node ∈ prelude, node.insidePrelude = true)
    (isOpening : opening.token = .opening .curly) :
    readRound (delimitersIn inside) cursor =
      match AtRuleKind.of name with
      | .group =>
          .entered (atRuleHeader name prelude)
            (behindFirst (.block opening content closing) (flatAll rest ++ tail))
      | .descriptors =>
          .kept (atRuleHeader name prelude) (declarations content) (facing (flatAll rest ++ tail))
      | .skipped =>
          .passed (behindFirst (.block opening content closing) (flatAll rest ++ tail)) :=
  (readRound_atKeyword faces isKeyword).trans
    (readAtRule_block (faces.behindFirst (List.suffix_refl _)) (congrArg Token.opens isKeyword)
      within isOpening)

theorem readRound_selector {first : Node} (faces : cursor.Faces inside (first :: rest) tail)
    (begins : first.token.beginsSelector = true) :
    readRound (delimitersIn inside) cursor =
      readStyleRule (delimitersIn inside) (flatAll (first :: rest) ++ tail)
        (behindFirst first (flatAll rest ++ tail)) := by
  have isSeparator_eq := faces.placed.isSeparator_eq List.mem_cons_self
  have plain : first.isSeparator = false := by
    rw [isSeparator_eq]
    generalize first.token = token at begins ⊢
    cases token with
    | blank | comment => cases begins
    | _ => rfl
  rw [readRound_first faces plain]
  generalize first.token = token at begins ⊢
  cases token with
  | blank | comment | markupOpening | markupClosing | semicolon | atKeyword => cases begins
  | opening bracket =>
      cases bracket with
      | curly => cases begins
      | square | round => rfl
  | _ => rfl

end Rounds

/-! ### Lists of rules -/

section Congruence

variable {delimiters : List Delimiter} {cursor other : Cursor}
  (same : cursor.passSeparators = other.passSeparators)
include same

theorem readRound_congr : readRound delimiters cursor = readRound delimiters other := by
  unfold readRound
  rw [same]

/-- It does not matter to a list how many separators in front of it have been read. -/
theorem readRules_congr (condition : Option String) (found : List Rule) :
    readRules delimiters condition cursor found = readRules delimiters condition other found := by
  have first : readRound delimiters cursor = readRound delimiters other := readRound_congr same
  cases round : readRound delimiters other with
  | ended result after =>
      rw [readRules_ended condition found round,
        readRules_ended condition found (first.trans round)]
  | passed after =>
      rw [readRules_passed condition found round,
        readRules_passed condition found (first.trans round)]
  | kept selector declarations after =>
      rw [readRules_kept condition found round,
        readRules_kept condition found (first.trans round)]
  | entered header after =>
      rw [readRules_entered condition found round,
        readRules_entered condition found (first.trans round)]

end Congruence

/-- The reading has ended in front of the tail with the rules found, or with the fault of the bare
selector. -/
def RulesReading.Answers (reading : RulesReading) (tail : List Lexeme) :
    Except BareSelector (List Rule) → Prop
  | .ok found => reading = { result := .ok (), cursor := facing tail, found }
  | .error bare =>
      reading.result =
        .error
          { kind := .missingBlock (trimmedText bare.selector), ahead := bare.behind ++ tail }

/-- The list goes on behind the block of a group, or ends with the fault in the block. -/
theorem RulesReading.answers_group {block : RulesReading}
    {goOn : Cursor → List Rule → RulesReading}
    {closing : Option Lexeme} {rest : List Node} {tail : List Lexeme}
    {held : Except BareSelector (List Rule)}
    {behind : List Rule → Except BareSelector (List Rule)}
    (ends : AtDelimiter [.closing .curly] (closing.toList ++ (flatAll rest ++ tail)))
    (left : skipBlocks [.curly] (closing.toList ++ (flatAll rest ++ tail)) = flatAll rest ++ tail)
    (goesOn : ∀ inside,
      (goOn (facing (flatAll rest ++ tail)) inside).Answers tail (behind inside)) :
    block.Answers (closing.toList ++ (flatAll rest ++ tail)) held →
      Answers
        (match block.blockResult with
          | .error fault => { result := .error fault, cursor := block.behind, found := block.found }
          | .ok _ => goOn block.behind block.found)
        tail
        (match held with
          | .ok inside => behind inside
          | .error bare => .error (bare.within closing rest)) := by
  intro answers
  cases held with
  | ok inside =>
      have isOver : block.blockResult = .ok () := by
        rw [answers]
        exact demandEnd_facing ends
      have isBehind : block.behind = facing (flatAll rest ++ tail) := by
        rw [answers]
        unfold RulesReading.behind leave
        rw [settled_facing, left]
      have isFound : block.found = inside := congrArg RulesReading.found answers
      rw [isOver, isBehind, isFound]
      exact goesOn inside
  | error bare =>
      have failed : block.blockResult = block.result := by
        unfold blockResult
        rw [answers]
      rw [failed, answers]
      simp [Answers, BareSelector.within]

/-- A list is read to its end, or up to its first bare selector. -/
theorem RuleList.readRules_answers {nodes : List Node} {rules : List EnclosedRule}
    {bares : List BareSelector} (list : RuleList nodes rules bares) {cursor : Cursor}
    {inside : Option Bracket} {tail : List Lexeme} (faces : cursor.Faces inside nodes tail)
    (condition : Option String) (found : List Rule) :
    (readRules (delimitersIn inside) condition cursor found).Answers tail
      (outcome condition found rules bares) := by
  -- Each entry of the list is read in one round, behind which the cursor faces the rest of it.
  induction list generalizing cursor inside tail condition found with
  | nil =>
      rw [readRules_ended condition found (readRound_nothing faces rfl)]
      simp [outcome, RulesReading.Answers]
  | between node rest stands _ inductionHypothesis =>
      by_cases separates : node.isSeparator = true
      · have restFaces := faces.of_suffix (List.suffix_cons node rest)
        have same : cursor.passSeparators = (facing (flatAll rest ++ tail)).passSeparators := by
          rw [faces.passSeparators_eq, restFaces.passSeparators_eq,
            List.dropWhile_cons_of_pos separates]
        rw [readRules_congr same]
        exact inductionHypothesis restFaces condition found
      · have round := readRound_mark faces (Bool.eq_false_iff.mpr separates) stands
        rw [readRules_passed condition found round]
        exact inductionHypothesis (faces.behindFirst (List.suffix_refl _)) condition found
  | styleRule first others begins within isOpening _ inductionHypothesis =>
      have firstFaces := faces.behindFirst (List.suffix_refl _)
      have round := (readRound_selector faces begins).trans
        (readStyleRule_block firstFaces within isOpening)
      have restFaces := faces.of_suffix (suffix_behind_stop first others _ _)
      rw [readRules_kept condition found round, outcome_cons]
      exact inductionHypothesis restFaces condition _
  | bare _ _ begins within =>
      have firstFaces := faces.behindFirst (List.suffix_refl _)
      have round := (readRound_selector faces begins).trans (readStyleRule_end firstFaces within)
      rw [readRules_ended condition found round]
      rfl
  | statement keyword prelude isKeyword within isSemicolon _ inductionHypothesis =>
      have keywordFaces := faces.behindFirst (List.suffix_refl _)
      have round := (readRound_atKeyword faces isKeyword).trans
        (readAtRule_semicolon keywordFaces (congrArg Token.opens isKeyword) within isSemicolon)
      rw [readRules_passed condition found round]
      exact inductionHypothesis (faces.behindFirst (suffix_behind keyword prelude _)) condition
        found
  | lastStatement _ _ isKeyword within =>
      have keywordFaces := faces.behindFirst (List.suffix_refl _)
      have round := (readRound_atKeyword faces isKeyword).trans
        (readAtRule_end keywordFaces (congrArg Token.opens isKeyword) within)
      have isOver : readRound (delimitersIn inside) (facing tail) = .ended (.ok ()) (facing tail) :=
        readRound_nothing (faces.of_suffix List.nil_suffix) rfl
      rw [readRules_passed condition found round, readRules_ended condition found isOver]
      simp [outcome, RulesReading.Answers]
  | skipped keyword prelude isKeyword kind within isOpening _ inductionHypothesis =>
      have round := readRound_atRule faces isKeyword within isOpening
      rw [kind] at round
      rw [readRules_passed condition found round]
      exact inductionHypothesis (faces.behindFirst (suffix_behind keyword prelude _)) condition
        found
  | descriptors keyword prelude isKeyword kind within isOpening _ inductionHypothesis =>
      have round := readRound_atRule faces isKeyword within isOpening
      have restFaces := faces.of_suffix (suffix_behind_stop keyword prelude _ _)
      rw [kind] at round
      rw [readRules_kept condition found round, outcome_cons]
      exact inductionHypothesis restFaces condition _
  | @group keyword prelude opening content closing rest name _ _ _ _ isKeyword kind within
      isOpening _ _ contentHypothesis restHypothesis =>
      have round := readRound_atRule faces isKeyword within isOpening
      rw [kind] at round
      have blockBehind := suffix_behind keyword prelude (.block opening content closing :: rest)
      obtain ⟨bracket, opens, contentFaces, left⟩ := faces.block blockBehind
      obtain rfl : bracket = .curly :=
        Option.some.inj (opens.symm.trans (congrArg Token.opens isOpening))
      have block := contentHypothesis contentFaces
        (some (nestedCondition condition (atRuleHeader name prelude))) found
      rw [readRules_entered condition found round, outcome_group, ahead_behindFirst]
      refine RulesReading.answers_group contentFaces.ends left (fun inside => ?_) block
      exact restHypothesis (faces.of_suffix (suffix_behind_stop keyword prelude _ _)) condition
        inside

namespace BareSelector

def fault (bare : BareSelector) : Fault :=
  { kind := .missingBlock (trimmedText bare.selector), ahead := bare.behind }

def missingBlock (text : String) (bare : BareSelector) : MissingBlock :=
  { selector := trimmedText bare.selector, place := bare.fault.placeIn text }

end BareSelector

section Text

variable {text : String} {enclosed : List EnclosedRule} {bare : BareSelector}
  {bares others : List BareSelector}

theorem outcome_of_text (enclosed : List EnclosedRule) :
    outcome none [] enclosed [] = .ok (enclosed.map EnclosedRule.listed) := by
  have same : EnclosedRule.under none = EnclosedRule.listed := funext EnclosedRule.under_none
  unfold outcome
  rw [same, List.nil_append]

theorem RuleList.rulesIn_eq (list : RuleList (nodes text.toList) enclosed bares) :
    rulesIn none (nodes text.toList) =
      (outcome none [] enclosed bares).mapError BareSelector.unfinished :=
  list.rulesFrom_eq (nodesOf_placed (lexemes text.toList)).1 none #[]

theorem RuleList.rules_eq (list : RuleList (nodes text.toList) enclosed []) :
    rules text = .ok (enclosed.map EnclosedRule.listed) := by
  have read := list.rulesIn_eq
  rw [outcome_of_text] at read
  unfold rules
  dsimp only
  rw [read]
  rfl

theorem RuleList.rules_fault (list : RuleList (nodes text.toList) enclosed (bare :: others)) :
    rules text = .error (bare.missingBlock text) := by
  unfold rules
  dsimp only
  rw [list.rulesIn_eq]
  rfl

theorem RuleList.readRules_text (list : RuleList (nodes text.toList) enclosed bares) :
    (readRules [] none (facing (lexemes text.toList)) []).Answers []
      (outcome none [] enclosed bares) := by
  obtain ⟨placed, flat⟩ := nodesOf_placed (lexemes text.toList)
  have faces : (facing (lexemes text.toList)).Faces none (nodes text.toList) [] :=
    { settled := by rw [settled_facing, List.append_nil]; exact flat.symm
      placed
      ends := atDelimiter_nil _ }
  exact list.readRules_answers faces none []

theorem RuleList.readText_eq (list : RuleList (nodes text.toList) enclosed []) :
    readText text = .ok (enclosed.map EnclosedRule.listed) := by
  have read := list.readRules_text
  rw [outcome_of_text] at read
  unfold readText
  rw [read]
  rfl

theorem RuleList.readText_fault (list : RuleList (nodes text.toList) enclosed (bare :: others)) :
    readText text = .error bare.fault := by
  have read := list.readRules_text
  change _ = Except.error _ at read
  unfold readText
  dsimp only
  rw [read, List.append_nil]
  rfl

/-- What is said for each reading of a text decides how the text ends, as it has a reading. -/
theorem text_ends_iff {ε : Type} (text : String) (read : Except ε (List Rule))
    (fault : BareSelector → ε)
    (succeeds : ∀ enclosed, RuleList (nodes text.toList) enclosed [] →
      read = .ok (enclosed.map EnclosedRule.listed))
    (fails : ∀ enclosed bare others, RuleList (nodes text.toList) enclosed (bare :: others) →
      read = .error (fault bare)) :
    (∀ found, read = .ok found ↔
      ∃ enclosed, RuleList (nodes text.toList) enclosed [] ∧
        found = enclosed.map EnclosedRule.listed) ∧
    ∀ error, read = .error error ↔
      ∃ enclosed bare others, RuleList (nodes text.toList) enclosed (bare :: others) ∧
        error = fault bare := by
  obtain ⟨enclosed, bares, list⟩ := ruleList_total (nodes text.toList)
  constructor
  · intro found
    constructor
    · intro ended
      cases bares with
      | nil => exact ⟨enclosed, list, Except.ok.inj (ended.symm.trans (succeeds _ list))⟩
      | cons bare others => cases ended.symm.trans (fails _ _ _ list)
    · rintro ⟨enclosed, list, rfl⟩
      exact succeeds enclosed list
  · intro error
    constructor
    · intro ended
      cases bares with
      | nil => cases ended.symm.trans (succeeds _ list)
      | cons bare others =>
          exact ⟨enclosed, bare, others, list,
            Except.error.inj (ended.symm.trans (fails _ _ _ list))⟩
    · rintro ⟨enclosed, bare, others, list, rfl⟩
      exact fails enclosed bare others list

end Text

end ComponentStyles.Css
