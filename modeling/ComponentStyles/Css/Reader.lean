import ComponentStyles.Css.Cursor
import ComponentStyles.Css.Rule

/-!
Rules and declarations read by a cursor.

A list of rules is read in rounds, each of which begins at the first token that has not been read.
A faulty declaration is given up wherever its fault shows, and reading goes on behind the next
semicolon; any other fault ends the reading of the rules.  Every round moves the cursor on, and so
does every declaration, so the reading ends on every text.
-/

namespace ComponentStyles.Css

open ComponentStyles.Text

namespace Token

def identifier? : Token → Option String
  | identifier name => some name
  | _ => none

def colon? : Token → Option Unit
  | colon => some ()
  | _ => none

def curlyBlock? : Token → Option Unit
  | opening .curly => some ()
  | _ => none

end Token

def textBetween (start stop : List Lexeme) : String :=
  String.ofList (trim ((start.take (start.length - stop.length)).flatMap Lexeme.text))

open Cursor

def readRest (delimiters : List Delimiter) (cursor : Cursor) : Reading Unit :=
  match _read : (cursor.next delimiters).result with
  | .ok _ => readRest delimiters (cursor.next delimiters).cursor
  | .error _ => { result := .ok (), cursor := (cursor.next delimiters).cursor }
termination_by cursor.settled.length
decreasing_by exact Nat.lt_of_le_of_lt (settled_suffix _).length_le (length_next_lt _read)

def readDeclaration (delimiters : List Delimiter) (cursor : Cursor) : Reading Declaration :=
  (cursor.expect delimiters Token.identifier?).andThen fun name named =>
    (named.expect delimiters Token.colon?).andThen fun _ start =>
      (readRest delimiters start).andThen fun _ stop =>
        { result := .ok { name, value := textBetween start.ahead stop.ahead }, cursor := stop }

theorem readRest_forward : Forward readRest := by
  intro delimiters cursor
  induction cursor using readRest.induct delimiters with
  | case1 cursor token read inductionHypothesis =>
      rw [readRest]
      split
      · exact inductionHypothesis.trans
          ((settled_suffix _).trans (cursor.next_suffix delimiters))
      · rename_i failed
        rw [read] at failed
        cases failed
  | case2 cursor fault failed =>
      rw [readRest]
      split
      · rename_i read
        rw [read] at failed
        cases failed
      · exact (settled_suffix _).trans (cursor.next_suffix delimiters)

theorem readDeclaration_forward : Forward readDeclaration := by
  intro delimiters cursor
  have name := (settled_suffix _).trans (cursor.expect_suffix delimiters Token.identifier?)
  refine andThen_suffix name fun _ => ?_
  have colon := ((settled_suffix _).trans (expect_suffix delimiters Token.colon? _)).trans name
  refine andThen_suffix colon fun _ => ?_
  have rest := (readRest_forward delimiters _).trans colon
  exact andThen_suffix rest fun _ => rest

/-- Reads on in a block.  What is no declaration is passed with the semicolon that ends it. -/
def readDeclarationsFrom (delimiters : List Delimiter) (cursor : Cursor)
    (found : List Declaration) : Reading (List Declaration) :=
  if _exhausted : cursor.isExhausted delimiters then { result := .ok found, cursor }
  else
    let piece := cursor.readPast delimiters [.semicolon] readDeclaration
    match piece.result with
    | .ok declaration => readDeclarationsFrom delimiters piece.cursor (found ++ [declaration])
    | .error _ => readDeclarationsFrom delimiters piece.cursor found
termination_by cursor.settled.length
decreasing_by
  all_goals
    refine Nat.lt_of_le_of_lt (settled_suffix _).length_le ?_
    exact length_readPast_lt readDeclaration_forward (Bool.eq_false_iff.mpr _exhausted)

def readDeclarations (delimiters : List Delimiter) (cursor : Cursor) :
    Reading (List Declaration) :=
  readDeclarationsFrom delimiters cursor []

theorem readDeclarationsFrom_forward (found : List Declaration) :
    Forward fun delimiters cursor => readDeclarationsFrom delimiters cursor found := by
  intro delimiters cursor
  dsimp only
  induction cursor, found using readDeclarationsFrom.induct delimiters with
  | case1 cursor found exhausted =>
      rewrite [readDeclarationsFrom, dif_pos exhausted]
      exact List.suffix_refl _
  | case2 cursor found left piece declaration read inductionHypothesis =>
      have behind := readPast_suffix readDeclaration_forward delimiters [.semicolon] cursor
      rw [readDeclarationsFrom, dif_neg left]
      dsimp only
      rw [read]
      exact inductionHypothesis.trans ((settled_suffix _).trans behind)
  | case3 cursor found left piece fault read inductionHypothesis =>
      have behind := readPast_suffix readDeclaration_forward delimiters [.semicolon] cursor
      rw [readDeclarationsFrom, dif_neg left]
      dsimp only
      rw [read]
      exact inductionHypothesis.trans ((settled_suffix _).trans behind)

theorem readDeclarations_forward : Forward readDeclarations :=
  readDeclarationsFrom_forward []

inductive Round where
  | ended (result : Except Fault Unit) (cursor : Cursor)
  | passed (cursor : Cursor)
  | kept (selector : String) (declarations : List Declaration) (cursor : Cursor)
  | entered (header : String) (cursor : Cursor)

namespace Round

def cursor : Round → Cursor
  | ended _ cursor | passed cursor | kept _ _ cursor | entered _ cursor => cursor

def keeping (selector : String) (block : Reading (List Declaration)) : Round :=
  match block.result with
  | .ok declarations => .kept selector declarations block.cursor
  | .error fault => .ended (.error fault) block.cursor

def goesOn : Round → Bool
  | ended _ _ => false
  | _ => true

end Round

def headerOf (name prelude : String) : String :=
  if prelude.isEmpty then "@" ++ name else "@" ++ name ++ " " ++ prelude

def readAtRule (delimiters : List Delimiter) (name : String) (cursor : Cursor) : Round :=
  let prelude := cursor.readUntil delimiters [.curlyBlock, .semicolon] readRest
  match prelude.result with
  | .error fault => .ended (.error fault) prelude.cursor
  | .ok _ =>
      let header := headerOf name (textBetween cursor.ahead prelude.cursor.ahead)
      let block := prelude.cursor.expect delimiters Token.curlyBlock?
      match block.result with
      | .error _ => .passed block.cursor
      | .ok _ =>
          match AtRuleKind.of name with
          | .group => .entered header block.cursor
          | .descriptors => .keeping header (block.cursor.readBlock .curly readDeclarations)
          | .skipped => .passed block.cursor

def readStyleRule (delimiters : List Delimiter) (start : List Lexeme) (cursor : Cursor) : Round :=
  let prelude := cursor.readUntil delimiters [.curlyBlock] readRest
  match prelude.result with
  | .error fault => .ended (.error fault) prelude.cursor
  | .ok _ =>
      let selector := textBetween start prelude.cursor.ahead
      let block := prelude.cursor.expect delimiters Token.curlyBlock?
      match block.result with
      | .error _ =>
          .ended (.error { kind := .missingBlock selector, ahead := block.cursor.ahead })
            block.cursor
      | .ok _ => .keeping selector (block.cursor.readBlock .curly readDeclarations)

def readRound (delimiters : List Delimiter) (cursor : Cursor) : Round :=
  let start := cursor.passSeparators
  let first := start.next delimiters
  match first.result with
  | .error _ => .ended (.ok ()) first.cursor
  | .ok token =>
      match token with
      | .markupOpening | .markupClosing | .semicolon | .opening .curly => .passed first.cursor
      | .atKeyword name => readAtRule delimiters name first.cursor
      | _ => readStyleRule delimiters start.ahead first.cursor

theorem Round.keeping_cursor (selector : String) (block : Reading (List Declaration)) :
    (Round.keeping selector block).cursor = block.cursor := by
  unfold Round.keeping
  split <;> rfl

theorem readAtRule_suffix (delimiters : List Delimiter) (name : String) (cursor : Cursor) :
    (readAtRule delimiters name cursor).cursor.ahead <:+ cursor.settled := by
  have prelude := readUntil_suffix readRest_forward delimiters [.curlyBlock, .semicolon] cursor
  have block := ((expect_suffix delimiters Token.curlyBlock? _).trans (settled_suffix _)).trans
    prelude
  have content := (readBlock_suffix readDeclarations_forward .curly _).trans block
  unfold readAtRule
  dsimp only
  split
  · exact prelude
  · split
    · exact block
    · split
      · exact block
      · rw [Round.keeping_cursor]
        exact content
      · exact block

theorem readStyleRule_suffix (delimiters : List Delimiter) (start : List Lexeme)
    (cursor : Cursor) :
    (readStyleRule delimiters start cursor).cursor.ahead <:+ cursor.settled := by
  have prelude := readUntil_suffix readRest_forward delimiters [.curlyBlock] cursor
  have block := ((expect_suffix delimiters Token.curlyBlock? _).trans (settled_suffix _)).trans
    prelude
  have content := (readBlock_suffix readDeclarations_forward .curly _).trans block
  unfold readStyleRule
  dsimp only
  split
  · exact prelude
  · split
    · exact block
    · rw [Round.keeping_cursor]
      exact content

theorem readRound_suffix (delimiters : List Delimiter) (cursor : Cursor) :
    (readRound delimiters cursor).cursor.ahead <:+ cursor.settled := by
  have first := (cursor.passSeparators.next_suffix delimiters).trans
    ((settled_suffix _).trans cursor.passSeparators_suffix)
  have behind := (settled_suffix _).trans first
  unfold readRound
  dsimp only
  split
  · exact first
  · split
    iterate 4 exact first
    · exact (readAtRule_suffix _ _ _).trans behind
    · exact (readStyleRule_suffix _ _ _).trans behind

theorem length_readRound_lt {delimiters : List Delimiter} {cursor : Cursor}
    (goesOn : (readRound delimiters cursor).goesOn = true) :
    (readRound delimiters cursor).cursor.ahead.length < cursor.settled.length := by
  have start := ((settled_suffix _).trans cursor.passSeparators_suffix).length_le
  unfold readRound at goesOn ⊢
  dsimp only at goesOn ⊢
  cases read : (cursor.passSeparators.next delimiters).result with
  | error fault =>
      rw [read] at goesOn
      cases goesOn
  | ok token =>
      have first := Nat.lt_of_lt_of_le (length_next_lt read) start
      have behind := (settled_suffix (cursor.passSeparators.next delimiters).cursor).length_le
      dsimp only
      split
      iterate 4 exact first
      · exact Nat.lt_of_le_of_lt (Nat.le_trans (readAtRule_suffix _ _ _).length_le behind) first
      · exact Nat.lt_of_le_of_lt (Nat.le_trans (readStyleRule_suffix _ _ _).length_le behind) first

structure RulesReading where
  result : Except Fault Unit
  cursor : Cursor
  found : List Rule

def RulesReading.blockResult (block : RulesReading) : Except Fault Unit :=
  match block.result with
  | .ok _ => block.cursor.demandEnd [.closing .curly]
  | .error fault => .error fault

def RulesReading.behind (block : RulesReading) : Cursor :=
  block.cursor.leave .curly

theorem RulesReading.behind_suffix {block : RulesReading} {start : List Lexeme}
    (inside : block.cursor.settled <:+ start) : block.behind.settled <:+ start := by
  unfold behind leave
  rw [settled_facing]
  exact (skipBlocks_suffix _ _).trans inside

/-- A round that goes on leaves less to read, in front of a block it has opened and behind it. -/
theorem settled_of_round {delimiters : List Delimiter} {cursor : Cursor} {round : Round}
    (same : readRound delimiters cursor = round) (goesOn : round.goesOn = true) :
    round.cursor.ahead <:+ cursor.settled ∧
      round.cursor.ahead.length < cursor.settled.length := by
  rw [← same] at goesOn ⊢
  exact ⟨readRound_suffix delimiters cursor, length_readRound_lt goesOn⟩

def readRulesFrom (delimiters : List Delimiter) (condition : Option String) (cursor : Cursor)
    (found : List Rule) :
    { reading : RulesReading // reading.cursor.settled <:+ cursor.settled } :=
  match round : readRound delimiters cursor with
  | .ended result after =>
      ⟨{ result, cursor := after, found }, by
        have behind := readRound_suffix delimiters cursor
        rw [round] at behind
        exact (settled_suffix after).trans behind⟩
  | .passed after =>
      have moved := settled_of_round round rfl
      have _shorter := Nat.lt_of_le_of_lt (settled_suffix after).length_le moved.2
      let rest := readRulesFrom delimiters condition after found
      ⟨rest.1, (rest.2.trans (settled_suffix after)).trans moved.1⟩
  | .kept selector declarations after =>
      have moved := settled_of_round round rfl
      have _shorter := Nat.lt_of_le_of_lt (settled_suffix after).length_le moved.2
      let rest := readRulesFrom delimiters condition after
        (found ++ [⟨condition, selector, declarations⟩])
      ⟨rest.1, (rest.2.trans (settled_suffix after)).trans moved.1⟩
  | .entered header after =>
      have moved := settled_of_round round rfl
      have _inside : after.ahead.length < cursor.settled.length := moved.2
      let block := readRulesFrom [.closing .curly] (some (nestedCondition condition header))
        (facing after.ahead) found
      have left : block.1.behind.settled <:+ after.ahead :=
        RulesReading.behind_suffix (block.2.trans (settled_suffix _))
      have _shorter := Nat.lt_of_le_of_lt left.length_le moved.2
      match block.1.blockResult with
      | .error fault =>
          ⟨{ result := .error fault, cursor := block.1.behind, found := block.1.found },
            left.trans moved.1⟩
      | .ok _ =>
          let rest := readRulesFrom delimiters condition block.1.behind block.1.found
          ⟨rest.1, (rest.2.trans left).trans moved.1⟩
termination_by cursor.settled.length

def readRules (delimiters : List Delimiter) (condition : Option String) (cursor : Cursor)
    (found : List Rule) : RulesReading :=
  (readRulesFrom delimiters condition cursor found).1

section Equations

variable {delimiters : List Delimiter} {cursor after : Cursor} (condition : Option String)
  (found : List Rule)

theorem readRules_ended {result : Except Fault Unit}
    (round : readRound delimiters cursor = .ended result after) :
    readRules delimiters condition cursor found = { result, cursor := after, found } := by
  unfold readRules
  rw [readRulesFrom]
  split <;> rename_i same <;> rw [round] at same <;> cases same
  rfl

theorem readRules_passed (round : readRound delimiters cursor = .passed after) :
    readRules delimiters condition cursor found = readRules delimiters condition after found := by
  unfold readRules
  rw [readRulesFrom]
  split <;> rename_i same <;> rw [round] at same <;> cases same
  rfl

theorem readRules_kept {selector : String} {declarations : List Declaration}
    (round : readRound delimiters cursor = .kept selector declarations after) :
    readRules delimiters condition cursor found =
      readRules delimiters condition after
        (found ++ [⟨condition, selector, declarations⟩]) := by
  unfold readRules
  rw [readRulesFrom]
  split <;> rename_i same <;> rw [round] at same <;> cases same
  rfl

theorem readRules_entered {header : String}
    (round : readRound delimiters cursor = .entered header after) :
    readRules delimiters condition cursor found =
      let block := readRules [.closing .curly] (some (nestedCondition condition header))
        (facing after.ahead) found
      match block.blockResult with
      | .error fault =>
          { result := .error fault, cursor := block.behind, found := block.found }
      | .ok _ => readRules delimiters condition block.behind block.found := by
  unfold readRules
  rw [readRulesFrom]
  split <;> rename_i same <;> rw [round] at same <;> cases same
  dsimp only
  split <;> rfl

end Equations

def readText (text : String) : Except Fault (List Rule) :=
  let reading := readRules [] none (facing (lexemes text.toList)) []
  reading.result.map fun _ => reading.found

def Fault.placeIn (fault : Fault) (text : String) : Place :=
  let characters := text.toList
  Place.behind
    (characters.take (characters.length - (fault.ahead.flatMap Lexeme.text).length))

end ComponentStyles.Css
