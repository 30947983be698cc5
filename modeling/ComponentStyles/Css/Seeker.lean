import ComponentStyles.Css.Reader
import ComponentStyles.Css.Reference

/-!
References found by a cursor.

The search looks at one token after the other.  A block is searched in its turn, and the one of a
referring function for its argument alone; where more follows a quoted argument, a fault ends the
search with what has been found.  Every round moves the cursor on, so the search ends on every
text.
-/

namespace ComponentStyles.Css

open ComponentStyles.Text Cursor

def Token.quotedValue? : Token → Option String
  | quoted value => some value
  | _ => none

def plainArgument (text : String) : Option String :=
  if text.isEmpty || sameIgnoringCase text "null" then none else some text

structure ArgumentReading where
  value : Option String
  cursor : Cursor

/-- The first quoted value ahead, or else what the text from `start` on names. -/
def readArgumentFrom (start : List Lexeme) (delimiters : List Delimiter) (cursor : Cursor) :
    ArgumentReading :=
  match _read : (cursor.next delimiters).result with
  | .ok token =>
      match token.quotedValue? with
      | some value => { value := some value, cursor := (cursor.next delimiters).cursor }
      | none => readArgumentFrom start delimiters (cursor.next delimiters).cursor
  | .error _ =>
      { value := plainArgument (textBetween start (cursor.next delimiters).cursor.ahead)
        cursor := (cursor.next delimiters).cursor }
termination_by cursor.settled.length
decreasing_by exact Nat.lt_of_le_of_lt (settled_suffix _).length_le (length_next_lt _read)

section Equations

variable (start : List Lexeme) {delimiters : List Delimiter} {cursor : Cursor} {token : Token}

theorem readArgumentFrom_quoted {value : String}
    (read : (cursor.next delimiters).result = .ok token)
    (isQuoted : token.quotedValue? = some value) :
    readArgumentFrom start delimiters cursor =
      { value := some value, cursor := (cursor.next delimiters).cursor } := by
  rw [readArgumentFrom]
  split
  · rename_i again
    cases read.symm.trans again
    rw [isQuoted]
  · rename_i failed
    cases read.symm.trans failed

theorem readArgumentFrom_other (read : (cursor.next delimiters).result = .ok token)
    (other : token.quotedValue? = none) :
    readArgumentFrom start delimiters cursor =
      readArgumentFrom start delimiters (cursor.next delimiters).cursor := by
  rw [readArgumentFrom]
  split
  · rename_i again
    cases read.symm.trans again
    rw [other]
  · rename_i failed
    cases read.symm.trans failed

theorem readArgumentFrom_end {fault : Fault}
    (failed : (cursor.next delimiters).result = .error fault) :
    readArgumentFrom start delimiters cursor =
      { value := plainArgument (textBetween start (cursor.next delimiters).cursor.ahead)
        cursor := (cursor.next delimiters).cursor } := by
  rw [readArgumentFrom]
  split
  · rename_i read
    cases failed.symm.trans read
  · rfl

end Equations

theorem readArgumentFrom_suffix (start : List Lexeme) (delimiters : List Delimiter)
    (cursor : Cursor) :
    (readArgumentFrom start delimiters cursor).cursor.settled <:+ cursor.settled := by
  have behind : ∀ cursor : Cursor, (cursor.next delimiters).cursor.settled <:+ cursor.settled :=
    fun cursor => (settled_suffix _).trans (cursor.next_suffix delimiters)
  induction cursor using readArgumentFrom.induct delimiters with
  | case1 cursor token read value isQuoted =>
      rw [readArgumentFrom_quoted start read isQuoted]
      exact behind cursor
  | case2 cursor token read other inductionHypothesis =>
      rw [readArgumentFrom_other start read other]
      exact inductionHypothesis.trans (behind cursor)
  | case3 cursor fault failed =>
      rw [readArgumentFrom_end start failed]
      exact behind cursor

inductive SearchRound where
  | ended (cursor : Cursor)
  | passed (reference : Option Reference) (cursor : Cursor)
  | referring (make : String → Reference) (cursor : Cursor)
  | entered (bracket : Bracket) (cursor : Cursor)

namespace SearchRound

def cursor : SearchRound → Cursor
  | ended cursor | passed _ cursor | referring _ cursor | entered _ cursor => cursor

def goesOn : SearchRound → Bool
  | ended _ => false
  | _ => true

def ofToken (token : Token) (cursor : Cursor) : SearchRound :=
  match token with
  | .url address => .passed (some (.asset address)) cursor
  | .function name =>
      match Reference.made? name with
      | some make => .referring make cursor
      | none => .entered .round cursor
  | .opening bracket => .entered bracket cursor
  | _ => .passed none cursor

theorem cursor_ofToken (token : Token) (after : Cursor) : (ofToken token after).cursor = after := by
  unfold ofToken
  split
  · rfl
  · split <;> rfl
  · rfl
  · rfl

end SearchRound

def searchRound (delimiters : List Delimiter) (cursor : Cursor) : SearchRound :=
  match (cursor.next delimiters).result with
  | .ok token => .ofToken token (cursor.next delimiters).cursor
  | .error _ => .ended (cursor.next delimiters).cursor

theorem searchRound_suffix (delimiters : List Delimiter) (cursor : Cursor) :
    (searchRound delimiters cursor).cursor.ahead <:+ cursor.settled := by
  have behind := cursor.next_suffix delimiters
  unfold searchRound
  split
  · rw [SearchRound.cursor_ofToken]
    exact behind
  · exact behind

theorem length_searchRound_lt {delimiters : List Delimiter} {cursor : Cursor}
    (goesOn : (searchRound delimiters cursor).goesOn = true) :
    (searchRound delimiters cursor).cursor.ahead.length < cursor.settled.length := by
  unfold searchRound at goesOn ⊢
  split
  · rename_i token read
    rw [SearchRound.cursor_ofToken]
    exact length_next_lt read
  · rename_i failed
    rw [failed] at goesOn
    cases goesOn

theorem settled_of_searchRound {delimiters : List Delimiter} {cursor : Cursor}
    {round : SearchRound} (same : searchRound delimiters cursor = round)
    (goesOn : round.goesOn = true) :
    round.cursor.ahead <:+ cursor.settled ∧
      round.cursor.ahead.length < cursor.settled.length := by
  rw [← same] at goesOn ⊢
  exact ⟨searchRound_suffix delimiters cursor, length_searchRound_lt goesOn⟩

structure SearchReading where
  result : Except Fault Unit
  cursor : Cursor
  found : List Reference

namespace SearchReading

def blockResult (bracket : Bracket) (block : SearchReading) : Except Fault Unit :=
  match block.result with
  | .ok _ => block.cursor.demandEnd [.closing bracket]
  | .error fault => .error fault

def behind (bracket : Bracket) (block : SearchReading) : Cursor :=
  block.cursor.leave bracket

theorem behind_suffix (bracket : Bracket) {block : SearchReading} {start : List Lexeme}
    (inside : block.cursor.settled <:+ start) : (block.behind bracket).settled <:+ start := by
  unfold behind leave
  rw [settled_facing]
  exact (skipBlocks_suffix _ _).trans inside

def ofArgument (make : String → Reference) (cursor : Cursor) (found : List Reference) :
    SearchReading :=
  let argument := readArgumentFrom cursor.ahead [.closing .round] (facing cursor.ahead)
  { result := .ok ()
    cursor := argument.cursor
    found := found ++ (argument.value.map make).toList }

theorem ofArgument_suffix (make : String → Reference) (cursor : Cursor)
    (found : List Reference) : (ofArgument make cursor found).cursor.settled <:+ cursor.ahead := by
  have inside := readArgumentFrom_suffix cursor.ahead [.closing .round] (facing cursor.ahead)
  rw [settled_facing] at inside
  exact inside

def andBehind (bracket : Bracket) (block : SearchReading)
    (goOn : Cursor → List Reference → SearchReading) : SearchReading :=
  match block.blockResult bracket with
  | .error fault => { result := .error fault, cursor := block.behind bracket, found := block.found }
  | .ok _ => goOn (block.behind bracket) block.found

end SearchReading

def readReferencesFrom (delimiters : List Delimiter) (cursor : Cursor) (found : List Reference) :
    { reading : SearchReading // reading.cursor.settled <:+ cursor.settled } :=
  match round : searchRound delimiters cursor with
  | .ended after =>
      ⟨{ result := .ok (), cursor := after, found }, by
        have behind := searchRound_suffix delimiters cursor
        rw [round] at behind
        exact (settled_suffix after).trans behind⟩
  | .passed reference after =>
      have moved := settled_of_searchRound round rfl
      have _shorter := Nat.lt_of_le_of_lt (settled_suffix after).length_le moved.2
      let rest := readReferencesFrom delimiters after (found ++ reference.toList)
      ⟨rest.1, (rest.2.trans (settled_suffix after)).trans moved.1⟩
  | .referring make after =>
      have moved := settled_of_searchRound round rfl
      let block := SearchReading.ofArgument make after found
      have left : (block.behind .round).settled <:+ after.ahead :=
        SearchReading.behind_suffix .round (SearchReading.ofArgument_suffix make after found)
      have _shorter := Nat.lt_of_le_of_lt left.length_le moved.2
      match block.blockResult .round with
      | .error fault =>
          ⟨{ result := .error fault, cursor := block.behind .round, found := block.found },
            left.trans moved.1⟩
      | .ok _ =>
          let rest := readReferencesFrom delimiters (block.behind .round) block.found
          ⟨rest.1, (rest.2.trans left).trans moved.1⟩
  | .entered bracket after =>
      have moved := settled_of_searchRound round rfl
      have _inside : after.ahead.length < cursor.settled.length := moved.2
      let block := readReferencesFrom [.closing bracket] (facing after.ahead) found
      have left : (block.1.behind bracket).settled <:+ after.ahead :=
        SearchReading.behind_suffix bracket (block.2.trans (settled_suffix _))
      have _shorter := Nat.lt_of_le_of_lt left.length_le moved.2
      match block.1.blockResult bracket with
      | .error fault =>
          ⟨{ result := .error fault, cursor := block.1.behind bracket, found := block.1.found },
            left.trans moved.1⟩
      | .ok _ =>
          let rest := readReferencesFrom delimiters (block.1.behind bracket) block.1.found
          ⟨rest.1, (rest.2.trans left).trans moved.1⟩
termination_by cursor.settled.length

def readReferences (delimiters : List Delimiter) (cursor : Cursor) (found : List Reference) :
    SearchReading :=
  (readReferencesFrom delimiters cursor found).1

section Equations

variable {delimiters : List Delimiter} {cursor after : Cursor} (found : List Reference)

theorem readReferences_suffix :
    (readReferences delimiters cursor found).cursor.settled <:+ cursor.settled :=
  (readReferencesFrom delimiters cursor found).2

theorem readReferences_ended (round : searchRound delimiters cursor = .ended after) :
    readReferences delimiters cursor found = { result := .ok (), cursor := after, found } := by
  unfold readReferences
  rw [readReferencesFrom]
  split <;> rename_i same <;> rw [round] at same <;> cases same
  rfl

theorem readReferences_passed {reference : Option Reference}
    (round : searchRound delimiters cursor = .passed reference after) :
    readReferences delimiters cursor found =
      readReferences delimiters after (found ++ reference.toList) := by
  unfold readReferences
  rw [readReferencesFrom]
  split <;> rename_i same <;> rw [round] at same <;> cases same
  rfl

theorem readReferences_referring {make : String → Reference}
    (round : searchRound delimiters cursor = .referring make after) :
    readReferences delimiters cursor found =
      (SearchReading.ofArgument make after found).andBehind .round (readReferences delimiters) := by
  unfold readReferences
  rw [readReferencesFrom]
  split <;> rename_i same <;> rw [round] at same <;> cases same
  unfold SearchReading.andBehind
  dsimp only
  split <;> rfl

theorem readReferences_entered {bracket : Bracket}
    (round : searchRound delimiters cursor = .entered bracket after) :
    readReferences delimiters cursor found =
      (readReferences [.closing bracket] (facing after.ahead) found).andBehind bracket
        (readReferences delimiters) := by
  unfold readReferences
  rw [readReferencesFrom]
  split <;> rename_i same <;> rw [round] at same <;> cases same
  unfold SearchReading.andBehind
  dsimp only
  split <;> rfl

end Equations

def seekReferences (value : String) : List Reference :=
  (readReferences [] (facing (lexemes value.toList)) []).found

end ComponentStyles.Css
