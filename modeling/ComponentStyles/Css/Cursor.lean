import ComponentStyles.Css.Lexeme

/-!
A cursor over the lexemes of a text.

The cursor reads token by token and passes blanks and comments.  A token that opens a block leaves
the cursor in front of the block's content; the block is passed as a whole by what reads next,
unless it is entered.  Reading ends at the end of the text or in front of a delimiter.  The main
statements say that no reading moves the cursor back, and that a token read, or a piece read past
its end, moves it on.
-/

namespace ComponentStyles.Css

inductive Delimiter where
  | curlyBlock
  | semicolon
  | closing (bracket : Bracket)
  deriving DecidableEq, Repr

def Delimiter.token : Delimiter → Token
  | curlyBlock => .opening .curly
  | semicolon => .semicolon
  | closing bracket => .closing bracket

def isDelimiter (delimiters : List Delimiter) (token : Token) : Bool :=
  delimiters.any fun delimiter => delimiter.token == token

theorem isDelimiter_append (left right : List Delimiter) (token : Token) :
    isDelimiter (left ++ right) token = (isDelimiter left token || isDelimiter right token) :=
  List.any_append

theorem isSeparator_of_isDelimiter {delimiters : List Delimiter} {token : Token}
    (isOne : isDelimiter delimiters token = true) : token.isSeparator = false := by
  obtain ⟨delimiter, _, same⟩ := List.any_eq_true.mp isOne
  rw [← beq_iff_eq.mp same]
  cases delimiter <;> rfl

def Lexeme.isSeparator (lexeme : Lexeme) : Bool :=
  lexeme.token.isSeparator

/-- The lexemes behind the block of the last bracket, all brackets being open, innermost first.  A
closing bracket counts for the innermost open one alone. -/
def skipBlocks : List Bracket → List Lexeme → List Lexeme
  | [], ahead => ahead
  | _ :: _, [] => []
  | innermost :: outer, lexeme :: rest =>
      match lexeme.token.opens with
      | some bracket => skipBlocks (bracket :: innermost :: outer) rest
      | none =>
          if lexeme.token.closes = some innermost then skipBlocks outer rest
          else skipBlocks (innermost :: outer) rest

@[simp]
theorem skipBlocks_nil (ahead : List Lexeme) : skipBlocks [] ahead = ahead := by
  cases ahead <;> rfl

theorem skipBlocks_suffix (unclosed : List Bracket) (ahead : List Lexeme) :
    skipBlocks unclosed ahead <:+ ahead := by
  induction ahead generalizing unclosed with
  | nil => cases unclosed <;> exact List.suffix_refl []
  | cons lexeme rest inductionHypothesis =>
      cases unclosed with
      | nil => exact List.suffix_refl _
      | cons innermost outer =>
          rw [skipBlocks]
          split
          · exact (inductionHypothesis _).trans (List.suffix_cons lexeme rest)
          · split <;> exact (inductionHypothesis _).trans (List.suffix_cons lexeme rest)

def skim (delimiters : List Delimiter) (ahead : List Lexeme) : List Lexeme :=
  match ahead with
  | [] => []
  | lexeme :: rest =>
      if isDelimiter delimiters lexeme.token then lexeme :: rest
      else skim delimiters (skipBlocks lexeme.token.opens.toList rest)
termination_by ahead.length
decreasing_by exact Nat.lt_succ_of_le (skipBlocks_suffix _ rest).length_le

theorem skim_suffix (delimiters : List Delimiter) (ahead : List Lexeme) :
    skim delimiters ahead <:+ ahead := by
  induction ahead using skim.induct delimiters with
  | case1 =>
      rewrite [skim]
      exact List.suffix_refl []
  | case2 lexeme rest ends =>
      rewrite [skim, if_pos ends]
      exact List.suffix_refl _
  | case3 lexeme rest goesOn inductionHypothesis =>
      rw [skim, if_neg goesOn]
      exact (inductionHypothesis.trans (skipBlocks_suffix _ rest)).trans
        (List.suffix_cons lexeme rest)

theorem length_skim_lt {delimiters : List Delimiter} {lexeme : Lexeme}
    (goesOn : ¬ isDelimiter delimiters lexeme.token = true) (rest : List Lexeme) :
    (skim delimiters (lexeme :: rest)).length < (lexeme :: rest).length := by
  rw [skim, if_neg goesOn]
  have behind := (skim_suffix delimiters _).trans
    (skipBlocks_suffix lexeme.token.opens.toList rest)
  exact Nat.lt_succ_of_le behind.length_le

structure Cursor where
  ahead : List Lexeme
  /-- The block that the last token opened, as long as it is neither entered nor passed. -/
  opened : Option Bracket
  deriving DecidableEq, Repr

inductive FaultKind where
  | endOfText
  | unexpected (token : Token)
  | missingBlock (selector : String)
  deriving DecidableEq, Repr

structure Fault where
  kind : FaultKind
  ahead : List Lexeme
  deriving DecidableEq, Repr

structure Reading (α : Type) where
  result : Except Fault α
  cursor : Cursor

variable {α β : Type}

def Reading.andThen (reading : Reading α) (next : α → Cursor → Reading β) : Reading β :=
  match reading.result with
  | .ok value => next value reading.cursor
  | .error fault => { result := .error fault, cursor := reading.cursor }

namespace Cursor

def facing (ahead : List Lexeme) : Cursor :=
  { ahead, opened := none }

/-- The lexemes ahead, behind the block just opened if there is one. -/
def settled (cursor : Cursor) : List Lexeme :=
  skipBlocks cursor.opened.toList cursor.ahead

def passSeparators (cursor : Cursor) : Cursor :=
  facing (cursor.settled.dropWhile Lexeme.isSeparator)

/-- The next token that is neither blank nor a comment, if no delimiter comes first. -/
def next (delimiters : List Delimiter) (cursor : Cursor) : Reading Token :=
  match cursor.passSeparators.ahead with
  | [] => { result := .error { kind := .endOfText, ahead := [] }, cursor := facing [] }
  | lexeme :: rest =>
      if isDelimiter delimiters lexeme.token then
        { result := .error { kind := .endOfText, ahead := lexeme :: rest }
          cursor := facing (lexeme :: rest) }
      else { result := .ok lexeme.token, cursor := { ahead := rest, opened := lexeme.token.opens } }

/-- The next token, if it is a wanted one.  Another one is read all the same. -/
def expect (delimiters : List Delimiter) (wanted : Token → Option α) (cursor : Cursor) :
    Reading α :=
  (cursor.next delimiters).andThen fun token after =>
    match wanted token with
    | some value => { result := .ok value, cursor := after }
    | none =>
        { result := .error { kind := .unexpected token, ahead := cursor.ahead }, cursor := after }

def isExhausted (delimiters : List Delimiter) (cursor : Cursor) : Bool :=
  match (cursor.next delimiters).result with
  | .ok _ => false
  | .error _ => true

def demandEnd (delimiters : List Delimiter) (cursor : Cursor) : Except Fault Unit :=
  match (cursor.next delimiters).result with
  | .ok token => .error { kind := .unexpected token, ahead := cursor.ahead }
  | .error _ => .ok ()

def readEntirely (delimiters : List Delimiter) (read : List Delimiter → Cursor → Reading α)
    (cursor : Cursor) : Reading α :=
  (read delimiters cursor).andThen fun value after =>
    { result := (after.demandEnd delimiters).map fun _ => value, cursor := after }

/-- Reads up to one more delimiter.  Wherever the reading ends, the cursor is left at the
delimiter. -/
def readUntil (delimiters more : List Delimiter) (read : List Delimiter → Cursor → Reading α)
    (cursor : Cursor) : Reading α :=
  let reading := cursor.readEntirely (delimiters ++ more) read
  { reading with cursor := facing (skim (delimiters ++ more) reading.cursor.settled) }

def readPast (delimiters more : List Delimiter) (read : List Delimiter → Cursor → Reading α)
    (cursor : Cursor) : Reading α :=
  let reading := cursor.readUntil delimiters more read
  match reading.cursor.ahead with
  | [] => reading
  | lexeme :: rest =>
      if isDelimiter delimiters lexeme.token then reading
      else { reading with cursor := facing (skipBlocks lexeme.token.opens.toList rest) }

def leave (bracket : Bracket) (cursor : Cursor) : Cursor :=
  facing (skipBlocks [bracket] cursor.settled)

/-- Enters the block that has just been opened.  Wherever the reading ends, the cursor is left
behind the block. -/
def readBlock (bracket : Bracket) (read : List Delimiter → Cursor → Reading α) (cursor : Cursor) :
    Reading α :=
  let reading := (facing cursor.ahead).readEntirely [.closing bracket] read
  { reading with cursor := reading.cursor.leave bracket }

@[simp]
theorem settled_facing (ahead : List Lexeme) : (facing ahead).settled = ahead :=
  skipBlocks_nil ahead

theorem settled_suffix (cursor : Cursor) : cursor.settled <:+ cursor.ahead :=
  skipBlocks_suffix _ _

theorem passSeparators_suffix (cursor : Cursor) :
    cursor.passSeparators.ahead <:+ cursor.settled :=
  List.dropWhile_suffix _

theorem next_cases (delimiters : List Delimiter) (cursor : Cursor) :
    (∃ fault, (cursor.next delimiters).result = .error fault ∧
        (cursor.next delimiters).cursor = cursor.passSeparators) ∨
      ∃ lexeme, (cursor.next delimiters).result = .ok lexeme.token ∧
        ¬ isDelimiter delimiters lexeme.token = true ∧
        cursor.passSeparators.ahead = lexeme :: (cursor.next delimiters).cursor.ahead := by
  unfold next
  cases shape : cursor.passSeparators.ahead with
  | nil => exact Or.inl ⟨_, rfl, congrArg facing shape.symm⟩
  | cons lexeme rest =>
      dsimp only
      by_cases ends : isDelimiter delimiters lexeme.token = true
      · rw [if_pos ends]
        exact Or.inl ⟨_, rfl, congrArg facing shape.symm⟩
      · rw [if_neg ends]
        exact Or.inr ⟨lexeme, rfl, ends, rfl⟩

theorem next_suffix (delimiters : List Delimiter) (cursor : Cursor) :
    (cursor.next delimiters).cursor.ahead <:+ cursor.settled := by
  rcases cursor.next_cases delimiters with ⟨_, _, same⟩ | ⟨lexeme, _, _, parts⟩
  · rw [same]
    exact cursor.passSeparators_suffix
  · have behind := List.suffix_cons lexeme (cursor.next delimiters).cursor.ahead
    rw [← parts] at behind
    exact behind.trans cursor.passSeparators_suffix

theorem length_next_lt {delimiters : List Delimiter} {cursor : Cursor} {token : Token}
    (read : (cursor.next delimiters).result = .ok token) :
    (cursor.next delimiters).cursor.ahead.length < cursor.settled.length := by
  rcases cursor.next_cases delimiters with ⟨_, failed, _⟩ | ⟨lexeme, _, _, parts⟩
  · rw [failed] at read
    cases read
  · have behind := cursor.passSeparators_suffix.length_le
    rw [parts, List.length_cons] at behind
    exact behind

theorem expect_suffix (delimiters : List Delimiter) (wanted : Token → Option α)
    (cursor : Cursor) : (cursor.expect delimiters wanted).cursor.ahead <:+ cursor.settled := by
  have behind := cursor.next_suffix delimiters
  unfold expect Reading.andThen
  split
  · dsimp only
    split <;> exact behind
  · exact behind

theorem cons_of_not_exhausted {delimiters : List Delimiter} {cursor : Cursor}
    (left : cursor.isExhausted delimiters = false) :
    ∃ lexeme rest, cursor.settled = lexeme :: rest ∧
      ¬ isDelimiter delimiters lexeme.token = true := by
  rcases cursor.next_cases delimiters with ⟨_, failed, _⟩ | ⟨token, _, goesOn, parts⟩
  · unfold isExhausted at left
    rw [failed] at left
    cases left
  · unfold passSeparators facing at parts
    dsimp only at parts
    cases shape : cursor.settled with
    | nil =>
        rw [shape] at parts
        cases parts
    | cons lexeme rest =>
        refine ⟨lexeme, rest, rfl, ?_⟩
        intro ends
        have plain : ¬ lexeme.isSeparator = true :=
          Bool.eq_false_iff.mp (isSeparator_of_isDelimiter ends)
        rw [shape, List.dropWhile_cons_of_neg plain] at parts
        rw [(List.cons.inj parts).1] at ends
        exact goesOn ends

def Forward (read : List Delimiter → Cursor → Reading α) : Prop :=
  ∀ delimiters cursor, (read delimiters cursor).cursor.settled <:+ cursor.settled

theorem andThen_suffix {reading : Reading α} {next : α → Cursor → Reading β}
    {start : List Lexeme} (first : reading.cursor.settled <:+ start)
    (second : ∀ value, (next value reading.cursor).cursor.settled <:+ start) :
    (reading.andThen next).cursor.settled <:+ start := by
  unfold Reading.andThen
  split
  · exact second _
  · exact first

section Forward

variable {read : List Delimiter → Cursor → Reading α} (forward : Forward read)
include forward

theorem readEntirely_suffix (delimiters : List Delimiter) (cursor : Cursor) :
    (cursor.readEntirely delimiters read).cursor.settled <:+ cursor.settled := by
  have behind := forward delimiters cursor
  exact andThen_suffix behind fun _ => behind

theorem readUntil_suffix (delimiters more : List Delimiter) (cursor : Cursor) :
    (cursor.readUntil delimiters more read).cursor.ahead <:+ cursor.settled :=
  (skim_suffix _ _).trans (readEntirely_suffix forward _ cursor)

omit forward in
theorem readPast_behind (delimiters more : List Delimiter) (cursor : Cursor) :
    (cursor.readPast delimiters more read).cursor.ahead <:+
      (cursor.readUntil delimiters more read).cursor.ahead := by
  unfold readPast
  dsimp only
  cases shape : (cursor.readUntil delimiters more read).cursor.ahead with
  | nil =>
      dsimp only
      rewrite [shape]
      exact List.suffix_refl []
  | cons lexeme rest =>
      dsimp only
      split
      · rewrite [shape]
        exact List.suffix_refl _
      · exact (skipBlocks_suffix _ rest).trans (List.suffix_cons lexeme rest)

theorem readPast_suffix (delimiters more : List Delimiter) (cursor : Cursor) :
    (cursor.readPast delimiters more read).cursor.ahead <:+ cursor.settled :=
  (readPast_behind delimiters more cursor).trans (readUntil_suffix forward delimiters more cursor)

theorem readBlock_suffix (bracket : Bracket) (cursor : Cursor) :
    (cursor.readBlock bracket read).cursor.ahead <:+ cursor.ahead := by
  have inside := readEntirely_suffix forward [.closing bracket] (facing cursor.ahead)
  rw [settled_facing] at inside
  exact (skipBlocks_suffix _ _).trans inside

theorem length_readPast_lt {delimiters more : List Delimiter} {cursor : Cursor}
    (left : cursor.isExhausted delimiters = false) :
    (cursor.readPast delimiters more read).cursor.ahead.length < cursor.settled.length := by
  obtain ⟨lexeme, rest, shape, goesOn⟩ := cons_of_not_exhausted left
  have behind : (cursor.readPast delimiters more read).cursor.ahead.length ≤
      (cursor.readUntil delimiters more read).cursor.ahead.length :=
    (readPast_behind delimiters more cursor).length_le
  have inside := readEntirely_suffix forward (delimiters ++ more) cursor
  rw [shape, List.suffix_cons_iff] at inside
  rcases inside with stays | moves
  · by_cases ends : isDelimiter (delimiters ++ more) lexeme.token = true
    · -- Only the new delimiter can stand here, and it is passed.
      have atDelimiter : (cursor.readUntil delimiters more read).cursor.ahead = lexeme :: rest := by
        unfold readUntil facing
        dsimp only
        rw [stays, skim, if_pos ends]
      have passed : (cursor.readPast delimiters more read).cursor =
          facing (skipBlocks lexeme.token.opens.toList rest) := by
        unfold readPast
        dsimp only
        rw [atDelimiter]
        dsimp only
        rw [if_neg goesOn]
      rw [passed, shape]
      exact Nat.lt_succ_of_le (skipBlocks_suffix _ rest).length_le
    · have skimmed := length_skim_lt ends rest
      rw [← stays] at skimmed
      rw [shape]
      exact Nat.lt_of_le_of_lt behind (stays ▸ skimmed)
  · have skimmed := ((skim_suffix (delimiters ++ more) _).trans moves).length_le
    rw [shape]
    exact Nat.lt_succ_of_le (Nat.le_trans behind skimmed)

end Forward

end Cursor

end ComponentStyles.Css
