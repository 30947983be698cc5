import ComponentStyles.Css.Literal

/-!
Cutting a text into lexemes.

`Token.scan` reads the token at the start of a text; `lexemes` reads them all.  The main
statements say that every lexeme has at least one character and that the lexemes' texts, put
together, are the text: nothing is lost and nothing is read twice.
-/

namespace ComponentStyles.Css

open ComponentStyles.Text

namespace Token

def named (characters : List Char) : Token × Nat :=
  let name := readName characters
  match characters.drop name.2 with
  | '(' :: rest =>
      if sameIgnoringCase name.1 "url" then
        match readUrl rest with
        | some address => (address.1, name.2 + 1 + address.2)
        | none => (.function name.1, name.2 + 1)
      else (.function name.1, name.2 + 1)
  | _ => (.identifier name.1, name.2)

def comparisonOr (sign : Char) : List Char → Token × Nat
  | '=' :: _ => (.comparison sign, 2)
  | _ => (.delimiter sign, 1)

def hashed (rest : List Char) : Token × Nat :=
  let name := readName rest
  if beginsIdentifier rest then (.hash name.1 true, 1 + name.2)
  else
    match rest with
    | character :: _ =>
        if isDigit character || character == '-' then (.hash name.1 false, 1 + name.2)
        else (.delimiter '#', 1)
    | [] => (.delimiter '#', 1)

def scan (first : Char) (rest : List Char) : Token × Nat :=
  let characters := first :: rest
  if isSpace first then (.blank, (characters.takeWhile isSpace).length)
  else if beginsNumber characters then readNumber characters
  else
    match first with
    | '"' => let value := quotedFrom '"' rest [] 0; (value.1, 1 + value.2)
    | '\'' => let value := quotedFrom '\'' rest [] 0; (value.1, 1 + value.2)
    | '#' => hashed rest
    | '$' => comparisonOr '$' rest
    | '*' => comparisonOr '*' rest
    | '^' => comparisonOr '^' rest
    | '|' => comparisonOr '|' rest
    | '~' => comparisonOr '~' rest
    | '(' => (.opening .round, 1)
    | ')' => (.closing .round, 1)
    | '[' => (.opening .square, 1)
    | ']' => (.closing .square, 1)
    | '\x7b' => (.opening .curly, 1)
    | '\x7d' => (.closing .curly, 1)
    | ',' => (.comma, 1)
    | ':' => (.colon, 1)
    | ';' => (.semicolon, 1)
    | '-' =>
        match rest with
        | '-' :: '>' :: _ => (.markupClosing, 3)
        | _ => if beginsIdentifier characters then named characters else (.delimiter '-', 1)
    | '/' =>
        match rest with
        | '*' :: body => (.comment, 2 + commentWidth body 0)
        | _ => (.delimiter '/', 1)
    | '<' =>
        match rest with
        | '!' :: '-' :: '-' :: _ => (.markupOpening, 4)
        | _ => (.delimiter '<', 1)
    | '@' =>
        if beginsIdentifier rest then
          let name := readName rest
          (.atKeyword name.1, 1 + name.2)
        else (.delimiter '@', 1)
    | _ => if beginsIdentifier characters then named characters else (.delimiter first, 1)

theorem scan_hyphen {rest : List Char} (number : ¬ beginsNumber ('-' :: rest) = true)
    (arrow : ¬ ['-', '>'] <+: rest) :
    scan '-' rest =
      if beginsIdentifier ('-' :: rest) then named ('-' :: rest) else (.delimiter '-', 1) := by
  unfold scan
  dsimp only
  rw [if_neg (by decide), if_neg number]
  show (match rest with
    | '-' :: '>' :: _ => (Token.markupClosing, 3)
    | _ => if beginsIdentifier ('-' :: rest) then named ('-' :: rest)
        else (.delimiter '-', 1)) = _
  split
  · exact absurd ⟨_, rfl⟩ arrow
  · rfl

theorem scan_slash {rest : List Char} (comment : ¬ ['*'] <+: rest) :
    scan '/' rest = (.delimiter '/', 1) := by
  unfold scan
  dsimp only
  rw [if_neg (by decide), if_neg (by simp [beginsNumber, beginsUnsigned, beginsDigit, isDigit])]
  show (match rest with
    | '*' :: body => (Token.comment, 2 + commentWidth body 0)
    | _ => (.delimiter '/', 1)) = _
  split
  · exact absurd ⟨_, rfl⟩ comment
  · rfl

theorem scan_angle {rest : List Char} (markup : ¬ ['!', '-', '-'] <+: rest) :
    scan '<' rest = (.delimiter '<', 1) := by
  unfold scan
  dsimp only
  rw [if_neg (by decide), if_neg (by simp [beginsNumber, beginsUnsigned, beginsDigit, isDigit])]
  show (match rest with
    | '!' :: '-' :: '-' :: _ => (Token.markupOpening, 4)
    | _ => (.delimiter '<', 1)) = _
  split
  · exact absurd ⟨_, rfl⟩ markup
  · rfl

end Token

/-- The lexeme at the start of the text `first :: rest`.  Its text begins with `first`, whatever
the width that was read. -/
def Lexeme.first (first : Char) (rest : List Char) : Lexeme :=
  let read := Token.scan first rest
  { token := read.1, text := first :: rest.take (read.2 - 1) }

def lexemesFrom (characters : List Char) (found : Array Lexeme) : Array Lexeme :=
  match characters with
  | [] => found
  | first :: rest =>
      lexemesFrom (rest.drop ((Token.scan first rest).2 - 1)) (found.push (Lexeme.first first rest))
termination_by characters.length
decreasing_by simp only [List.length_drop, List.length_cons]; omega

def lexemes (characters : List Char) : List Lexeme :=
  (lexemesFrom characters #[]).toList

theorem lexeme_induction {motive : List Char → Prop} (nil : motive [])
    (cons : ∀ first rest, motive (rest.drop ((Token.scan first rest).2 - 1)) →
      motive (first :: rest)) :
    ∀ characters, motive characters
  | [] => nil
  | first :: rest =>
      cons first rest (lexeme_induction nil cons (rest.drop ((Token.scan first rest).2 - 1)))
termination_by characters => characters.length
decreasing_by simp only [List.length_drop, List.length_cons]; omega

theorem lexemesFrom_toList (characters : List Char) (found : Array Lexeme) :
    (lexemesFrom characters found).toList =
      found.toList ++ (lexemesFrom characters #[]).toList := by
  induction characters using lexeme_induction generalizing found with
  | nil => simp [lexemesFrom]
  | cons first rest inductionHypothesis =>
      rw [lexemesFrom, lexemesFrom, inductionHypothesis, inductionHypothesis (Array.push #[] _)]
      simp

@[simp]
theorem lexemes_nil : lexemes [] = [] := by
  simp [lexemes, lexemesFrom]

theorem lexemes_cons (first : Char) (rest : List Char) :
    lexemes (first :: rest) =
      Lexeme.first first rest :: lexemes (rest.drop ((Token.scan first rest).2 - 1)) := by
  rw [lexemes, lexemesFrom, lexemesFrom_toList]
  simp [lexemes]

theorem Lexeme.text_first_append (first : Char) (rest : List Char) :
    (Lexeme.first first rest).text ++ rest.drop ((Token.scan first rest).2 - 1) =
      first :: rest := by
  simp [Lexeme.first]

theorem lexemes_flatMap_text (characters : List Char) :
    (lexemes characters).flatMap Lexeme.text = characters := by
  induction characters using lexeme_induction with
  | nil => simp
  | cons first rest inductionHypothesis =>
      rw [lexemes_cons, List.flatMap_cons, inductionHypothesis]
      exact Lexeme.text_first_append first rest

theorem text_ne_nil_of_mem_lexemes {characters : List Char} {lexeme : Lexeme}
    (member : lexeme ∈ lexemes characters) : lexeme.text ≠ [] := by
  induction characters using lexeme_induction with
  | nil => simp at member
  | cons first rest inductionHypothesis =>
      rw [lexemes_cons] at member
      rcases List.mem_cons.mp member with rfl | later
      · simp [Lexeme.first]
      · exact inductionHypothesis later

end ComponentStyles.Css
