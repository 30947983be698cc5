import ComponentStyles.Proofs.Css.Lexeme

/-!
Joining texts.

A text is closed when a closing parenthesis behind it is a lexeme of its own: then no quoted
value, comment or address is open at its end, and no backslash stands there.  The lexemes of a
closed text stay what they are in front of a closing parenthesis, and in front of a space too
unless the text ends in a hexadecimal escape.
-/

namespace ComponentStyles.Css

open ComponentStyles.Text

def Lexeme.closingRound : Lexeme :=
  { token := .closing .round, text := [')'] }

/-- A closing parenthesis behind the text is a lexeme of its own. -/
def Closed (text : List Char) : Prop :=
  (lexemes (text ++ [')'])).getLast? = some .closingRound

/-- The last lexeme of the text ends in a hexadecimal escape. -/
def EndsInEscape (text : List Char) : Prop :=
  ∃ last, (lexemes text).getLast? = some last ∧ endsInEscape last.text = true

theorem lexemes_append_of_scan {first : Char} {rest more : List Char}
    (same : Token.scan first (rest ++ more) = Token.scan first rest)
    (within : (Token.scan first rest).2 ≤ 1 + rest.length) :
    lexemes (first :: (rest ++ more)) =
      Lexeme.first first rest ::
        lexemes (rest.drop ((Token.scan first rest).2 - 1) ++ more) := by
  have inside : (Token.scan first rest).2 - 1 ≤ rest.length := by omega
  rw [lexemes_cons, same, List.drop_append_of_le_length inside]
  unfold Lexeme.first
  dsimp only
  rw [same, List.take_append_of_le_length inside]

theorem scan_within_of_closed {first : Char} {rest : List Char} (closed : Closed (first :: rest)) :
    (Token.scan first (rest ++ [')'])).2 ≤ 1 + rest.length := by
  apply Nat.le_of_not_lt
  intro far
  -- A lexeme over the end of the text would be the last one, the parenthesis being a part of it.
  unfold Closed at closed
  rw [List.cons_append, lexemes_cons, List.drop_eq_nil_of_le (by simp; omega), lexemes_nil,
    List.getLast?_singleton] at closed
  have length := congrArg (fun lexeme => lexeme.text.length) (Option.some.inj closed)
  have whole : (Token.scan first (rest ++ [')'])).2 - 1 ≥ (rest ++ [')']).length := by
    rw [List.length_append, List.length_singleton]
    omega
  rw [Lexeme.first, List.take_of_length_le whole] at length
  simp [Lexeme.closingRound] at length

theorem takeWhile_isSpace_closing (rest more : List Char) :
    (rest ++ ')' :: more).takeWhile isSpace = rest.takeWhile isSpace := by
  rw [List.takeWhile_append]
  split
  · rename_i whole
    rw [List.takeWhile_cons_of_neg (by decide), List.append_nil]
    exact ((List.takeWhile_prefix isSpace).eq_of_length whole).symm
  · rfl

theorem Closed.scan_closing {first : Char} {rest : List Char} (closed : Closed (first :: rest))
    (more : List Char) : Token.scan first (rest ++ ')' :: more) = Token.scan first rest := by
  by_cases blank : isSpace first = true
  · rw [scan_blank blank, scan_blank blank, takeWhile_isSpace_closing]
  · exact scan_tail (scan_within_of_closed closed) (.closing more) (by simp) (by simp)
      blank

theorem Closed.within {first : Char} {rest : List Char} (closed : Closed (first :: rest)) :
    (Token.scan first rest).2 ≤ 1 + rest.length := by
  have within := scan_within_of_closed closed
  rwa [closed.scan_closing []] at within

theorem Closed.behind {first : Char} {rest : List Char} (closed : Closed (first :: rest)) :
    Closed (rest.drop ((Token.scan first rest).2 - 1)) := by
  have lexeme := lexemes_append_of_scan (closed.scan_closing []) closed.within
  unfold Closed at closed ⊢
  rw [List.cons_append, lexeme] at closed
  cases others : lexemes (rest.drop ((Token.scan first rest).2 - 1) ++ [')']) with
  | nil =>
      have lost := lexemes_flatMap_text (rest.drop ((Token.scan first rest).2 - 1) ++ [')'])
      rw [others] at lost
      simp at lost
  | cons second more =>
      rw [others, List.getLast?_cons_cons] at closed
      exact closed

theorem lexemes_cons_closing (more : List Char) :
    lexemes (')' :: more) = .closingRound :: lexemes more := by
  rw [lexemes_cons]
  rfl

theorem Closed.lexemes_closing {text : List Char} (closed : Closed text) (more : List Char) :
    lexemes (text ++ ')' :: more) = lexemes text ++ .closingRound :: lexemes more := by
  induction text using lexeme_induction with
  | nil => rw [List.nil_append, lexemes_nil, List.nil_append, lexemes_cons_closing]
  | cons first rest inductionHypothesis =>
      rw [List.cons_append, lexemes_append_of_scan (closed.scan_closing more) closed.within,
        inductionHypothesis closed.behind, lexemes_cons, List.cons_append]

/-- A text is closed if its lexemes in front of a closing parenthesis end in that one alone, and
then they are what stands before it. -/
theorem closed_of_lexemes {text : List Char} {read : List Lexeme}
    (inFront : lexemes (text ++ [')']) = read ++ [.closingRound]) :
    Closed text ∧ lexemes text = read := by
  have closed : Closed text := by
    unfold Closed
    rw [inFront, List.getLast?_concat]
  refine ⟨closed, ?_⟩
  have joined := (closed.lexemes_closing []).symm.trans inFront
  rw [lexemes_nil] at joined
  exact List.append_cancel_right joined

def SameBeforeBlank (lexemes front : List Lexeme) : Prop :=
  lexemes = front ∨ ∃ blank : Lexeme, blank.token = .blank ∧ lexemes = front ++ [blank]

def SameBehindBlank (lexemes back : List Lexeme) : Prop :=
  lexemes = back ∨ ∃ blank : Lexeme, blank.token = .blank ∧ lexemes = blank :: back

theorem lexemes_of_blank {first : Char} (blank : isSpace first = true) (rest : List Char) :
    lexemes (first :: rest) =
      { token := .blank, text := first :: rest.takeWhile isSpace } ::
        lexemes (rest.dropWhile isSpace) := by
  have parts : rest.takeWhile isSpace ++ rest.dropWhile isSpace = rest :=
    List.takeWhile_append_dropWhile
  have taken : rest.take (rest.takeWhile isSpace).length = rest.takeWhile isSpace := by
    have front := congrArg (List.take (rest.takeWhile isSpace).length) parts
    rwa [List.take_left, eq_comm] at front
  have dropped : rest.drop (rest.takeWhile isSpace).length = rest.dropWhile isSpace := by
    have back := congrArg (List.drop (rest.takeWhile isSpace).length) parts
    rwa [List.drop_left, eq_comm] at back
  rw [lexemes_cons]
  unfold Lexeme.first
  dsimp only
  rw [scan_blank blank, Nat.add_sub_cancel_left, dropped, taken]

theorem sameBehindBlank_dropWhile (text : List Char) :
    SameBehindBlank (lexemes text) (lexemes (text.dropWhile isSpace)) := by
  cases text with
  | nil => exact Or.inl rfl
  | cons first rest =>
      by_cases blank : isSpace first = true
      · right
        exact ⟨_, rfl, by rw [List.dropWhile_cons_of_pos blank, lexemes_of_blank blank]⟩
      · left
        rw [List.dropWhile_cons_of_neg blank]

theorem EndsInEscape.of_behind {first : Char} {rest : List Char}
    (ends : EndsInEscape (rest.drop ((Token.scan first rest).2 - 1))) :
    EndsInEscape (first :: rest) := by
  obtain ⟨last, isLast, escape⟩ := ends
  refine ⟨last, ?_, escape⟩
  rw [lexemes_cons]
  cases others : lexemes (rest.drop ((Token.scan first rest).2 - 1)) with
  | nil =>
      rw [others] at isLast
      cases isLast
  | cons second more =>
      rw [others] at isLast
      rw [List.getLast?_cons_cons]
      exact isLast

theorem endsInEscape_of_whole {first : Char} {rest : List Char}
    (whole : (Token.scan first rest).2 = 1 + rest.length)
    (escape : ¬ EndsInEscape (first :: rest)) : endsInEscape (first :: rest) = false := by
  by_contra ends
  rw [Bool.not_eq_false] at ends
  refine escape ⟨Lexeme.first first rest, ?_, ?_⟩
  · rw [lexemes_cons, whole, Nat.add_sub_cancel_left, List.drop_length, lexemes_nil]
    rfl
  · unfold Lexeme.first
    dsimp only
    rw [whole, Nat.add_sub_cancel_left, List.take_length]
    exact ends

theorem Closed.scan_space {first : Char} {rest : List Char} (closed : Closed (first :: rest))
    (escape : ¬ EndsInEscape (first :: rest))
    (notAll : ¬ (isSpace first = true ∧ rest.dropWhile isSpace = [])) (more : List Char) :
    Token.scan first (rest ++ ' ' :: more) = Token.scan first rest := by
  by_cases blank : isSpace first = true
  · have ends : ¬ (rest.takeWhile isSpace).length = rest.length := by
      intro whole
      have all := (List.takeWhile_prefix isSpace).eq_of_length whole
      exact notAll ⟨blank,
        List.dropWhile_eq_nil_iff.mpr (List.takeWhile_eq_self_iff.mp all)⟩
    rw [scan_blank blank, scan_blank blank, List.takeWhile_append, if_neg ends]
  · exact scan_tail (scan_within_of_closed closed) (.space more)
      (fun _ whole => endsInEscape_of_whole whole escape) (by simp) blank

/-- Between closed texts a space is a blank of its own, or a part of the blanks around it. -/
theorem Closed.lexemes_space {text : List Char} (closed : Closed text)
    (escape : ¬ EndsInEscape text) (more : List Char) :
    ∃ front blank back, lexemes (text ++ ' ' :: more) = front ++ blank :: back ∧
      blank.token = .blank ∧ SameBeforeBlank (lexemes text) front ∧
      SameBehindBlank (lexemes more) back := by
  induction text using lexeme_induction with
  | nil =>
      exact ⟨[], _, _, lexemes_of_blank (by decide) more, rfl, Or.inl lexemes_nil,
        sameBehindBlank_dropWhile more⟩
  | cons first rest inductionHypothesis =>
      by_cases allBlank : isSpace first = true ∧ rest.dropWhile isSpace = []
      · obtain ⟨blank, others⟩ := allBlank
        have joined := lexemes_of_blank blank (rest ++ ' ' :: more)
        rw [List.dropWhile_append, others, List.isEmpty_nil, if_pos rfl,
          List.dropWhile_cons_of_pos (by decide)] at joined
        have alone := lexemes_of_blank blank rest
        rw [others, lexemes_nil] at alone
        exact ⟨[], _, _, joined, rfl, Or.inr
          ⟨{ token := .blank, text := first :: rest.takeWhile isSpace }, rfl, alone⟩,
          sameBehindBlank_dropWhile more⟩
      · have same := closed.scan_space escape allBlank more
        obtain ⟨front, blank, back, joined, isBlank, before, behind⟩ := inductionHypothesis
          closed.behind fun ends => escape ends.of_behind
        refine ⟨Lexeme.first first rest :: front, blank, back, ?_, isBlank, ?_, behind⟩
        · rw [List.cons_append, lexemes_append_of_scan same closed.within, joined,
            List.cons_append]
        · rw [lexemes_cons]
          rcases before with equal | ⟨ending, isEnding, equal⟩
          · exact Or.inl (congrArg _ equal)
          · exact Or.inr ⟨ending, isEnding, congrArg _ equal⟩

/-- The text is a name that can stand alone, and a parenthesis behind it is not a part of it. -/
structure IsName (text : List Char) (name : String) : Prop where
  begins : beginsIdentifier text = true
  read : readName (text ++ ['(']) = (name, text.length)

def opensName (character : Char) : Bool :=
  isNameStart character || character == '\\'

theorem not_mem_of_opensName {character : Char} (opens : opensName character = true)
    (others : List Char) (none : others.any opensName = false) : character ∉ others := by
  intro inside
  have found := List.any_eq_true.mpr ⟨character, inside, opens⟩
  rw [none] at found
  cases found

theorem not_isSpace_of_opensName {character : Char} (opens : opensName character = true) :
    ¬ isSpace character = true := by
  intro space
  refine not_mem_of_opensName opens [' ', '\t', '\n', '\r', '\x0c'] (by decide) ?_
  simpa [isSpace, isNewline, or_assoc] using space

theorem not_isDigit_of_opensName {character : Char} (opens : opensName character = true) :
    ¬ isDigit character = true := by
  intro digit
  simp only [isDigit, Bool.and_eq_true, decide_eq_true_eq] at digit
  have low : 48 ≤ character.toNat := digit.1
  have high : character.toNat ≤ 57 := digit.2
  simp only [opensName, isNameStart, isLetter, Bool.or_eq_true, Bool.and_eq_true,
    decide_eq_true_eq, beq_iff_eq] at opens
  rcases opens with ((((small | capital) | same) | same) | far) | same
  · have least : 97 ≤ character.toNat := small.1
    omega
  · have least : 65 ≤ character.toNat := capital.1
    omega
  · rw [same] at high
    exact absurd high (by decide)
  · rw [same] at low
    exact absurd low (by decide)
  · omega
  · rw [same] at high
    exact absurd high (by decide)

theorem beginsIdentifier_cons {first : Char} (notHyphen : first ≠ '-') {rest : List Char}
    (begins : beginsIdentifier (first :: rest) = true) : opensName first = true := by
  by_cases escape : first = '\\'
  · rw [escape]
    rfl
  · have starts : isNameStart first = true := by
      simpa [beginsIdentifier, notHyphen, escape] using begins
    rw [opensName, starts, Bool.true_or]

theorem not_beginsUnsigned {first : Char} (point : first ≠ '.')
    (digit : ¬ isDigit first = true) (rest : List Char) :
    ¬ beginsUnsigned (first :: rest) = true := by
  simpa [beginsUnsigned, beginsDigit, point] using digit

theorem not_beginsNumber {text : List Char} (begins : beginsIdentifier text = true) :
    ¬ beginsNumber text = true := by
  match text with
  | [] => cases begins
  | first :: rest =>
      by_cases hyphen : first = '-'
      · subst hyphen
        match rest with
        | [] => cases begins
        | second :: more =>
            have follows : (opensName second || second == '-') = true := by
              simpa [beginsIdentifier, opensName, Bool.or_right_comm] using begins
            rcases Bool.or_eq_true_iff.mp follows with opens | again
            · have point := not_mem_of_opensName opens ['.'] (by decide)
              rw [List.mem_singleton] at point
              exact not_beginsUnsigned point (not_isDigit_of_opensName opens) more
            · rw [beq_iff_eq] at again
              subst again
              exact @not_beginsUnsigned '-' (by decide) (by decide) more
      · have opens := beginsIdentifier_cons hyphen begins
        have plain := not_mem_of_opensName opens ['+', '.'] (by decide)
        simp only [List.mem_cons, List.not_mem_nil, or_false, not_or] at plain
        have unsigned := not_beginsUnsigned plain.2 (not_isDigit_of_opensName opens) rest
        simpa [beginsNumber, hyphen, plain.1] using unsigned

theorem IsName.readName_append {text : List Char} {name : String} (isName : IsName text name)
    (more : List Char) : readName (text ++ '(' :: more) = (name, text.length) := by
  have closed : (nameFrom (text ++ ['(']) [] 0).2 ≤ 0 + text.length := by
    have read := congrArg Prod.snd isName.read
    unfold readName at read
    rw [read, Nat.zero_add]
  have alone := nameFrom_tail (Or.inl rfl) closed (.opening []) (by simp)
  have joined := nameFrom_tail (Or.inl rfl) closed (.opening more) (by simp)
  unfold readName
  rw [joined, ← alone]
  exact isName.read

theorem IsName.named_append {text : List Char} {name : String} (isName : IsName text name)
    (notUrl : sameIgnoringCase name "url" = false) (more : List Char) :
    Token.named (text ++ '(' :: more) = (.function name, text.length + 1) := by
  have read := isName.readName_append more
  have behind : (text ++ '(' :: more).drop (readName (text ++ '(' :: more)).2 = '(' :: more := by
    rw [read, List.drop_left]
  rw [named_function behind ?_, read]
  intro isUrl
  rw [read, notUrl] at isUrl
  cases isUrl

theorem IsName.noArrow {rest : List Char} {name : String} (isName : IsName ('-' :: rest) name) :
    ¬ ['-', '>'] <+: rest := by
  rintro ⟨more, rfl⟩
  have read := congrArg Prod.snd isName.read
  have stops : (readName ('-' :: (['-', '>'] ++ more) ++ ['('])).2 = 2 := by
    unfold readName
    rw [List.cons_append, List.append_assoc, List.cons_append, List.cons_append,
      nameFrom_inside (by decide) (by decide) (by decide),
      nameFrom_inside (by decide) (by decide) (by decide),
      nameFrom_outside (by decide) (by decide) (by decide)]
  rw [stops] at read
  simp at read

theorem IsName.scan_function {first : Char} {rest : List Char} {name : String}
    (isName : IsName (first :: rest) name) (notUrl : sameIgnoringCase name "url" = false)
    (more : List Char) :
    Token.scan first (rest ++ '(' :: more) = (.function name, rest.length + 2) := by
  have isTail : Tail ('(' :: more) := .opening more
  have begins := (beginsIdentifier_tail isTail (first :: rest)).trans isName.begins
  have named := isName.named_append notUrl more
  rw [List.cons_append] at begins named
  have number : ¬ beginsNumber (first :: (rest ++ '(' :: more)) = true := not_beginsNumber begins
  by_cases hyphen : first = '-'
  · subst hyphen
    have arrow : ¬ ['-', '>'] <+: rest ++ '(' :: more := fun begins =>
      isName.noArrow (prefix_of_tail isTail (by simp) (by simp) (by simp) begins)
    rw [Token.scan_hyphen number arrow, if_pos begins, named]
    rfl
  · have opens := beginsIdentifier_cons hyphen begins
    have plain : first ∉ marks := not_mem_of_opensName opens marks (by decide)
    rw [scan_plain plain (not_isSpace_of_opensName opens) number, if_pos begins, named]
    rfl

theorem IsName.lexemes_function {text : List Char} {name : String} (isName : IsName text name)
    (notUrl : sameIgnoringCase name "url" = false) (more : List Char) :
    lexemes (text ++ '(' :: more) =
      { token := .function name, text := text ++ ['('] } :: lexemes more := by
  cases text with
  | nil => cases isName.begins
  | cons first rest =>
      have width : (Token.scan first (rest ++ '(' :: more)).2 - 1 = (rest ++ ['(']).length := by
        rw [isName.scan_function notUrl, List.length_append, List.length_singleton]
        rfl
      have parts : rest ++ '(' :: more = rest ++ ['('] ++ more := by
        rw [List.append_assoc, List.singleton_append]
      rw [List.cons_append, lexemes_cons]
      unfold Lexeme.first
      dsimp only
      rw [width, isName.scan_function notUrl, parts, List.drop_left, List.take_left,
        List.cons_append]

end ComponentStyles.Css
