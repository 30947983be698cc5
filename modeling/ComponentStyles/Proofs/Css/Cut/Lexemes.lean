import ComponentStyles.Proofs.Css.Cut.Lexeme

/-!
Lexemes of a text that is cut off.

The main statement: the first lexemes of a text are read the same when the text behind them is cut
short, unless the last of them is a lone backslash or a quoted value that a newline behind it breaks
off, and the newline is cut off.
-/

namespace ComponentStyles.Css

open ComponentStyles.Text

theorem comparisonOr_pos (sign : Char) (rest : List Char) :
    0 < (Token.comparisonOr sign rest).2 := by
  unfold Token.comparisonOr
  split
  · exact Nat.two_pos
  · exact Nat.one_pos

theorem hashed_pos (rest : List Char) : 0 < (Token.hashed rest).2 := by
  by_cases begins : beginsIdentifier rest = true
  · rw [hashed_begins begins]
    exact Nat.add_pos_left Nat.one_pos _
  · rw [hashed_not_begins begins]
    split
    · exact Nat.add_pos_left Nat.one_pos _
    · exact Nat.one_pos

theorem named_or_delimiter_pos {text : List Char} {sign : Char} :
    0 < (if beginsIdentifier text then Token.named text else (.delimiter sign, 1)).2 := by
  split
  · rename_i begins
    exact Nat.lt_of_lt_of_le (readName_pos begins) (readName_le_named text)
  · exact Nat.one_pos

theorem readNumber_pos {text : List Char} (number : beginsNumber text = true) :
    0 < (readNumber text).2 := by
  have some := (beginsNumber_iff text).mp number
  have least := le_readNumber text
  rw [numberWidth_eq] at least
  omega

theorem scan_pos (first : Char) (rest : List Char) : 0 < (Token.scan first rest).2 := by
  by_cases blank : isSpace first = true
  · rw [scan_blank blank]
    exact Nat.add_pos_left Nat.one_pos _
  by_cases number : beginsNumber (first :: rest) = true
  · rw [scan_number blank number]
    exact readNumber_pos number
  unfold Token.scan
  dsimp only
  rw [if_neg blank, if_neg number]
  split
  iterate 2 exact Nat.add_pos_left Nat.one_pos _
  · exact hashed_pos rest
  iterate 5 exact comparisonOr_pos _ _
  iterate 9 exact Nat.one_pos
  · split
    · decide
    · exact named_or_delimiter_pos
  · split
    · exact Nat.add_pos_left Nat.two_pos _
    · exact Nat.one_pos
  · split <;> decide
  · split
    · exact Nat.add_pos_left Nat.one_pos _
    · exact Nat.one_pos
  · exact named_or_delimiter_pos

/-- The last of some lexemes are the lexemes of their texts. -/
theorem lexemes_suffix {text : List Char} {front rest : List Lexeme}
    (shape : lexemes text = front ++ rest) : lexemes (rest.flatMap Lexeme.text) = rest := by
  induction front generalizing text with
  | nil =>
      rw [List.nil_append] at shape
      rw [← shape, lexemes_flatMap_text]
  | cons lexeme others inductionHypothesis =>
      cases text with
      | nil =>
          rw [lexemes_nil] at shape
          cases shape
      | cons first more =>
          rw [lexemes_cons, List.cons_append] at shape
          exact inductionHypothesis (List.cons.inj shape).2

theorem flatMap_text_behind {text : List Char} {read others : List Lexeme}
    (shape : lexemes (read.flatMap Lexeme.text ++ text) = read ++ others) :
    others.flatMap Lexeme.text = text := by
  have whole := lexemes_flatMap_text (read.flatMap Lexeme.text ++ text)
  rw [shape, List.flatMap_append] at whole
  exact List.append_cancel_left whole

theorem eq_nil_of_flatMap_text {text : List Char} {read others : List Lexeme}
    (shape : lexemes text = read ++ others) (nothing : read.flatMap Lexeme.text = []) :
    read = [] := by
  cases read with
  | nil => rfl
  | cons lexeme more =>
      have among : lexeme ∈ lexemes text := by
        rw [shape]
        exact List.mem_cons_self
      rw [List.flatMap_cons, List.append_eq_nil_iff] at nothing
      exact absurd nothing.1 (text_ne_nil_of_mem_lexemes among)

theorem scan_of_lexemes {lexeme : Lexeme} {others : List Lexeme} {text : List Char}
    (shape : lexemes (lexeme.text ++ text) = lexeme :: others) (goesOn : text ≠ []) :
    ∃ first front, lexeme.text = first :: front ∧
      Token.scan first (front ++ text) = (lexeme.token, 1 + front.length) := by
  have among : lexeme ∈ lexemes (lexeme.text ++ text) := by
    rw [shape]
    exact List.mem_cons_self
  obtain ⟨first, front, isText⟩ := List.exists_cons_of_ne_nil (text_ne_nil_of_mem_lexemes among)
  rw [isText, List.cons_append, lexemes_cons] at shape
  have isFirst := (List.cons.inj shape).1
  refine ⟨first, front, isText, Prod.ext (congrArg Lexeme.token isFirst) ?_⟩
  have taken : (front ++ text).take ((Token.scan first (front ++ text)).2 - 1) = front :=
    (List.cons.inj ((congrArg Lexeme.text isFirst).trans isText)).2
  have length := congrArg List.length taken
  have positive := scan_pos first (front ++ text)
  have more := List.length_pos_iff.mpr goesOn
  rw [List.length_take, List.length_append] at length
  dsimp only
  omega

theorem lexemes_of_scan {first : Char} {front text : List Char} {token : Token}
    (scanned : Token.scan first (front ++ text) = (token, 1 + front.length)) :
    lexemes (first :: (front ++ text)) = { token, text := first :: front } :: lexemes text := by
  rw [lexemes_cons]
  unfold Lexeme.first
  dsimp only
  rw [scanned]
  dsimp only
  rw [Nat.add_sub_cancel_left, List.take_left, List.drop_left]

theorem lexemes_backslash {behind : List Char} (line : beginsNewline behind = true) :
    lexemes ('\\' :: behind) =
      { token := .delimiter '\\', text := ['\\'] } :: lexemes behind := by
  have noName : ¬ beginsIdentifier ('\\' :: behind) = true := by
    change ¬ (!beginsNewline behind) = true
    rw [line]
    exact Bool.false_ne_true
  have noNumber : ¬ beginsNumber ('\\' :: behind) = true := Bool.false_ne_true
  have single : Token.scan '\\' behind = (.delimiter '\\', 1) := by
    rw [scan_plain (by decide) (by decide) noNumber, if_neg noName]
  exact @lexemes_of_scan '\\' [] behind _ single

theorem lone_backslash {read others : List Lexeme} {behind : List Char}
    (line : beginsNewline behind = true)
    (shape : lexemes (read.flatMap Lexeme.text ++ behind) = read ++ others)
    (lone : read.flatMap Lexeme.text = ['\\']) :
    ∃ backslash, read.getLast? = some backslash ∧ backslash.token.endsWithLine = true := by
  rw [lone, List.singleton_append, lexemes_backslash line] at shape
  cases read with
  | nil => cases lone
  | cons first more =>
      obtain ⟨rfl, isRest⟩ := List.cons.inj shape
      have nothing : more.flatMap Lexeme.text = [] := (List.cons.inj lone).2
      rw [eq_nil_of_flatMap_text isRest nothing]
      exact ⟨_, rfl, rfl⟩

theorem mem_getLast?_cons {lexeme last : Lexeme} {more : List Lexeme}
    (isLast : last ∈ more.getLast?) : last ∈ (lexeme :: more).getLast? := by
  cases more with
  | nil => cases isLast
  | cons second others => exact isLast

/-- The first lexemes of a text are read the same when the text behind them is cut short. -/
theorem lexemes_cut {read others : List Lexeme} {left behind : List Char}
    (clean : CutClean left behind)
    (keeps : beginsNewline behind = true → left = [] →
      ∀ lexeme ∈ read.getLast?, lexeme.token.endsWithLine = false)
    (shape : lexemes (read.flatMap Lexeme.text ++ (left ++ behind)) = read ++ others) :
    lexemes (read.flatMap Lexeme.text ++ left) = read ++ lexemes left := by
  by_cases whole : behind = []
  · have isLeft := flatMap_text_behind shape
    have same := lexemes_suffix shape
    rw [whole, List.append_nil] at shape isLeft
    rw [isLeft] at same
    rw [shape, same]
  · induction read with
    | nil => rfl
    | cons lexeme more inductionHypothesis =>
        have isBehind := flatMap_text_behind shape
        have moreShape : lexemes (more.flatMap Lexeme.text ++ (left ++ behind)) =
            more ++ others := by
          rw [← isBehind, ← List.flatMap_append]
          exact @lexemes_suffix _ [lexeme] _ shape
        have moreKeeps : beginsNewline behind = true → left = [] →
            ∀ other ∈ more.getLast?, other.token.endsWithLine = false :=
          fun line nothing other isLast => keeps line nothing other (mem_getLast?_cons isLast)
        have same := inductionHypothesis moreKeeps moreShape
        have moreClean : CutClean (more.flatMap Lexeme.text ++ left) behind :=
          { clean with
            keepsLine := by
              intro line alone
              rcases List.append_eq_singleton_iff.mp alone with ⟨_, isLeft⟩ | ⟨lone, rfl⟩
              · exact clean.keepsLine line isLeft
              · obtain ⟨backslash, isLast, ends⟩ := lone_backslash line moreShape lone
                rw [moreKeeps line rfl backslash isLast] at ends
                cases ends }
        rw [List.flatMap_cons, List.append_assoc, ← List.append_assoc (more.flatMap _)] at shape
        obtain ⟨first, front, isText, scanned⟩ := scan_of_lexemes shape
          (List.append_ne_nil_of_right_ne_nil _ whole)
        have cut := scan_cut (congrArg Prod.snd scanned) moreClean <| by
          intro line nothing
          obtain ⟨noMore, rfl⟩ := List.append_eq_nil_iff.mp nothing
          rw [scanned]
          apply keeps line rfl
          rw [eq_nil_of_flatMap_text moreShape noMore]
          rfl
        rw [scanned] at cut
        rw [List.flatMap_cons, List.append_assoc, isText, List.cons_append, lexemes_of_scan cut,
          same, ← isText]
        rfl

end ComponentStyles.Css
