import ComponentStyles.Css.Literal
import ComponentStyles.Proofs.Css.Name

/-!
Where numbers, quoted values, addresses and comments end.

Numbers look ahead no further than a tail.  A quoted value, an address or a comment reads on over
whatever stands behind the text until it is closed, so one that leaves a closing parenthesis
unread is closed and reads the same whatever stands there.
-/

namespace ComponentStyles.Css

open ComponentStyles.Text

section Numbers

variable {tail : List Char} (isTail : Tail tail)
include isTail

theorem beginsDigit_tail (text : List Char) : beginsDigit (text ++ tail) = beginsDigit text := by
  cases text with
  | nil => cases isTail <;> rfl
  | cons first rest => rfl

theorem beginsUnsigned_tail (text : List Char) :
    beginsUnsigned (text ++ tail) = beginsUnsigned text := by
  cases text with
  | nil => cases isTail <;> rfl
  | cons first rest =>
      by_cases point : first = '.'
      · subst point
        exact beginsDigit_tail isTail rest
      · simp [beginsUnsigned, beginsDigit, point]

theorem beginsNumber_tail (text : List Char) :
    beginsNumber (text ++ tail) = beginsNumber text := by
  cases text with
  | nil => cases isTail <;> rfl
  | cons first rest =>
      by_cases plus : first = '+'
      · subst plus
        exact beginsUnsigned_tail isTail rest
      · by_cases minus : first = '-'
        · subst minus
          exact beginsUnsigned_tail isTail rest
        · have unsigned := beginsUnsigned_tail isTail (first :: rest)
          simpa [beginsNumber, plus, minus] using unsigned

theorem digitsWidth_tail (text : List Char) : digitsWidth (text ++ tail) = digitsWidth text := by
  unfold digitsWidth
  rw [takeWhile_tail isTail (by decide) (by decide) (by decide)]

theorem signWidth_tail (text : List Char) : signWidth (text ++ tail) = signWidth text := by
  cases text with
  | nil => cases isTail <;> rfl
  | cons first rest =>
      by_cases plus : first = '+'
      · subst plus
        rfl
      · by_cases minus : first = '-'
        · subst minus
          rfl
        · simp [signWidth, plus, minus]

theorem fractionWidth_tail (text : List Char) :
    fractionWidth (text ++ tail) = fractionWidth text := by
  cases text with
  | nil => cases isTail <;> rfl
  | cons first rest =>
      by_cases point : first = '.'
      · subst point
        simp only [List.cons_append, fractionWidth, beginsDigit_tail isTail,
          digitsWidth_tail isTail]
      · simp [fractionWidth, point]

omit isTail in
theorem signWidth_le (text : List Char) : signWidth text ≤ text.length := by
  unfold signWidth
  split <;> simp

omit isTail in
theorem digitsWidth_le (text : List Char) : digitsWidth text ≤ text.length :=
  (List.takeWhile_sublist _).length_le

theorem exponentWidth_tail (text : List Char) :
    exponentWidth (text ++ tail) = exponentWidth text := by
  cases text with
  | nil => cases isTail <;> rfl
  | cons first rest =>
      simp only [List.cons_append, exponentWidth, signWidth_tail isTail,
        List.drop_append_of_le_length (signWidth_le rest), beginsDigit_tail isTail,
        digitsWidth_tail isTail]

omit isTail in
theorem fractionWidth_le (text : List Char) : fractionWidth text ≤ text.length := by
  unfold fractionWidth
  split
  · rename_i rest
    split
    · have digits := digitsWidth_le rest
      rw [List.length_cons]
      omega
    · exact Nat.zero_le _
  · exact Nat.zero_le _

omit isTail in
theorem exponentWidth_le (text : List Char) : exponentWidth text ≤ text.length := by
  unfold exponentWidth
  split
  · rename_i letter rest
    split
    · have sign := signWidth_le rest
      have digits := digitsWidth_le (rest.drop (signWidth rest))
      rw [List.length_drop] at digits
      rw [List.length_cons]
      omega
    · exact Nat.zero_le _
  · exact Nat.zero_le _

theorem numberWidth_tail (text : List Char) : numberWidth (text ++ tail) = numberWidth text := by
  have sign := signWidth_le text
  have digits := digitsWidth_le (text.drop (signWidth text))
  rw [List.length_drop] at digits
  have whole : signWidth text + digitsWidth (text.drop (signWidth text)) ≤ text.length := by omega
  have fraction := fractionWidth_le
    (text.drop (signWidth text + digitsWidth (text.drop (signWidth text))))
  rw [List.length_drop] at fraction
  simp only [numberWidth, signWidth_tail isTail, List.drop_append_of_le_length sign,
    digitsWidth_tail isTail, List.drop_append_of_le_length whole, fractionWidth_tail isTail]
  rw [List.drop_append_of_le_length (by omega), exponentWidth_tail isTail]

omit isTail in
theorem numberWidth_le (text : List Char) : numberWidth text ≤ text.length := by
  have sign := signWidth_le text
  have digits := digitsWidth_le (text.drop (signWidth text))
  have fraction := fractionWidth_le
    (text.drop (signWidth text + digitsWidth (text.drop (signWidth text))))
  have exponent := exponentWidth_le
    (text.drop (signWidth text + digitsWidth (text.drop (signWidth text)) + fractionWidth
      (text.drop (signWidth text + digitsWidth (text.drop (signWidth text))))))
  rw [List.length_drop] at digits fraction exponent
  simp only [numberWidth]
  omega

end Numbers

/-- What a reader that takes a closing parenthesis at its end does with an escape in the text: if
it leaves a closing parenthesis behind the text unread, it goes on behind the escape whatever
tail stands there. -/
theorem escape_inside {α : Type} {reader : List Char → List Char → Nat → α × Nat}
    {rest read : List Char} {width : Nat} (nonempty : rest ≠ [])
    (takes : ∀ read width, (reader [')'] read width).2 = width + 1)
    (step : ∀ more, more ≠ [] → beginsNewline more = beginsNewline rest →
      reader ('\\' :: more) read width =
        reader (more.drop (escaped more).2) ((escaped more).1 :: read)
          (width + 1 + (escaped more).2))
    (closed : (reader ('\\' :: (rest ++ [')'])) read width).2 ≤ width + (rest.length + 1)) :
    (reader (rest.drop (escaped rest).2 ++ [')']) ((escaped rest).1 :: read)
        (width + 1 + (escaped rest).2)).2 ≤
          width + 1 + (escaped rest).2 + (rest.drop (escaped rest).2).length ∧
      ∀ {tail : List Char}, Tail tail →
        reader ('\\' :: (rest ++ tail)) read width =
          reader (rest.drop (escaped rest).2 ++ tail) ((escaped rest).1 :: read)
            (width + 1 + (escaped rest).2) := by
  have within := escaped_le rest
  have behind : ∀ {tail : List Char}, Tail tail → escaped (rest ++ tail) = escaped rest →
      reader ('\\' :: (rest ++ tail)) read width =
        reader (rest.drop (escaped rest).2 ++ tail) ((escaped rest).1 :: read)
          (width + 1 + (escaped rest).2) := by
    intro tail isTail same
    rw [step _ (by simp [nonempty]) (beginsNewline_tail isTail rest), same,
      List.drop_append_of_le_length within]
  have same := escaped_tail_of_ne (.closing []) nonempty (by decide)
  rw [behind (.closing []) same] at closed
  have inside : rest.drop (escaped rest).2 ≠ [] := by
    intro ends
    have whole := List.drop_eq_nil_iff.mp ends
    rw [ends, List.nil_append, takes] at closed
    omega
  refine ⟨?_, fun isTail => behind isTail (escaped_tail_of_inside isTail inside)⟩
  rw [List.length_drop]
  omega

section Quoted

variable {quote : Char}

theorem quotedFrom_plain {first : Char} (open_ : first ≠ quote) (line : ¬ isNewline first = true)
    (escape : first ≠ '\\') (null : first ≠ '\x00') (rest read : List Char) (width : Nat) :
    quotedFrom quote (first :: rest) read width =
      quotedFrom quote rest (first :: read) (width + 1) := by
  rw [quotedFrom, if_neg open_, if_neg line, if_neg escape, if_neg null]

theorem quotedFrom_line (other : '\\' ≠ quote) {rest : List Char}
    (line : beginsNewline rest = true) (read : List Char) (width : Nat) :
    quotedFrom quote ('\\' :: rest) read width =
      quotedFrom quote (rest.drop (oneSpaceWidth rest)) read
        (width + 1 + oneSpaceWidth rest) := by
  cases rest with
  | nil => cases line
  | cons first more =>
      rw [quotedFrom, if_neg other, if_neg (by decide), if_pos rfl, if_neg (by simp),
        if_pos line]

theorem quotedFrom_escape (other : '\\' ≠ quote) {rest : List Char} (nonempty : rest ≠ [])
    (line : ¬ beginsNewline rest = true) (read : List Char) (width : Nat) :
    quotedFrom quote ('\\' :: rest) read width =
      quotedFrom quote (rest.drop (escaped rest).2) ((escaped rest).1 :: read)
        (width + 1 + (escaped rest).2) := by
  rw [quotedFrom, if_neg other, if_neg (by decide), if_pos rfl, if_neg (by simpa using nonempty),
    if_neg line]

theorem quotedFrom_open (other : ')' ≠ quote) (read : List Char) (width : Nat) :
    (quotedFrom quote [')'] read width).2 = width + 1 := by
  rw [quotedFrom_plain other (by decide) (by decide) (by decide), quotedFrom]

/-- A quoted value that leaves a closing parenthesis unread is closed, or broken off, within the
text. -/
theorem quotedFrom_tail (other : ')' ≠ quote) (escape : '\\' ≠ quote) {text read : List Char}
    {width : Nat} (closed : (quotedFrom quote (text ++ [')']) read width).2 ≤ width + text.length)
    {tail : List Char} (isTail : Tail tail) :
    quotedFrom quote (text ++ tail) read width = quotedFrom quote text read width := by
  have isClosing : Tail [')'] := .closing []
  induction text, read, width using quotedFrom.induct quote with
  | case1 read width =>
      rw [List.nil_append, quotedFrom_open other] at closed
      exact absurd closed (Nat.not_succ_le_self _)
  | case2 read width rest =>
      rw [List.cons_append, quotedFrom, if_pos rfl, quotedFrom, if_pos rfl]
  | case3 read width first rest notQuote line =>
      rw [List.cons_append, quotedFrom, if_neg notQuote, if_pos line, quotedFrom,
        if_neg notQuote, if_pos line]
  | case4 read width rest ends _ _ =>
      -- A backslash at the end takes the closing parenthesis.
      rw [List.isEmpty_iff] at ends
      subst ends
      have taken : escaped [')'] = (')', 1) := rfl
      have reads : (quotedFrom quote ['\\', ')'] read width).2 = width + 1 + 1 := by
        rw [quotedFrom_escape escape (by simp) (by decide), taken, List.drop_one,
          List.tail_cons, quotedFrom]
      rw [List.cons_append, List.nil_append, reads] at closed
      exact absurd closed (Nat.not_succ_le_self _)
  | case5 read width rest notEmpty newline _ _ inductionHypothesis =>
      have nonempty : rest ≠ [] := by simpa using notEmpty
      have within := oneSpaceWidth_le rest
      have step : ∀ {tail : List Char}, Tail tail →
          quotedFrom quote ('\\' :: (rest ++ tail)) read width =
            quotedFrom quote (rest.drop (oneSpaceWidth rest) ++ tail) read
              (width + 1 + oneSpaceWidth rest) := by
        intro tail isTail
        rw [quotedFrom_line escape ((beginsNewline_tail isTail rest).trans newline),
          oneSpaceWidth_tail isTail nonempty, List.drop_append_of_le_length within]
      rw [List.cons_append, step isClosing, List.length_cons] at closed
      rw [List.cons_append, step isTail, quotedFrom_line escape newline]
      refine inductionHypothesis ?_
      rw [List.length_drop]
      omega
  | case6 read width rest notEmpty escapes _ _ inductionHypothesis =>
      have nonempty : rest ≠ [] := by simpa using notEmpty
      rw [List.cons_append, List.length_cons] at closed
      obtain ⟨stillClosed, step⟩ := escape_inside nonempty (quotedFrom_open other)
        (fun more notEmpty same => quotedFrom_escape escape notEmpty (same ▸ escapes) _ _) closed
      have alone := step .empty
      rw [List.append_nil, List.append_nil] at alone
      rw [List.cons_append, step isTail, alone]
      exact inductionHypothesis stillClosed
  | case7 read width rest notQuote line notEscape inductionHypothesis =>
      have step : ∀ more, quotedFrom quote ('\x00' :: more) read width =
          quotedFrom quote more (replacement :: read) (width + 1) := by
        intro more
        rw [quotedFrom, if_neg notQuote, if_neg line, if_neg notEscape, if_pos rfl]
      rw [List.cons_append, step, List.length_cons] at closed
      rw [List.cons_append, step, step]
      exact inductionHypothesis (by omega)
  | case8 read width first rest notQuote line notEscape null inductionHypothesis =>
      have step := quotedFrom_plain notQuote line notEscape null
      rw [List.cons_append, step, List.length_cons] at closed
      rw [List.cons_append, step, step]
      exact inductionHypothesis (by omega)

end Quoted

theorem commentWidth_step {first : Char} {rest : List Char}
    (open_ : first = '*' → rest.head? ≠ some '/') (width : Nat) :
    commentWidth (first :: rest) width = commentWidth rest (width + 1) := by
  rw [commentWidth]
  rintro tail isStar rfl
  exact open_ isStar rfl

theorem commentWidth_tail {text : List Char} {width : Nat}
    (closed : commentWidth (text ++ [')']) width ≤ width + text.length) (tail : List Char) :
    commentWidth (text ++ tail) width = commentWidth text width := by
  induction text, width using commentWidth.induct with
  | case1 width => exact absurd closed (Nat.not_succ_le_self width)
  | case2 rest width => rfl
  | case3 first rest width open_ inductionHypothesis =>
      cases rest with
      | nil =>
          rw [List.cons_append, List.nil_append, commentWidth_step (by simp)] at closed
          exact absurd closed (Nat.not_succ_le_self _)
      | cons second more =>
          have stillOpen : first = '*' → second ≠ '/' := by
            intro isStar isSlash
            exact open_ more isStar (by rw [isSlash])
          have step : ∀ others, commentWidth (first :: second :: others) width =
              commentWidth (second :: others) (width + 1) := by
            intro others
            refine commentWidth_step ?_ width
            intro isStar isSlash
            exact stillOpen isStar (Option.some.inj isSlash)
          rw [List.cons_append, List.cons_append, step, List.length_cons] at closed
          rw [List.cons_append, List.cons_append, step, step]
          exact inductionHypothesis (by rw [List.cons_append]; omega)

/-! ### Unquoted addresses -/

theorem brokenUrlWidth_step {first : Char} {rest : List Char} (open_ : first ≠ ')')
    (escape : first = '\\' → rest.head? ≠ some ')' ∧ rest.head? ≠ some '\\') (width : Nat) :
    brokenUrlWidth (first :: rest) width = brokenUrlWidth rest (width + 1) := by
  rw [brokenUrlWidth]
  · exact open_
  · rintro more isEscape rfl
    exact (escape isEscape).1 rfl
  · rintro more isEscape rfl
    exact (escape isEscape).2 rfl

theorem brokenUrlWidth_tail {text : List Char} {width : Nat}
    (closed : brokenUrlWidth (text ++ [')']) width ≤ width + text.length) (tail : List Char) :
    brokenUrlWidth (text ++ tail) width = brokenUrlWidth text width := by
  induction text, width using brokenUrlWidth.induct with
  | case1 width => exact absurd closed (Nat.not_succ_le_self width)
  | case2 rest width => rfl
  | case3 rest width inductionHypothesis =>
      refine inductionHypothesis (Nat.le_trans closed ?_)
      rw [List.length_cons, List.length_cons]
      omega
  | case4 rest width inductionHypothesis =>
      refine inductionHypothesis (Nat.le_trans closed ?_)
      rw [List.length_cons, List.length_cons]
      omega
  | case5 first rest width open_ noClosing noEscape inductionHypothesis =>
      cases rest with
      | nil =>
          -- Alone or escaped, the closing parenthesis would be taken.
          have taken : brokenUrlWidth [first, ')'] width = width + 1 + 1 := by
            by_cases escape : first = '\\'
            · rw [escape]
              rfl
            · rw [brokenUrlWidth_step open_ (fun isEscape => absurd isEscape escape)]
              rfl
          rw [List.cons_append, List.nil_append, taken] at closed
          exact absurd closed (Nat.not_succ_le_self _)
      | cons second more =>
          have step : ∀ others, brokenUrlWidth (first :: second :: others) width =
              brokenUrlWidth (second :: others) (width + 1) := by
            intro others
            refine brokenUrlWidth_step open_ ?_ width
            intro isEscape
            refine ⟨?_, ?_⟩
            · intro isClosing
              exact noClosing more isEscape (by rw [Option.some.inj isClosing])
            · intro again
              exact noEscape more isEscape (by rw [Option.some.inj again])
          rw [List.cons_append, List.cons_append, step, List.length_cons] at closed
          rw [List.cons_append, List.cons_append, step, step]
          exact inductionHypothesis (by rw [List.cons_append]; omega)

theorem urlEnd_tail {address : String} {text : List Char} {width : Nat}
    (closed : (urlEnd address (text ++ [')']) width).2 ≤ width + text.length)
    (tail : List Char) : urlEnd address (text ++ tail) width = urlEnd address text width := by
  induction text, width using urlEnd.induct with
  | case1 width => exact absurd closed (Nat.not_succ_le_self width)
  | case2 rest width => rfl
  | case3 first rest width notClosing space inductionHypothesis =>
      have step : ∀ more, urlEnd address (first :: more) width =
          urlEnd address more (width + 1) := by
        intro more
        rw [urlEnd, if_neg notClosing, if_pos space]
      rw [List.cons_append, step, List.length_cons] at closed
      rw [List.cons_append, step, step]
      exact inductionHypothesis (by omega)
  | case4 first rest width notClosing notSpace =>
      have step : ∀ more, urlEnd address (first :: more) width =
          (.brokenUrl, brokenUrlWidth more (width + 1)) := by
        intro more
        rw [urlEnd, if_neg notClosing, if_neg notSpace]
      rw [List.cons_append, step, List.length_cons] at closed
      have inside : brokenUrlWidth (rest ++ [')']) (width + 1) ≤ width + 1 + rest.length := by
        dsimp only at closed
        omega
      rw [List.cons_append, step, step, brokenUrlWidth_tail inside]

theorem urlFrom_escape {rest : List Char} (line : ¬ beginsNewline rest = true)
    (read : List Char) (width : Nat) :
    urlFrom ('\\' :: rest) read width =
      urlFrom (rest.drop (escaped rest).2) ((escaped rest).1 :: read)
        (width + 1 + (escaped rest).2) := by
  rw [urlFrom, if_neg (by decide), if_neg (by decide), if_neg (by decide), if_pos rfl,
    if_neg line]

theorem urlFrom_open (read : List Char) (width : Nat) :
    (urlFrom [')'] read width).2 = width + 1 := by
  rw [urlFrom, if_pos rfl]

theorem urlFrom_tail {text read : List Char} {width : Nat}
    (closed : (urlFrom (text ++ [')']) read width).2 ≤ width + text.length)
    {tail : List Char} (isTail : Tail tail) :
    urlFrom (text ++ tail) read width = urlFrom text read width := by
  have isClosing : Tail [')'] := .closing []
  induction text, read, width using urlFrom.induct with
  | case1 read width =>
      rw [List.nil_append, urlFrom_open] at closed
      exact absurd closed (Nat.not_succ_le_self _)
  | case2 read width rest =>
      rw [List.cons_append, urlFrom, if_pos rfl, urlFrom, if_pos rfl]
  | case3 read width first rest notClosing space =>
      have step : ∀ more, urlFrom (first :: more) read width =
          urlEnd (String.ofList read.reverse) (first :: more) width := by
        intro more
        rw [urlFrom, if_neg notClosing, if_pos space]
      rw [List.cons_append, step] at closed
      rw [List.cons_append, step, step]
      exact @urlEnd_tail _ (first :: rest) _ closed tail
  | case4 read width first rest notClosing notSpace breaks =>
      have step : ∀ more, urlFrom (first :: more) read width =
          (.brokenUrl, brokenUrlWidth more (width + 1)) := by
        intro more
        rw [urlFrom, if_neg notClosing, if_neg notSpace, if_pos breaks]
      rw [List.cons_append, step, List.length_cons] at closed
      rw [List.cons_append, step, step, brokenUrlWidth_tail (by dsimp only at closed; omega)]
  | case5 read width rest newline _ _ _ =>
      have step : ∀ more, beginsNewline more = true → urlFrom ('\\' :: more) read width =
          (.brokenUrl, brokenUrlWidth more (width + 1)) := by
        intro more line
        rw [urlFrom, if_neg (by decide), if_neg (by decide), if_neg (by decide), if_pos rfl,
          if_pos line]
      rw [List.cons_append, step _ ((beginsNewline_tail isClosing rest).trans newline),
        List.length_cons] at closed
      rw [List.cons_append, step _ ((beginsNewline_tail isTail rest).trans newline),
        step _ newline, brokenUrlWidth_tail (by dsimp only at closed; omega)]
  | case6 read width rest escapes _ _ _ inductionHypothesis =>
      cases rest with
      | nil =>
          -- A backslash at the end takes the closing parenthesis.
          have taken : escaped [')'] = (')', 1) := rfl
          have reads : (urlFrom ['\\', ')'] read width).2 = width + 1 + 1 := by
            rw [urlFrom_escape (by decide), taken, List.drop_one, List.tail_cons, urlFrom]
          rw [List.cons_append, List.nil_append, reads] at closed
          exact absurd closed (Nat.not_succ_le_self _)
      | cons first more =>
          rw [List.cons_append, List.length_cons] at closed
          obtain ⟨stillClosed, step⟩ := escape_inside (List.cons_ne_nil first more) urlFrom_open
            (fun more _ same => urlFrom_escape (same ▸ escapes) _ _) closed
          have alone := step .empty
          rw [List.append_nil, List.append_nil] at alone
          rw [List.cons_append, step isTail, alone]
          exact inductionHypothesis stillClosed
  | case7 read width rest notClosing notSpace notBreaking notEscape inductionHypothesis =>
      have step : ∀ more, urlFrom ('\x00' :: more) read width =
          urlFrom more (replacement :: read) (width + 1) := by
        intro more
        rw [urlFrom, if_neg notClosing, if_neg notSpace, if_neg notBreaking, if_neg notEscape,
          if_pos rfl]
      rw [List.cons_append, step, List.length_cons] at closed
      rw [List.cons_append, step, step]
      exact inductionHypothesis (by omega)
  | case8 read width first rest notClosing notSpace notBreaking notEscape null
      inductionHypothesis =>
      have step : ∀ more, urlFrom (first :: more) read width =
          urlFrom more (first :: read) (width + 1) := by
        intro more
        rw [urlFrom, if_neg notClosing, if_neg notSpace, if_neg notBreaking, if_neg notEscape,
          if_neg null]
      rw [List.cons_append, step, List.length_cons] at closed
      rw [List.cons_append, step, step]
      exact inductionHypothesis (by omega)

theorem readUrl_tail {text : List Char}
    (closed : ∀ address, readUrl (text ++ [')']) = some address → address.2 ≤ text.length)
    {tail : List Char} (isTail : Tail tail) : readUrl (text ++ tail) = readUrl text := by
  by_cases blank : (text.takeWhile isSpace).length = text.length
  · -- An address of blanks alone is closed by the parenthesis behind it.
    have taken : readUrl (text ++ [')']) = some (.url "", text.length + 1) := by
      unfold readUrl
      rw [List.takeWhile_append, if_pos blank, List.takeWhile_cons_of_neg (by decide),
        List.append_nil]
      dsimp only
      rw [List.drop_left]
      rfl
    exact absurd (closed _ taken) (Nat.not_succ_le_self _)
  · have blanks : ∀ more, (text ++ more).takeWhile isSpace = text.takeWhile isSpace := by
      intro more
      rw [List.takeWhile_append, if_neg blank]
    have within : (text.takeWhile isSpace).length ≤ text.length :=
      (List.takeWhile_sublist isSpace).length_le
    cases behind : text.drop (text.takeWhile isSpace).length with
    | nil => exact absurd (Nat.le_antisymm within (List.drop_eq_nil_iff.mp behind)) blank
    | cons first rest =>
        have length : text.length = (text.takeWhile isSpace).length + (first :: rest).length := by
          rw [← behind, List.length_drop]
          omega
        have step : ∀ more, readUrl (text ++ more) =
            if first = '"' ∨ first = '\'' then none
            else if first = ')' then some (.url "", (text.takeWhile isSpace).length + 1)
            else some (urlFrom (first :: rest ++ more) [] (text.takeWhile isSpace).length) := by
          intro more
          unfold readUrl
          rw [blanks]
          dsimp only
          rw [List.drop_append_of_le_length within, behind, List.cons_append]
        have alone := step []
        rw [List.append_nil, List.append_nil] at alone
        rw [step, alone]
        split
        · rfl
        · rename_i notQuoted
          split
          · rfl
          · rename_i notClosing
            have address := closed _ ((step [')']).trans
              ((if_neg notQuoted).trans (if_neg notClosing)))
            rw [length] at address
            rw [urlFrom_tail address isTail]

theorem backslash_not_mem_digits (text : List Char) :
    '\\' ∉ text.take (digitsWidth text) := by
  intro inside
  rw [digitsWidth, ← List.prefix_iff_eq_take.mp (List.takeWhile_prefix isDigit)] at inside
  exact absurd (List.mem_takeWhile_imp inside) (by decide)

theorem backslash_not_mem_sign (text : List Char) : '\\' ∉ text.take (signWidth text) := by
  unfold signWidth
  split <;> simp

theorem backslash_not_mem_fraction (text : List Char) :
    '\\' ∉ text.take (fractionWidth text) := by
  unfold fractionWidth
  split
  · rename_i rest
    split
    · rw [Nat.add_comm, List.take_succ_cons, List.mem_cons, not_or]
      exact ⟨by decide, backslash_not_mem_digits rest⟩
    · simp
  · simp

theorem backslash_not_mem_exponent (text : List Char) :
    '\\' ∉ text.take (exponentWidth text) := by
  unfold exponentWidth
  split
  · rename_i letter rest
    split
    · rename_i exponent
      rw [Nat.add_assoc, Nat.add_comm 1, List.take_succ_cons, List.mem_cons, List.take_add,
        List.mem_append, not_or, not_or]
      refine ⟨?_, backslash_not_mem_sign rest, backslash_not_mem_digits _⟩
      rintro rfl
      exact absurd exponent.1 (by decide)
    · simp
  · simp

theorem backslash_not_mem_number (text : List Char) :
    '\\' ∉ text.take (numberWidth text) := by
  simp only [numberWidth, List.take_add, List.mem_append, not_or]
  exact ⟨⟨⟨backslash_not_mem_sign text, backslash_not_mem_digits _⟩,
    backslash_not_mem_fraction _⟩, backslash_not_mem_exponent _⟩

theorem readNumber_of_behind {text rest : List Char}
    (behind : text.drop (numberWidth text) = rest) (percent : rest.head? ≠ some '%') :
    readNumber text =
      if beginsIdentifier rest then
        (.dimension (readName rest).1, numberWidth text + (readName rest).2)
      else (.number, numberWidth text) := by
  unfold readNumber
  dsimp only
  rw [behind]
  split
  · exact absurd rfl percent
  · rfl

theorem readNumber_percent {text rest : List Char}
    (behind : text.drop (numberWidth text) = '%' :: rest) :
    readNumber text = (.percentage, numberWidth text + 1) := by
  unfold readNumber
  dsimp only
  rw [behind]
  rfl

theorem readNumber_tail {text : List Char}
    (closed : (readNumber (text ++ [')'])).2 ≤ text.length) {tail : List Char}
    (isTail : Tail tail)
    (apart : tail.head? = some ' ' →
      (readNumber text).2 = text.length → endsInEscape text = false) :
    readNumber (text ++ tail) = readNumber text := by
  have isClosing : Tail [')'] := .closing []
  have within := numberWidth_le text
  have behind : ∀ {tail : List Char}, Tail tail →
      (text ++ tail).drop (numberWidth (text ++ tail)) =
        text.drop (numberWidth text) ++ tail := by
    intro tail isTail
    rw [numberWidth_tail isTail, List.drop_append_of_le_length within]
  by_cases percent : (text.drop (numberWidth text)).head? = some '%'
  · obtain ⟨rest, same⟩ := List.head?_eq_some_iff.mp percent
    have behindTail := behind isTail
    rw [same, List.cons_append] at behindTail
    rw [readNumber_percent behindTail, readNumber_percent same, numberWidth_tail isTail]
  · have noPercent : ∀ {tail : List Char}, Tail tail →
        (text.drop (numberWidth text) ++ tail).head? ≠ some '%' := by
      intro tail isTail
      cases unit : text.drop (numberWidth text) with
      | nil => cases isTail <;> simp
      | cons first rest =>
          rw [unit] at percent
          exact percent
    rw [readNumber_of_behind (behind isTail) (noPercent isTail), beginsIdentifier_tail isTail,
      numberWidth_tail isTail, readNumber_of_behind rfl percent]
    rw [readNumber_of_behind (behind isClosing) (noPercent isClosing),
      beginsIdentifier_tail isClosing, numberWidth_tail isClosing] at closed
    rw [readNumber_of_behind rfl percent] at apart
    split
    · rename_i unit
      rw [if_pos unit] at closed apart
      dsimp only at closed apart
      have length : (text.drop (numberWidth text)).length = text.length - numberWidth text :=
        List.length_drop
      have sameName : readName (text.drop (numberWidth text) ++ tail) =
          readName (text.drop (numberWidth text)) := by
        refine readName_tail (by omega) isTail ?_
        intro space reaches
        have noBackslash : ∀ character ∈ text.take (numberWidth text), character ≠ '\\' := by
          rintro character inside rfl
          exact backslash_not_mem_number text inside
        rw [endsInEscape_drop _ noBackslash]
        exact apart space (by omega)
      rw [sameName]
    · rfl

end ComponentStyles.Css
