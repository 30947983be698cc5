import ComponentStyles.Css.Lexeme
import ComponentStyles.Proofs.Css.Literal

/-!
Where a lexeme ends.

The main statement: a lexeme that leaves a closing parenthesis behind the text unread is read the
same whatever tail stands there.
-/

namespace ComponentStyles.Css

open ComponentStyles.Text

theorem scan_blank {first : Char} (blank : isSpace first = true) (rest : List Char) :
    Token.scan first rest = (.blank, 1 + (rest.takeWhile isSpace).length) := by
  unfold Token.scan
  dsimp only
  rw [if_pos blank, List.takeWhile_cons_of_pos blank, List.length_cons, Nat.add_comm]

theorem scan_number {first : Char} {rest : List Char} (notBlank : ¬ isSpace first = true)
    (number : beginsNumber (first :: rest) = true) :
    Token.scan first rest = readNumber (first :: rest) := by
  unfold Token.scan
  dsimp only
  rw [if_neg notBlank, if_pos number]

theorem scan_quote {quote : Char} (isQuote : quote = '"' ∨ quote = '\'') (rest : List Char) :
    Token.scan quote rest =
      ((quotedFrom quote rest [] 0).1, 1 + (quotedFrom quote rest [] 0).2) := by
  rcases isQuote with rfl | rfl <;> rfl

theorem scan_at (rest : List Char) :
    Token.scan '@' rest =
      if beginsIdentifier rest then (.atKeyword (readName rest).1, 1 + (readName rest).2)
      else (.delimiter '@', 1) := rfl

theorem scan_sign {sign : Char} (isSign : sign ∈ ['$', '*', '^', '|', '~']) (rest : List Char) :
    Token.scan sign rest = Token.comparisonOr sign rest := by
  simp only [List.mem_cons, List.not_mem_nil, or_false] at isSign
  rcases isSign with rfl | rfl | rfl | rfl | rfl <;> rfl

theorem scan_single {first : Char}
    (single : first ∈ ['(', ')', '[', ']', '\x7b', '\x7d', ',', ':', ';'])
    (rest other : List Char) : Token.scan first rest = Token.scan first other := by
  simp only [List.mem_cons, List.not_mem_nil, or_false] at single
  rcases single with rfl | rfl | rfl | rfl | rfl | rfl | rfl | rfl | rfl <;> rfl

def marks : List Char :=
  ['"', '\'', '#', '@', '/', '<', '-'] ++ ['$', '*', '^', '|', '~'] ++
    ['(', ')', '[', ']', '\x7b', '\x7d', ',', ':', ';']

theorem not_mem_marks {first : Char} (quote : ¬(first = '"' ∨ first = '\''))
    (others : first ∉ ['#', '@', '/', '<', '-']) (sign : first ∉ ['$', '*', '^', '|', '~'])
    (single : first ∉ ['(', ')', '[', ']', '\x7b', '\x7d', ',', ':', ';']) : first ∉ marks := by
  intro mark
  rcases List.mem_append.mp mark with mark | isSingle
  · rcases List.mem_append.mp mark with other | isSign
    · rcases List.mem_cons.mp other with double | other
      · exact quote (.inl double)
      · rcases List.mem_cons.mp other with simple | other
        · exact quote (.inr simple)
        · exact others other
    · exact sign isSign
  · exact single isSingle

theorem scan_plain {first : Char} {rest : List Char} (plain : first ∉ marks)
    (notBlank : ¬ isSpace first = true) (number : ¬ beginsNumber (first :: rest) = true) :
    Token.scan first rest =
      if beginsIdentifier (first :: rest) then Token.named (first :: rest)
      else (.delimiter first, 1) := by
  unfold Token.scan
  dsimp only
  rw [if_neg notBlank, if_neg number]
  split
  all_goals first
    | rfl
    | exact absurd (by decide) plain

theorem named_identifier {text : List Char} (call : ¬ ['('] <+: text.drop (readName text).2) :
    Token.named text = (.identifier (readName text).1, (readName text).2) := by
  unfold Token.named
  dsimp only
  split
  · rename_i rest behind
    exact absurd ⟨rest, behind.symm⟩ call
  · rfl

theorem named_call {text rest : List Char}
    (behind : text.drop (readName text).2 = '(' :: rest) :
    Token.named text =
      if sameIgnoringCase (readName text).1 "url" then
        match readUrl rest with
        | some address => (address.1, (readName text).2 + 1 + address.2)
        | none => (.function (readName text).1, (readName text).2 + 1)
      else (.function (readName text).1, (readName text).2 + 1) := by
  unfold Token.named
  dsimp only
  rw [behind]
  rfl

theorem named_function {text rest : List Char}
    (behind : text.drop (readName text).2 = '(' :: rest)
    (function : sameIgnoringCase (readName text).1 "url" = true → readUrl rest = none) :
    Token.named text = (.function (readName text).1, (readName text).2 + 1) := by
  rw [named_call behind]
  split
  · rename_i url
    rw [function url]
  · rfl

theorem named_url {text rest : List Char} {address : Token × Nat}
    (behind : text.drop (readName text).2 = '(' :: rest)
    (url : sameIgnoringCase (readName text).1 "url" = true) (read : readUrl rest = some address) :
    Token.named text = (address.1, (readName text).2 + 1 + address.2) := by
  rw [named_call behind, if_pos url, read]

theorem readName_le_named (text : List Char) : (readName text).2 ≤ (Token.named text).2 := by
  by_cases call : ['('] <+: text.drop (readName text).2
  · obtain ⟨rest, behind⟩ := call
    cases function : readUrl rest with
    | none =>
        rw [named_function behind.symm (fun _ => function)]
        exact Nat.le_succ _
    | some address =>
        by_cases url : sameIgnoringCase (readName text).1 "url" = true
        · rw [named_url behind.symm url function]
          dsimp only
          omega
        · rw [named_function behind.symm (fun isUrl => absurd isUrl url)]
          exact Nat.le_succ _
  · rw [named_identifier call]

section Scan

variable {tail : List Char} (isTail : Tail tail)
include isTail

theorem prefix_of_tail {mark text : List Char} (space : ' ' ∉ mark) (opening : '(' ∉ mark)
    (closing : ')' ∉ mark) (begins : mark <+: text ++ tail) : mark <+: text := by
  rcases List.prefix_or_prefix_of_prefix begins (List.prefix_append text tail) with inside | across
  · exact inside
  · obtain ⟨more, rfl⟩ := across
    have ofTail := (List.prefix_append_right_inj text).mp begins
    cases more with
    | nil => simp
    | cons first rest =>
        cases isTail with
        | empty => cases List.prefix_nil.mp ofTail
        | space others =>
            rw [(List.cons_prefix_cons.mp ofTail).1] at space
            simp at space
        | opening others =>
            rw [(List.cons_prefix_cons.mp ofTail).1] at opening
            simp at opening
        | closing others =>
            rw [(List.cons_prefix_cons.mp ofTail).1] at closing
            simp at closing

theorem comparisonOr_tail (sign : Char) (text : List Char) :
    Token.comparisonOr sign (text ++ tail) = Token.comparisonOr sign text := by
  cases text with
  | nil => cases isTail <;> rfl
  | cons first rest =>
      by_cases equals : first = '='
      · subst equals
        rfl
      · simp [Token.comparisonOr, equals]

theorem hashed_tail {text : List Char}
    (closed : (Token.hashed (text ++ [')'])).2 ≤ 1 + text.length)
    (apart : tail.head? = some ' ' → (Token.hashed text).2 = 1 + text.length →
      endsInEscape text = false) : Token.hashed (text ++ tail) = Token.hashed text := by
  have isClosing : Tail [')'] := .closing []
  by_cases name : beginsIdentifier text = true
  · have step : ∀ more, beginsIdentifier more = true →
        Token.hashed more = (.hash (readName more).1 true, 1 + (readName more).2) := by
      intro more begins
      unfold Token.hashed
      dsimp only
      rw [if_pos begins]
    rw [step _ ((beginsIdentifier_tail isClosing text).trans name)] at closed
    rw [step _ name] at apart
    rw [step _ ((beginsIdentifier_tail isTail text).trans name), step _ name,
      readName_tail (by dsimp only at closed; omega) isTail
        (fun space reaches => apart space (by dsimp only; omega))]
  · cases text with
    | nil => cases isTail <;> rfl
    | cons first rest =>
        have step : ∀ more, beginsIdentifier (first :: more) = beginsIdentifier (first :: rest) →
            Token.hashed (first :: more) =
              if isDigit first || first == '-' then
                (.hash (readName (first :: more)).1 false, 1 + (readName (first :: more)).2)
              else (.delimiter '#', 1) := by
          intro more same
          unfold Token.hashed
          dsimp only
          rw [if_neg (same ▸ name)]
        rw [List.cons_append,
          step (rest ++ [')']) (beginsIdentifier_tail isClosing (first :: rest))] at closed
        rw [step rest rfl] at apart
        rw [List.cons_append,
          step (rest ++ tail) (beginsIdentifier_tail isTail (first :: rest)), step rest rfl]
        split
        · rename_i digit
          rw [if_pos digit] at closed apart
          rw [← List.cons_append, readName_tail
            (by dsimp only at closed; rw [List.cons_append]; omega) isTail
            (fun space reaches => apart space (by dsimp only; omega))]
        · rfl

omit isTail in
theorem behindName_append {text more : List Char} (same : readName (text ++ more) = readName text) :
    (text ++ more).drop (readName (text ++ more)).2 = text.drop (readName text).2 ++ more := by
  rw [same, List.drop_append_of_le_length (readName_le text)]

omit isTail in
theorem noCall_append {text more : List Char} (noCall : ¬ ['('] <+: text)
    (noCallBehind : ¬ ['('] <+: more) : ¬ ['('] <+: text ++ more := by
  intro begins
  cases text with
  | nil => exact noCallBehind begins
  | cons first rest =>
      obtain ⟨same, _⟩ := List.cons_prefix_cons.mp begins
      exact noCall (List.cons_prefix_cons.mpr ⟨same, List.nil_prefix⟩)

/-- A function or an address is read the same, the address being closed within the text or a quote
standing in its place. -/
theorem named_call_tail {text rest : List Char}
    (behindName : text.drop (readName text).2 = '(' :: rest)
    (sameClosing : readName (text ++ [')']) = readName text)
    (same : readName (text ++ tail) = readName text)
    (closed : (Token.named (text ++ [')'])).2 ≤ text.length) :
    Token.named (text ++ tail) = Token.named text := by
  have behindTail := behindName_append same
  rw [behindName, List.cons_append] at behindTail
  by_cases url : sameIgnoringCase (readName text).1 "url" = true
  · have sameUrl : readUrl (rest ++ tail) = readUrl rest := by
      refine readUrl_tail ?_ isTail
      intro address read
      have behindClosing := behindName_append sameClosing
      rw [behindName, List.cons_append] at behindClosing
      have length := congrArg List.length behindName
      rw [List.length_drop, List.length_cons] at length
      rw [named_url behindClosing (sameClosing ▸ url) read, sameClosing] at closed
      dsimp only at closed
      omega
    cases read : readUrl rest with
    | none =>
        rw [named_function behindTail (fun _ => sameUrl.trans read),
          named_function behindName (fun _ => read), same]
    | some address =>
        rw [named_url behindTail (same ▸ url) (sameUrl.trans read),
          named_url behindName url read, same]
  · rw [named_function behindTail (fun isUrl => absurd (same ▸ isUrl) url),
      named_function behindName (fun isUrl => absurd isUrl url), same]

theorem named_tail (noCall : ¬ ['('] <+: tail) {text : List Char}
    (closed : (Token.named (text ++ [')'])).2 ≤ text.length)
    (apart : tail.head? = some ' ' → (Token.named text).2 = text.length →
      endsInEscape text = false) : Token.named (text ++ tail) = Token.named text := by
  have nameClosed : (readName (text ++ [')'])).2 ≤ text.length :=
    Nat.le_trans (readName_le_named _) closed
  have sameClosing : readName (text ++ [')']) = readName text :=
    readName_tail nameClosed (.closing []) (by simp)
  have same : readName (text ++ tail) = readName text := by
    refine readName_tail nameClosed isTail ?_
    intro space reaches
    refine apart space ?_
    rw [named_identifier (by rw [reaches, List.drop_length]; simp)]
    exact reaches
  by_cases call : ['('] <+: text.drop (readName text).2
  · obtain ⟨rest, behindName⟩ := call
    exact named_call_tail isTail behindName.symm sameClosing same closed
  · have stillNoCall : ¬ ['('] <+: (text ++ tail).drop (readName (text ++ tail)).2 := by
      rw [behindName_append same]
      exact noCall_append call noCall
    rw [named_identifier stillNoCall, named_identifier call, same]

end Scan

section Scan

variable {first : Char} {rest tail : List Char}
  (closed : (Token.scan first (rest ++ [')'])).2 ≤ 1 + rest.length) (isTail : Tail tail)
  (apart : tail.head? = some ' ' → (Token.scan first rest).2 = 1 + rest.length →
    endsInEscape (first :: rest) = false)
include closed isTail apart

theorem scan_number_tail (notBlank : ¬ isSpace first = true)
    (isNumber : beginsNumber (first :: rest) = true) :
    Token.scan first (rest ++ tail) = Token.scan first rest := by
  have step : ∀ {tail : List Char}, Tail tail →
      Token.scan first (rest ++ tail) = readNumber (first :: rest ++ tail) := by
    intro tail isTail
    exact scan_number notBlank ((beginsNumber_tail isTail (first :: rest)).trans isNumber)
  have alone := step .empty
  rw [List.append_nil, List.append_nil] at alone
  rw [step (.closing [])] at closed
  rw [alone] at apart
  rw [step isTail, alone]
  refine readNumber_tail ?_ isTail ?_
  · rw [List.length_cons]
    omega
  · intro space reaches
    rw [List.length_cons] at reaches
    exact apart space (by omega)

theorem scan_named_tail (noCall : ¬ ['('] <+: tail)
    (step : ∀ {tail : List Char}, Tail tail → Token.scan first (rest ++ tail) =
      if beginsIdentifier (first :: rest ++ tail) then Token.named (first :: rest ++ tail)
      else (.delimiter first, 1)) :
    Token.scan first (rest ++ tail) = Token.scan first rest := by
  have alone := step .empty
  rw [List.append_nil, List.append_nil] at alone
  rw [step (.closing []), beginsIdentifier_tail (.closing [])] at closed
  rw [alone] at apart
  rw [step isTail, beginsIdentifier_tail isTail, alone]
  split
  · rename_i begins
    rw [if_pos begins] at closed apart
    refine named_tail isTail noCall ?_ ?_
    · rw [List.length_cons]
      omega
    · intro space reaches
      rw [List.length_cons] at reaches
      exact apart space (by omega)
  · rfl

theorem scan_at_tail (isAt : first = '@') :
    Token.scan first (rest ++ tail) = Token.scan first rest := by
  subst isAt
  rw [scan_at, beginsIdentifier_tail (.closing [])] at closed
  rw [scan_at] at apart
  rw [scan_at, scan_at, beginsIdentifier_tail isTail]
  split
  · rename_i begins
    rw [if_pos begins] at closed apart
    rw [readName_tail (by dsimp only at closed; omega) isTail]
    intro space reaches
    rw [← @endsInEscape_cons_of_ne '@' (by decide)]
    exact apart space (by dsimp only; omega)
  · rfl

theorem scan_hash_tail (isHash : first = '#') :
    Token.scan first (rest ++ tail) = Token.scan first rest := by
  subst isHash
  refine hashed_tail isTail closed ?_
  intro space reaches
  rw [← @endsInEscape_cons_of_ne '#' (by decide)]
  exact apart space reaches

theorem scan_hyphen_tail (noCall : ¬ ['('] <+: tail) (isHyphen : first = '-')
    (noNumber : ¬ beginsNumber (first :: rest) = true) :
    Token.scan first (rest ++ tail) = Token.scan first rest := by
  subst isHyphen
  by_cases arrow : ['-', '>'] <+: rest
  · obtain ⟨more, rfl⟩ := arrow
    rfl
  · refine scan_named_tail closed isTail apart noCall ?_
    intro tail isTail
    refine Token.scan_hyphen ?_ fun begins =>
      arrow (prefix_of_tail isTail (by simp) (by simp) (by simp) begins)
    rw [← List.cons_append, beginsNumber_tail isTail]
    exact noNumber

omit apart in
theorem scan_slash_tail (isSlash : first = '/') :
    Token.scan first (rest ++ tail) = Token.scan first rest := by
  subst isSlash
  by_cases comment : ['*'] <+: rest
  · obtain ⟨more, rfl⟩ := comment
    have step : ∀ others, Token.scan '/' (['*'] ++ others) =
        (.comment, 2 + commentWidth others 0) := fun others => rfl
    rw [List.append_assoc, step, List.length_append, List.length_singleton] at closed
    rw [List.append_assoc, step, step, commentWidth_tail (by dsimp only at closed; omega)]
  · have noComment : ¬ ['*'] <+: rest ++ tail :=
      fun begins => comment (prefix_of_tail isTail (by simp) (by simp) (by simp) begins)
    rw [Token.scan_slash noComment, Token.scan_slash comment]

omit closed apart in
theorem scan_angle_tail (isAngle : first = '<') :
    Token.scan first (rest ++ tail) = Token.scan first rest := by
  subst isAngle
  by_cases markup : ['!', '-', '-'] <+: rest
  · obtain ⟨more, rfl⟩ := markup
    rfl
  · have noMarkup : ¬ ['!', '-', '-'] <+: rest ++ tail :=
      fun begins => markup (prefix_of_tail isTail (by simp) (by simp) (by simp) begins)
    rw [Token.scan_angle noMarkup, Token.scan_angle markup]

omit apart in
theorem scan_quote_tail (isQuote : first = '"' ∨ first = '\'') :
    Token.scan first (rest ++ tail) = Token.scan first rest := by
  have other : ')' ≠ first ∧ '\\' ≠ first := by
    rcases isQuote with rfl | rfl <;> decide
  rw [scan_quote isQuote] at closed
  rw [scan_quote isQuote, scan_quote isQuote,
    quotedFrom_tail other.1 other.2 (by dsimp only at closed; omega) isTail]

/-- A lexeme other than a blank that leaves a closing parenthesis unread leaves every tail
unread, but for a space behind a hexadecimal escape, and an opening parenthesis. -/
theorem scan_tail (noCall : ¬ ['('] <+: tail) (notBlank : ¬ isSpace first = true) :
    Token.scan first (rest ++ tail) = Token.scan first rest := by
  by_cases isNumber : beginsNumber (first :: rest) = true
  · exact scan_number_tail closed isTail apart notBlank isNumber
  by_cases quote : first = '"' ∨ first = '\''
  · exact scan_quote_tail closed isTail quote
  by_cases hash : first = '#'
  · exact scan_hash_tail closed isTail apart hash
  by_cases commercial : first = '@'
  · exact scan_at_tail closed isTail apart commercial
  by_cases slash : first = '/'
  · exact scan_slash_tail closed isTail slash
  by_cases angle : first = '<'
  · exact scan_angle_tail isTail angle
  by_cases hyphen : first = '-'
  · exact scan_hyphen_tail closed isTail apart noCall hyphen isNumber
  by_cases sign : first ∈ ['$', '*', '^', '|', '~']
  · rw [scan_sign sign, scan_sign sign, comparisonOr_tail isTail]
  by_cases single : first ∈ ['(', ')', '[', ']', '\x7b', '\x7d', ',', ':', ';']
  · exact scan_single single _ _
  refine scan_named_tail closed isTail apart noCall ?_
  intro tail isTail
  refine scan_plain (not_mem_marks quote ?_ sign single) notBlank ?_
  · simp only [List.mem_cons, List.not_mem_nil, hash, commercial, slash, angle, hyphen, or_false,
      not_false_eq_true]
  · rw [← List.cons_append, beginsNumber_tail isTail]
    exact isNumber

end Scan

end ComponentStyles.Css
