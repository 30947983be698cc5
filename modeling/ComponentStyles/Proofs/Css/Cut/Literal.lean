import ComponentStyles.Proofs.Css.Cut.Name
import ComponentStyles.Proofs.Css.Literal

/-!
Quoted values, addresses and comments of a text that is cut off.

Each is read the same when what stands behind it is cut short, but for a quoted value that a newline
breaks off, if the newline is cut off, and for a `url(` in front of a quote, which is a
function's name.
-/

namespace ComponentStyles.Css

open ComponentStyles.Text

section Quoted

variable {quote : Char}

theorem quotedFrom_closed (rest read : List Char) (width : Nat) :
    quotedFrom quote (quote :: rest) read width =
      (.quoted (String.ofList read.reverse), width + 1) := by
  rw [quotedFrom, if_pos rfl]

theorem quotedFrom_broken {first : Char} (open_ : first ≠ quote) (line : isNewline first = true)
    (rest read : List Char) (width : Nat) :
    quotedFrom quote (first :: rest) read width =
      (.brokenQuoted (String.ofList read.reverse), width) := by
  rw [quotedFrom, if_neg open_, if_pos line]

theorem quotedFrom_null (other : '\x00' ≠ quote) (rest read : List Char) (width : Nat) :
    quotedFrom quote ('\x00' :: rest) read width =
      quotedFrom quote rest (replacement :: read) (width + 1) := by
  rw [quotedFrom, if_neg other, if_neg (by decide), if_neg (by decide), if_pos rfl]

theorem le_quotedFrom (escape : '\\' ≠ quote) (text read : List Char) (width : Nat) :
    width ≤ (quotedFrom quote text read width).2 := by
  induction text, read, width using quotedFrom.induct quote with
  | case1 read width => rw [quotedFrom]
  | case2 read width rest =>
      rw [quotedFrom_closed]
      exact Nat.le_succ width
  | case3 read width first rest open_ line => rw [quotedFrom_broken open_ line]
  | case4 read width rest ends _ _ =>
      rw [quotedFrom, if_neg escape, if_neg (by decide), if_pos rfl, if_pos ends]
      exact Nat.le_succ width
  | case5 read width rest _ line _ _ inductionHypothesis =>
      rw [quotedFrom_line escape line]
      omega
  | case6 read width rest notEmpty line _ _ inductionHypothesis =>
      rw [quotedFrom_escape escape (by simpa using notEmpty) line]
      omega
  | case7 read width rest open_ line notEscape inductionHypothesis =>
      rw [quotedFrom_null open_]
      omega
  | case8 read width first rest open_ line notEscape null inductionHypothesis =>
      rw [quotedFrom_plain open_ line notEscape null]
      omega

theorem oneSpaceWidth_pos {text : List Char} (line : beginsNewline text = true) :
    0 < oneSpaceWidth text := by
  cases text with
  | nil => cases line
  | cons first rest =>
      have space : isSpace first = true := by
        rw [isSpace, show isNewline first = true from line, Bool.or_true]
      rw [oneSpaceWidth_cons, if_pos space]
      split
      · exact Nat.two_pos
      · exact Nat.one_pos

theorem lt_quotedFrom_escape (escape : '\\' ≠ quote) {rest : List Char} (nonempty : rest ≠ [])
    (read : List Char) (width : Nat) :
    width + 1 < (quotedFrom quote ('\\' :: rest) read width).2 := by
  by_cases line : beginsNewline rest = true
  · have further := le_quotedFrom escape (rest.drop (oneSpaceWidth rest)) read
      (width + 1 + oneSpaceWidth rest)
    have some := oneSpaceWidth_pos line
    rw [quotedFrom_line escape line]
    omega
  · exact escape_takes (le_quotedFrom escape) nonempty
      (quotedFrom_escape escape nonempty line read width)

theorem lt_quotedFrom (escape : '\\' ≠ quote) {first : Char}
    (goesOn : first = quote ∨ isNewline first = false) (rest read : List Char) (width : Nat) :
    width < (quotedFrom quote (first :: rest) read width).2 := by
  by_cases closed : first = quote
  · subst closed
    rw [quotedFrom_closed]
    exact Nat.lt_succ_self width
  · have line : ¬ isNewline first = true := Bool.eq_false_iff.mp (goesOn.resolve_left closed)
    by_cases backslash : first = '\\'
    · subst backslash
      cases rest with
      | nil =>
          rw [quotedFrom, if_neg escape, if_neg (by decide), if_pos rfl, List.isEmpty_nil,
            if_pos rfl]
          exact Nat.lt_succ_self width
      | cons second others =>
          exact Nat.lt_of_succ_lt
            (lt_quotedFrom_escape escape (List.cons_ne_nil second others) read width)
    · by_cases null : first = '\x00'
      · subst null
        rw [quotedFrom_null closed]
        exact le_quotedFrom escape rest (replacement :: read) (width + 1)
      · rw [quotedFrom_plain closed line backslash null]
        exact le_quotedFrom escape rest (first :: read) (width + 1)

/-- A quoted value that ends with the front ends there too when the text behind the front is cut
short, if a newline that breaks the value off is not cut off. -/
theorem quotedFrom_cut (escape : '\\' ≠ quote) {front left behind read : List Char} {width : Nat}
    (takes : (quotedFrom quote (front ++ (left ++ behind)) read width).2 = width + front.length)
    (keeps : beginsNewline behind = true → left = [] → ∀ value,
      (quotedFrom quote (front ++ (left ++ behind)) read width).1 ≠ .brokenQuoted value) :
    quotedFrom quote (front ++ left) read width =
      quotedFrom quote (front ++ (left ++ behind)) read width := by
  induction front, read, width using quotedFrom.induct quote with
  | case1 read width =>
      rw [List.nil_append] at takes keeps ⊢
      rw [List.nil_append]
      cases left with
      | cons first rest =>
          rw [List.cons_append] at takes ⊢
          by_cases goesOn : first = quote ∨ isNewline first = false
          · have further := lt_quotedFrom escape goesOn (rest ++ behind) read width
            rw [takes] at further
            exact absurd further (Nat.lt_irrefl width)
          · obtain ⟨open_, line⟩ := not_or.mp goesOn
            have line : isNewline first = true := by simpa using line
            rw [quotedFrom_broken open_ line, quotedFrom_broken open_ line]
      | nil =>
          rw [List.nil_append] at takes keeps ⊢
          cases behind with
          | nil => rfl
          | cons first rest =>
              by_cases goesOn : first = quote ∨ isNewline first = false
              · have further := lt_quotedFrom escape goesOn rest read width
                rw [takes] at further
                exact absurd further (Nat.lt_irrefl width)
              · obtain ⟨open_, line⟩ := not_or.mp goesOn
                have line : isNewline first = true := by simpa using line
                have broken := keeps line rfl (String.ofList read.reverse)
                rw [quotedFrom_broken open_ line] at broken
                exact absurd rfl broken
  | case2 read width rest =>
      rw [List.cons_append, List.cons_append, quotedFrom_closed, quotedFrom_closed]
  | case3 read width first rest open_ line =>
      rw [List.cons_append, List.cons_append, quotedFrom_broken open_ line,
        quotedFrom_broken open_ line]
  | case4 read width rest ends _ _ =>
      rw [List.isEmpty_iff] at ends
      subst ends
      obtain ⟨rfl, rfl⟩ := nothing_left left behind takes fun some =>
        lt_quotedFrom_escape escape some read width
      rfl
  | case5 read width rest notEmpty line _ _ inductionHypothesis =>
      have nonempty : rest ≠ [] := by simpa using notEmpty
      have step : ∀ more, quotedFrom quote ('\\' :: (rest ++ more)) read width =
          quotedFrom quote ((rest ++ more).drop (oneSpaceWidth (rest ++ more))) read
            (width + 1 + oneSpaceWidth (rest ++ more)) := fun more =>
        quotedFrom_line escape ((beginsNewline_append nonempty more).trans line) read width
      rw [List.cons_append, step] at takes keeps
      rw [List.cons_append, List.cons_append, step, step]
      have least := le_quotedFrom escape
        ((rest ++ (left ++ behind)).drop (oneSpaceWidth (rest ++ (left ++ behind)))) read
        (width + 1 + oneSpaceWidth (rest ++ (left ++ behind)))
      rw [List.length_cons] at takes
      have within : oneSpaceWidth (rest ++ (left ++ behind)) ≤ rest.length := by omega
      have whole := (isLocal_oneSpaceWidth rest (left ++ behind) within).symm
      have part : oneSpaceWidth (rest ++ left) = oneSpaceWidth rest := by
        rw [← whole, ← List.append_assoc]
        apply isLocal_oneSpaceWidth
        rw [List.append_assoc, List.length_append]
        omega
      rw [whole] at within
      rw [whole, List.drop_append_of_le_length within] at takes keeps ⊢
      rw [part, List.drop_append_of_le_length within]
      apply inductionHypothesis _ keeps
      rw [takes, List.length_drop]
      omega
  | case6 read width rest notEmpty escapes _ _ inductionHypothesis =>
      have nonempty : rest ≠ [] := by simpa using notEmpty
      rw [List.cons_append, List.length_cons] at takes
      rw [List.cons_append] at keeps
      rw [List.cons_append, List.cons_append]
      have step := fun more (some : more ≠ [])
          (same : beginsNewline more = beginsNewline rest) =>
        quotedFrom_escape escape some (same ▸ escapes) read width
      obtain ⟨onward, length⟩ := escape_cut (le_quotedFrom escape) nonempty step takes
      rw [onward _ (.inr rfl), length] at takes
      rw [onward _ (.inr rfl)] at keeps
      rw [onward _ (.inl rfl), onward _ (.inr rfl)]
      exact inductionHypothesis takes keeps
  | case7 read width rest open_ line notEscape inductionHypothesis =>
      have step := quotedFrom_null open_
      rw [List.cons_append, step] at takes keeps
      rw [List.length_cons] at takes
      rw [List.cons_append, List.cons_append, step, step]
      exact inductionHypothesis (by omega) keeps
  | case8 read width first rest open_ line notEscape null inductionHypothesis =>
      have step := quotedFrom_plain open_ line notEscape null
      rw [List.cons_append, step] at takes keeps
      rw [List.length_cons] at takes
      rw [List.cons_append, List.cons_append, step, step]
      exact inductionHypothesis (by omega) keeps

end Quoted

theorem le_commentWidth (text : List Char) (width : Nat) : width ≤ commentWidth text width := by
  induction text, width using commentWidth.induct with
  | case1 width => exact Nat.le_refl width
  | case2 rest width => exact Nat.le_add_right width 2
  | case3 first rest width open_ inductionHypothesis =>
      rw [commentWidth_step fun isStar isSlash => by
        obtain ⟨more, shape⟩ := List.head?_eq_some_iff.mp isSlash
        exact open_ more isStar shape]
      omega

theorem commentWidth_cases (first : Char) (rest : List Char) (width : Nat) :
    commentWidth (first :: rest) width = width + 2 ∨
      commentWidth (first :: rest) width = commentWidth rest (width + 1) := by
  by_cases closes : first = '*' ∧ rest.head? = some '/'
  · left
    obtain ⟨rfl, isSlash⟩ := closes
    obtain ⟨more, rfl⟩ := List.head?_eq_some_iff.mp isSlash
    rfl
  · right
    exact commentWidth_step (fun isStar isSlash => closes ⟨isStar, isSlash⟩) width

theorem lt_commentWidth {text : List Char} (nonempty : text ≠ []) (width : Nat) :
    width < commentWidth text width := by
  cases text with
  | nil => exact absurd rfl nonempty
  | cons first rest =>
      have least := le_commentWidth rest (width + 1)
      rcases commentWidth_cases first rest width with closed | step <;> omega

theorem succ_lt_commentWidth {first : Char} {rest : List Char} (nonempty : rest ≠ [])
    (width : Nat) : width + 1 < commentWidth (first :: rest) width := by
  have further := lt_commentWidth nonempty (width + 1)
  rcases commentWidth_cases first rest width with closed | step <;> omega

theorem commentWidth_pair {first second : Char} {more : List Char}
    (open_ : ∀ tail, first = '*' → second :: more = '/' :: tail → False) (others : List Char)
    (width : Nat) :
    commentWidth (first :: second :: others) width =
      commentWidth (second :: others) (width + 1) := by
  apply commentWidth_step
  intro isStar isSlash
  exact open_ more isStar (congrArg (· :: more) (Option.some.inj isSlash))

theorem commentWidth_cut {front left behind : List Char} {width : Nat}
    (takes : commentWidth (front ++ (left ++ behind)) width = width + front.length) :
    commentWidth (front ++ left) width = width + front.length := by
  induction front, width using commentWidth.induct with
  | case1 width =>
      obtain ⟨rfl, rfl⟩ := nothing_left left behind takes fun some => lt_commentWidth some width
      rfl
  | case2 rest width => exact takes
  | case3 first rest width open_ inductionHypothesis =>
      cases rest with
      | nil =>
          obtain ⟨rfl, rfl⟩ := nothing_left left behind takes fun some =>
            succ_lt_commentWidth some width
          exact takes
      | cons second more =>
          have step := commentWidth_pair open_
          rw [List.cons_append, List.cons_append, step, List.length_cons] at takes
          rw [List.cons_append, List.cons_append, step, List.length_cons]
          exact (inductionHypothesis (takes.trans (by omega))).trans (by omega)

/-! ### Unquoted addresses -/

theorem brokenUrlWidth_of_step {first : Char} {rest : List Char} (open_ : first = ')' → False)
    (noClosing : ∀ tail, first = '\\' → rest = ')' :: tail → False)
    (noEscape : ∀ tail, first = '\\' → rest = '\\' :: tail → False) (width : Nat) :
    brokenUrlWidth (first :: rest) width = brokenUrlWidth rest (width + 1) := by
  apply brokenUrlWidth_step open_
  intro isEscape
  constructor
  · intro isClosing
    obtain ⟨more, shape⟩ := List.head?_eq_some_iff.mp isClosing
    exact noClosing more isEscape shape
  · intro again
    obtain ⟨more, shape⟩ := List.head?_eq_some_iff.mp again
    exact noEscape more isEscape shape

theorem le_brokenUrlWidth (text : List Char) (width : Nat) :
    width ≤ brokenUrlWidth text width := by
  induction text, width using brokenUrlWidth.induct with
  | case1 width => exact Nat.le_refl width
  | case2 rest width => exact Nat.le_succ width
  | case3 rest width inductionHypothesis =>
      exact Nat.le_trans (Nat.le_add_right width 2) inductionHypothesis
  | case4 rest width inductionHypothesis =>
      exact Nat.le_trans (Nat.le_add_right width 2) inductionHypothesis
  | case5 first rest width open_ noClosing noEscape inductionHypothesis =>
      rw [brokenUrlWidth_of_step open_ noClosing noEscape]
      omega

theorem brokenUrlWidth_open {first : Char} (open_ : first ≠ ')') (rest : List Char)
    (width : Nat) :
    (∃ more, brokenUrlWidth (first :: rest) width = brokenUrlWidth more (width + 2)) ∨
      brokenUrlWidth (first :: rest) width = brokenUrlWidth rest (width + 1) := by
  by_cases escapes : first = '\\' ∧ (rest.head? = some ')' ∨ rest.head? = some '\\')
  · left
    obtain ⟨rfl, either⟩ := escapes
    rcases either with isClosing | again
    · obtain ⟨more, rfl⟩ := List.head?_eq_some_iff.mp isClosing
      exact ⟨more, rfl⟩
    · obtain ⟨more, rfl⟩ := List.head?_eq_some_iff.mp again
      exact ⟨more, rfl⟩
  · right
    apply brokenUrlWidth_step open_
    intro isEscape
    exact ⟨fun isClosing => escapes ⟨isEscape, .inl isClosing⟩,
      fun again => escapes ⟨isEscape, .inr again⟩⟩

theorem lt_brokenUrlWidth {text : List Char} (nonempty : text ≠ []) (width : Nat) :
    width < brokenUrlWidth text width := by
  cases text with
  | nil => exact absurd rfl nonempty
  | cons first rest =>
      by_cases closing : first = ')'
      · subst closing
        exact Nat.lt_succ_self width
      · rcases brokenUrlWidth_open closing rest width with ⟨more, pair⟩ | single
        · have least := le_brokenUrlWidth more (width + 2)
          omega
        · have least := le_brokenUrlWidth rest (width + 1)
          omega

theorem succ_lt_brokenUrlWidth {first : Char} {rest : List Char} (open_ : first ≠ ')')
    (nonempty : rest ≠ []) (width : Nat) : width + 1 < brokenUrlWidth (first :: rest) width := by
  rcases brokenUrlWidth_open open_ rest width with ⟨more, pair⟩ | single
  · have least := le_brokenUrlWidth more (width + 2)
    omega
  · have further := lt_brokenUrlWidth nonempty (width + 1)
    omega

theorem brokenUrlWidth_cut {front left behind : List Char} {width : Nat}
    (takes : brokenUrlWidth (front ++ (left ++ behind)) width = width + front.length) :
    brokenUrlWidth (front ++ left) width = width + front.length := by
  induction front, width using brokenUrlWidth.induct with
  | case1 width =>
      obtain ⟨rfl, rfl⟩ := nothing_left left behind takes fun some => lt_brokenUrlWidth some width
      rfl
  | case2 rest width => exact takes
  | case3 rest width inductionHypothesis =>
      rw [List.length_cons, List.length_cons] at takes ⊢
      exact (inductionHypothesis (takes.trans (by omega))).trans (by omega)
  | case4 rest width inductionHypothesis =>
      rw [List.length_cons, List.length_cons] at takes ⊢
      exact (inductionHypothesis (takes.trans (by omega))).trans (by omega)
  | case5 first rest width open_ noClosing noEscape inductionHypothesis =>
      cases rest with
      | nil =>
          obtain ⟨rfl, rfl⟩ := nothing_left left behind takes fun some =>
            succ_lt_brokenUrlWidth open_ some width
          exact takes
      | cons second more =>
          have step : ∀ others, brokenUrlWidth (first :: second :: others) width =
              brokenUrlWidth (second :: others) (width + 1) := by
            intro others
            apply brokenUrlWidth_of_step open_
            · intro tail isEscape shape
              exact noClosing more isEscape (congrArg (· :: more) (List.cons.inj shape).1)
            · intro tail isEscape shape
              exact noEscape more isEscape (congrArg (· :: more) (List.cons.inj shape).1)
          rw [List.cons_append, List.cons_append, step, List.length_cons] at takes
          rw [List.cons_append, List.cons_append, step, List.length_cons]
          exact (inductionHypothesis (takes.trans (by omega))).trans (by omega)

theorem urlEnd_closed (address : String) (rest : List Char) (width : Nat) :
    urlEnd address (')' :: rest) width = (.url address, width + 1) := by
  rw [urlEnd, if_pos rfl]

theorem urlEnd_space (address : String) {first : Char} (space : isSpace first = true)
    (rest : List Char) (width : Nat) :
    urlEnd address (first :: rest) width = urlEnd address rest (width + 1) := by
  have open_ : first ≠ ')' := by
    intro same
    rw [same] at space
    exact absurd space (by decide)
  rw [urlEnd, if_neg open_, if_pos space]

theorem urlEnd_broken (address : String) {first : Char} (open_ : first ≠ ')')
    (plain : ¬ isSpace first = true) (rest : List Char) (width : Nat) :
    urlEnd address (first :: rest) width = (.brokenUrl, brokenUrlWidth rest (width + 1)) := by
  rw [urlEnd, if_neg open_, if_neg plain]

theorem lt_urlEnd (address : String) {text : List Char} (nonempty : text ≠ []) (width : Nat) :
    width < (urlEnd address text width).2 := by
  induction text generalizing width with
  | nil => exact absurd rfl nonempty
  | cons first rest inductionHypothesis =>
      by_cases closing : first = ')'
      · subst closing
        rw [urlEnd_closed]
        exact Nat.lt_succ_self width
      · by_cases space : isSpace first = true
        · rw [urlEnd_space address space]
          cases rest with
          | nil => exact Nat.lt_succ_self width
          | cons second others =>
              exact Nat.lt_of_succ_lt (inductionHypothesis (List.cons_ne_nil second others) _)
        · rw [urlEnd_broken address closing space]
          exact le_brokenUrlWidth rest (width + 1)

theorem urlEnd_cut {address : String} {front left behind : List Char} {width : Nat}
    (takes : (urlEnd address (front ++ (left ++ behind)) width).2 = width + front.length) :
    urlEnd address (front ++ left) width = urlEnd address (front ++ (left ++ behind)) width := by
  induction front generalizing width with
  | nil =>
      obtain ⟨rfl, rfl⟩ := nothing_left left behind takes fun some => lt_urlEnd address some width
      rfl
  | cons first rest inductionHypothesis =>
      rw [List.cons_append, List.length_cons] at takes
      rw [List.cons_append, List.cons_append]
      by_cases closing : first = ')'
      · subst closing
        rw [urlEnd_closed, urlEnd_closed]
      · by_cases space : isSpace first = true
        · rw [urlEnd_space address space] at takes
          rw [urlEnd_space address space, urlEnd_space address space]
          exact inductionHypothesis (takes.trans (by omega))
        · rw [urlEnd_broken address closing space] at takes
          rw [urlEnd_broken address closing space, urlEnd_broken address closing space]
          have inside : brokenUrlWidth (rest ++ (left ++ behind)) (width + 1) =
              width + 1 + rest.length := takes.trans (by omega)
          rw [brokenUrlWidth_cut inside, inside]

theorem urlFrom_closed (rest read : List Char) (width : Nat) :
    urlFrom (')' :: rest) read width = (.url (String.ofList read.reverse), width + 1) := by
  rw [urlFrom, if_pos rfl]

theorem urlFrom_space {first : Char} (space : isSpace first = true) (rest read : List Char)
    (width : Nat) :
    urlFrom (first :: rest) read width =
      urlEnd (String.ofList read.reverse) (first :: rest) width := by
  have open_ : first ≠ ')' := by
    intro same
    rw [same] at space
    exact absurd space (by decide)
  rw [urlFrom, if_neg open_, if_pos space]

theorem urlFrom_broken {first : Char} (open_ : first ≠ ')') (plain : ¬ isSpace first = true)
    (breaks : breaksUrl first = true) (rest read : List Char) (width : Nat) :
    urlFrom (first :: rest) read width = (.brokenUrl, brokenUrlWidth rest (width + 1)) := by
  rw [urlFrom, if_neg open_, if_neg plain, if_pos breaks]

theorem urlFrom_line {rest : List Char} (line : beginsNewline rest = true) (read : List Char)
    (width : Nat) :
    urlFrom ('\\' :: rest) read width = (.brokenUrl, brokenUrlWidth rest (width + 1)) := by
  rw [urlFrom, if_neg (by decide), if_neg (by decide), if_neg (by decide), if_pos rfl,
    if_pos line]

theorem urlFrom_null (rest read : List Char) (width : Nat) :
    urlFrom ('\x00' :: rest) read width = urlFrom rest (replacement :: read) (width + 1) := by
  rw [urlFrom, if_neg (by decide), if_neg (by decide), if_neg (by decide), if_neg (by decide),
    if_pos rfl]

theorem urlFrom_plain {first : Char} (open_ : first ≠ ')') (plain : ¬ isSpace first = true)
    (unbroken : ¬ breaksUrl first = true) (escape : first ≠ '\\') (null : first ≠ '\x00')
    (rest read : List Char) (width : Nat) :
    urlFrom (first :: rest) read width = urlFrom rest (first :: read) (width + 1) := by
  rw [urlFrom, if_neg open_, if_neg plain, if_neg unbroken, if_neg escape, if_neg null]

theorem le_urlFrom (text read : List Char) (width : Nat) :
    width ≤ (urlFrom text read width).2 := by
  induction text, read, width using urlFrom.induct with
  | case1 read width => rw [urlFrom]
  | case2 read width rest =>
      rw [urlFrom_closed]
      exact Nat.le_succ width
  | case3 read width first rest _ space =>
      rw [urlFrom_space space]
      exact Nat.le_of_lt (lt_urlEnd _ (List.cons_ne_nil first rest) width)
  | case4 read width first rest open_ plain breaks =>
      rw [urlFrom_broken open_ plain breaks]
      exact Nat.le_of_succ_le (le_brokenUrlWidth rest (width + 1))
  | case5 read width rest line _ _ _ =>
      rw [urlFrom_line line]
      exact Nat.le_of_succ_le (le_brokenUrlWidth rest (width + 1))
  | case6 read width rest escapes _ _ _ inductionHypothesis =>
      rw [urlFrom_escape escapes]
      omega
  | case7 read width rest _ _ _ _ inductionHypothesis =>
      rw [urlFrom_null]
      omega
  | case8 read width first rest open_ plain unbroken escape null inductionHypothesis =>
      rw [urlFrom_plain open_ plain unbroken escape null]
      omega

theorem lt_urlFrom_escape {rest : List Char} (nonempty : rest ≠ []) (read : List Char)
    (width : Nat) : width + 1 < (urlFrom ('\\' :: rest) read width).2 := by
  by_cases line : beginsNewline rest = true
  · rw [urlFrom_line line]
    exact lt_brokenUrlWidth nonempty (width + 1)
  · exact escape_takes le_urlFrom nonempty (urlFrom_escape line read width)

theorem lt_urlFrom {text : List Char} (nonempty : text ≠ []) (read : List Char) (width : Nat) :
    width < (urlFrom text read width).2 := by
  cases text with
  | nil => exact absurd rfl nonempty
  | cons first rest =>
      by_cases closing : first = ')'
      · subst closing
        rw [urlFrom_closed]
        exact Nat.lt_succ_self width
      by_cases space : isSpace first = true
      · rw [urlFrom_space space]
        exact lt_urlEnd _ (List.cons_ne_nil first rest) width
      by_cases breaks : breaksUrl first = true
      · rw [urlFrom_broken closing space breaks]
        exact le_brokenUrlWidth rest (width + 1)
      by_cases escape : first = '\\'
      · subst escape
        by_cases empty : rest = []
        · subst empty
          have alone : ¬ beginsNewline [] = true := Bool.false_ne_true
          rw [urlFrom_escape alone]
          exact le_urlFrom _ _ (width + 1)
        · exact Nat.lt_of_succ_lt (lt_urlFrom_escape empty read width)
      by_cases null : first = '\x00'
      · subst null
        rw [urlFrom_null]
        exact le_urlFrom rest (replacement :: read) (width + 1)
      · rw [urlFrom_plain closing space breaks escape null]
        exact le_urlFrom rest (first :: read) (width + 1)

theorem urlFrom_cut {front left behind read : List Char} {width : Nat}
    (takes : (urlFrom (front ++ (left ++ behind)) read width).2 = width + front.length) :
    urlFrom (front ++ left) read width = urlFrom (front ++ (left ++ behind)) read width := by
  induction front, read, width using urlFrom.induct with
  | case1 read width =>
      obtain ⟨rfl, rfl⟩ := nothing_left left behind takes fun some => lt_urlFrom some read width
      rfl
  | case2 read width rest =>
      rw [List.cons_append, List.cons_append, urlFrom_closed, urlFrom_closed]
  | case3 read width first rest _ space =>
      rw [List.cons_append, urlFrom_space space, ← List.cons_append] at takes
      rw [List.cons_append, List.cons_append, urlFrom_space space, urlFrom_space space,
        ← List.cons_append, ← List.cons_append]
      exact urlEnd_cut takes
  | case4 read width first rest open_ plain breaks =>
      have step := urlFrom_broken open_ plain breaks
      rw [List.cons_append, step, List.length_cons] at takes
      rw [List.cons_append, List.cons_append, step, step]
      have inside : brokenUrlWidth (rest ++ (left ++ behind)) (width + 1) =
          width + 1 + rest.length := takes.trans (by omega)
      rw [brokenUrlWidth_cut inside, inside]
  | case5 read width rest line _ _ _ =>
      have nonempty : rest ≠ [] := by
        intro empty
        rw [empty] at line
        cases line
      have step : ∀ more, urlFrom ('\\' :: (rest ++ more)) read width =
          (.brokenUrl, brokenUrlWidth (rest ++ more) (width + 1)) := fun more =>
        urlFrom_line ((beginsNewline_append nonempty more).trans line) read width
      rw [List.cons_append, step, List.length_cons] at takes
      rw [List.cons_append, List.cons_append, step, step]
      have inside : brokenUrlWidth (rest ++ (left ++ behind)) (width + 1) =
          width + 1 + rest.length := takes.trans (by omega)
      rw [brokenUrlWidth_cut inside, inside]
  | case6 read width rest escapes _ _ _ inductionHypothesis =>
      rw [List.cons_append, List.length_cons] at takes
      rw [List.cons_append, List.cons_append]
      cases rest with
      | nil =>
          obtain ⟨rfl, rfl⟩ := nothing_left left behind takes fun some =>
            lt_urlFrom_escape some read width
          rfl
      | cons first others =>
          obtain ⟨onward, length⟩ := escape_cut le_urlFrom (List.cons_ne_nil first others)
            (fun more _ same => urlFrom_escape (same ▸ escapes) read width) takes
          rw [onward _ (.inr rfl), length] at takes
          rw [onward _ (.inl rfl), onward _ (.inr rfl)]
          exact inductionHypothesis takes
  | case7 read width rest _ _ _ _ inductionHypothesis =>
      rw [List.cons_append, urlFrom_null, List.length_cons] at takes
      rw [List.cons_append, List.cons_append, urlFrom_null, urlFrom_null]
      exact inductionHypothesis (takes.trans (by omega))
  | case8 read width first rest open_ plain unbroken escape null inductionHypothesis =>
      have step := urlFrom_plain open_ plain unbroken escape null
      rw [List.cons_append, step, List.length_cons] at takes
      rw [List.cons_append, List.cons_append, step, step]
      exact inductionHypothesis (takes.trans (by omega))

theorem drop_takeWhile (text : List Char) :
    text.drop (text.takeWhile isSpace).length = text.dropWhile isSpace := by
  have parts := List.takeWhile_append_dropWhile (p := isSpace) (l := text)
  have behind : (text.takeWhile isSpace ++ text.dropWhile isSpace).drop
      (text.takeWhile isSpace).length = text.dropWhile isSpace := List.drop_left
  rw [parts] at behind
  exact behind

theorem readUrl_nil {text : List Char} (blank : text.dropWhile isSpace = []) :
    readUrl text = some (.url "", (text.takeWhile isSpace).length) := by
  unfold readUrl
  dsimp only
  rw [drop_takeWhile, blank]

theorem readUrl_cons {text rest : List Char} {first : Char}
    (shape : text.dropWhile isSpace = first :: rest) :
    readUrl text =
      if first = '"' ∨ first = '\'' then none
      else if first = ')' then some (.url "", (text.takeWhile isSpace).length + 1)
      else some (urlFrom (first :: rest) [] (text.takeWhile isSpace).length) := by
  unfold readUrl
  dsimp only
  rw [drop_takeWhile, shape]

theorem readUrl_none_cut {left behind : List Char} (clean : CutClean left behind)
    (function : readUrl (left ++ behind) = none) : readUrl left = none := by
  have parts : (left ++ behind).dropWhile isSpace =
      if (left.dropWhile isSpace).isEmpty then behind.dropWhile isSpace
      else left.dropWhile isSpace ++ behind := List.dropWhile_append
  cases shape : left.dropWhile isSpace with
  | nil =>
      rw [shape, List.isEmpty_nil, if_pos rfl] at parts
      cases others : behind.dropWhile isSpace with
      | nil =>
          rw [readUrl_nil (parts.trans others)] at function
          cases function
      | cons first rest =>
          obtain ⟨noDouble, noSingle⟩ := clean.noQuote first rest others
          rw [readUrl_cons (parts.trans others), if_neg (not_or.mpr ⟨noDouble, noSingle⟩)]
            at function
          split at function <;> cases function
  | cons first rest =>
      rw [shape, List.isEmpty_cons, if_neg Bool.false_ne_true, List.cons_append] at parts
      rw [readUrl_cons parts] at function
      rw [readUrl_cons shape]
      by_cases quote : first = '"' ∨ first = '\''
      · rw [if_pos quote]
      · rw [if_neg quote] at function
        split at function <;> cases function

theorem le_readUrl {text : List Char} {address : Token × Nat} (read : readUrl text = some address) :
    (text.takeWhile isSpace).length ≤ address.2 ∧
      (text.dropWhile isSpace ≠ [] → (text.takeWhile isSpace).length < address.2) := by
  cases shape : text.dropWhile isSpace with
  | nil =>
      rw [readUrl_nil shape, Option.some.injEq] at read
      rw [← read]
      exact ⟨Nat.le_refl _, fun some => absurd rfl some⟩
  | cons first rest =>
      have more : (text.takeWhile isSpace).length < address.2 := by
        rw [readUrl_cons shape] at read
        split at read
        · cases read
        · split at read
          · rw [← Option.some.inj read]
            exact Nat.lt_succ_self _
          · rw [← Option.some.inj read]
            exact lt_urlFrom (List.cons_ne_nil first rest) [] _
      exact ⟨Nat.le_of_lt more, fun _ => more⟩

/-- An address that ends with the front ends there too when the text behind is cut short. -/
theorem readUrl_some_cut {front left behind : List Char} {address : Token × Nat}
    (read : readUrl (front ++ (left ++ behind)) = some address)
    (takes : address.2 = front.length) : readUrl (front ++ left) = some address := by
  have blanks (more : List Char) : (front ++ more).takeWhile isSpace =
      if (front.takeWhile isSpace).length = front.length then front ++ more.takeWhile isSpace
      else front.takeWhile isSpace := List.takeWhile_append
  have others (more : List Char) : (front ++ more).dropWhile isSpace =
      if (front.dropWhile isSpace).isEmpty then more.dropWhile isSpace
      else front.dropWhile isSpace ++ more := List.dropWhile_append
  have length : (front.takeWhile isSpace).length + (front.dropWhile isSpace).length =
      front.length := by
    rw [← List.length_append, List.takeWhile_append_dropWhile]
  cases shape : front.dropWhile isSpace with
  | nil =>
      -- The front is blank, and anything behind it would be taken.
      rw [shape, List.length_nil, Nat.add_zero] at length
      have least := le_readUrl read
      rw [blanks, if_pos length, others, shape, List.isEmpty_nil, if_pos rfl,
        List.length_append] at least
      have further : left ++ behind ≠ [] → front.length < address.2 := by
        intro some
        by_cases blank : (left ++ behind).dropWhile isSpace = []
        · have whole := List.takeWhile_append_dropWhile (p := isSpace) (l := left ++ behind)
          rw [blank, List.append_nil] at whole
          have positive := List.length_pos_iff.mpr some
          rw [whole] at least
          omega
        · have more := least.2 blank
          omega
      obtain ⟨rfl, rfl⟩ := nothing_left left behind takes further
      exact read
  | cons first rest =>
      rw [shape, List.length_cons] at length
      have notAll : ¬(front.takeWhile isSpace).length = front.length := by omega
      have sameBlanks (more : List Char) : (front ++ more).takeWhile isSpace =
          front.takeWhile isSpace := (blanks more).trans (if_neg notAll)
      have sameOthers (more : List Char) : (front ++ more).dropWhile isSpace =
          first :: (rest ++ more) := by
        rw [others, shape, List.isEmpty_cons, if_neg Bool.false_ne_true, List.cons_append]
      rw [readUrl_cons (sameOthers _), sameBlanks] at read ⊢
      by_cases quote : first = '"' ∨ first = '\''
      · rw [if_pos quote] at read
        cases read
      · rw [if_neg quote] at read ⊢
        by_cases closing : first = ')'
        · rw [if_pos closing] at read ⊢
          exact read
        · rw [if_neg closing] at read ⊢
          rw [← Option.some.inj read] at takes ⊢
          have inside : (urlFrom (first :: rest ++ (left ++ behind)) []
              (front.takeWhile isSpace).length).2 =
                (front.takeWhile isSpace).length + (first :: rest).length := takes.trans length.symm
          exact congrArg some (urlFrom_cut inside)

end ComponentStyles.Css
