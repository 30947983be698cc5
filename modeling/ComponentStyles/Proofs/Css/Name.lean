import Mathlib.Data.List.TakeWhile
import ComponentStyles.Css.Name

/-!
Where a name ends.

Nothing, a space and a parenthesis are tails: no look ahead goes on into them.  A name that leaves
a parenthesis behind the text unread has come to its end within the text, and is read the same
whatever tail stands there.  The one exception is a name that ends in a hexadecimal escape, which
takes a space as its own end.
-/

namespace ComponentStyles.Css

open ComponentStyles.Text

inductive Tail : List Char → Prop where
  | empty : Tail []
  | space (rest : List Char) : Tail (' ' :: rest)
  | opening (rest : List Char) : Tail ('(' :: rest)
  | closing (rest : List Char) : Tail (')' :: rest)

section Tails

variable {tail : List Char} (isTail : Tail tail)
include isTail

theorem takeWhile_tail {keeps : Char → Bool} (space : keeps ' ' = false)
    (opening : keeps '(' = false) (closing : keeps ')' = false) (text : List Char) :
    (text ++ tail).takeWhile keeps = text.takeWhile keeps := by
  induction text with
  | nil => cases isTail <;> simp [space, opening, closing]
  | cons first rest inductionHypothesis =>
      rw [List.cons_append, List.takeWhile_cons, List.takeWhile_cons, inductionHypothesis]

theorem beginsNewline_tail (text : List Char) :
    beginsNewline (text ++ tail) = beginsNewline text := by
  cases text with
  | nil => cases isTail <;> rfl
  | cons first rest => rfl

theorem beginsIdentifier_tail (text : List Char) :
    beginsIdentifier (text ++ tail) = beginsIdentifier text := by
  match text with
  | [] => cases isTail <;> rfl
  | [first] =>
      by_cases hyphen : first = '-'
      · subst hyphen
        cases isTail <;> rfl
      · by_cases escape : first = '\\'
        · subst escape
          cases isTail <;> rfl
        · simp [beginsIdentifier, hyphen]
  | first :: second :: rest =>
      by_cases hyphen : first = '-'
      · subst hyphen
        rfl
      · by_cases escape : first = '\\'
        · subst escape
          rfl
        · simp [beginsIdentifier, hyphen]

end Tails

def hexDigitsOnly (text : List Char) : Bool :=
  text.length ≤ 6 && text.all isHexDigit

def escapeDigits (text : List Char) : List Char :=
  (text.take 6).takeWhile isHexDigit

theorem escapeDigits_atStart (text : List Char) : escapeDigits text <+: text :=
  (List.takeWhile_prefix isHexDigit).trans (List.take_prefix 6 text)

theorem escaped_of_digit {first : Char} (digit : isHexDigit first = true) (rest : List Char) :
    escaped (first :: rest) =
      (characterOf (digitsValue 16 (escapeDigits (first :: rest))),
        (escapeDigits (first :: rest)).length +
          oneSpaceWidth ((first :: rest).drop (escapeDigits (first :: rest)).length)) :=
  if_pos digit

theorem escaped_of_other {first : Char} (other : ¬ isHexDigit first = true) (rest : List Char) :
    escaped (first :: rest) = (if first = '\x00' then replacement else first, 1) := by
  rw [escaped, if_neg other]
  split <;> rfl

theorem oneSpaceWidth_le (text : List Char) : oneSpaceWidth text ≤ text.length := by
  unfold oneSpaceWidth
  split
  · simp
  · split <;> simp
  · exact Nat.le_refl _

theorem escaped_le (text : List Char) : (escaped text).2 ≤ text.length := by
  cases text with
  | nil => exact Nat.le_refl _
  | cons first rest =>
      by_cases digit : isHexDigit first = true
      · have digits := (escapeDigits_atStart (first :: rest)).length_le
        have space := oneSpaceWidth_le
          ((first :: rest).drop (escapeDigits (first :: rest)).length)
        rw [List.length_drop] at space
        rw [escaped_of_digit digit]
        dsimp only
        omega
      · rw [escaped_of_other digit]
        simp

theorem hexDigitsOnly_of_drop {text : List Char}
    (ends : text.drop (escapeDigits text).length = []) : hexDigitsOnly text = true := by
  have whole : escapeDigits text = text :=
    (escapeDigits_atStart text).eq_of_length_le (List.drop_eq_nil_iff.mp ends)
  have short : text.length ≤ 6 := by
    have taken := (List.takeWhile_sublist (l := text.take 6) isHexDigit).length_le
    rw [← escapeDigits, whole, List.length_take] at taken
    omega
  have digits : text.all isHexDigit = true := by
    rw [← whole]
    exact List.all_takeWhile
  rw [hexDigitsOnly, digits, decide_eq_true short]
  rfl

theorem escaped_of_hexDigitsOnly {first : Char} {rest : List Char}
    (only : hexDigitsOnly (first :: rest) = true) :
    (escaped (first :: rest)).2 = (first :: rest).length := by
  obtain ⟨short, digits⟩ := Bool.and_eq_true_iff.mp only
  have whole : escapeDigits (first :: rest) = first :: rest := by
    rw [escapeDigits, List.take_of_length_le (of_decide_eq_true short)]
    exact List.takeWhile_eq_self_iff.mpr (List.all_eq_true.mp digits)
  have digit : isHexDigit first = true := List.all_eq_true.mp digits first List.mem_cons_self
  rw [escaped_of_digit digit, whole, List.drop_length]
  rfl

section Tails

variable {tail : List Char} (isTail : Tail tail)
include isTail

theorem oneSpaceWidth_tail {text : List Char} (nonempty : text ≠ []) :
    oneSpaceWidth (text ++ tail) = oneSpaceWidth text := by
  match text with
  | [] => exact absurd rfl nonempty
  | [first] =>
      by_cases feed : first = '\r'
      · subst feed
        cases isTail <;> rfl
      · simp [oneSpaceWidth, feed]
  | first :: second :: rest =>
      by_cases feed : first = '\r'
      · subst feed
        by_cases newline : second = '\n'
        · subst newline
          rfl
        · simp [oneSpaceWidth, newline]
      · simp [oneSpaceWidth, feed]

theorem escapeDigits_tail (text : List Char) :
    escapeDigits (text ++ tail) = escapeDigits text := by
  rw [escapeDigits, escapeDigits, ← List.take_takeWhile, ← List.take_takeWhile,
    takeWhile_tail isTail (by decide) (by decide) (by decide)]

theorem escaped_tail {text : List Char} (nonempty : text ≠ [])
    (apart : tail.head? = some ' ' → hexDigitsOnly text = false) :
    escaped (text ++ tail) = escaped text := by
  cases text with
  | nil => exact absurd rfl nonempty
  | cons first rest =>
      by_cases digit : isHexDigit first = true
      · have digits := escapeDigits_tail isTail (first :: rest)
        have space : oneSpaceWidth
              ((first :: rest ++ tail).drop (escapeDigits (first :: rest)).length) =
            oneSpaceWidth ((first :: rest).drop (escapeDigits (first :: rest)).length) := by
          rw [List.drop_append_of_le_length (escapeDigits_atStart _).length_le]
          by_cases ends : (first :: rest).drop (escapeDigits (first :: rest)).length = []
          · -- A space would still belong to the digits that end the text.
            have only := hexDigitsOnly_of_drop ends
            rw [ends, List.nil_append]
            cases isTail with
            | empty => rfl
            | space rest =>
                rw [apart rfl] at only
                cases only
            | opening rest => rfl
            | closing rest => rfl
          · exact oneSpaceWidth_tail isTail ends
        rw [List.cons_append] at digits space ⊢
        rw [escaped_of_digit digit, escaped_of_digit digit, digits, space]
      · rw [List.cons_append, escaped_of_other digit, escaped_of_other digit]

theorem escaped_tail_of_ne {text : List Char} (nonempty : text ≠ [])
    (noSpace : tail.head? ≠ some ' ') : escaped (text ++ tail) = escaped text :=
  escaped_tail isTail nonempty fun space => absurd space noSpace

theorem escaped_tail_of_inside {text : List Char} (inside : text.drop (escaped text).2 ≠ []) :
    escaped (text ++ tail) = escaped text := by
  cases text with
  | nil => exact absurd rfl inside
  | cons first rest =>
      refine escaped_tail isTail (List.cons_ne_nil first rest) ?_
      intro _
      by_contra only
      rw [Bool.not_eq_false] at only
      rw [escaped_of_hexDigitsOnly only, List.drop_length] at inside
      exact inside rfl

end Tails

/-- The text ends in a hexadecimal escape.  A backslash belongs together with the character
behind it, so an escaped backslash begins none. -/
def endsInEscape : List Char → Bool
  | '\\' :: first :: rest => hexDigitsOnly (first :: rest) || endsInEscape rest
  | _ :: rest => endsInEscape rest
  | [] => false

theorem endsInEscape_cons_of_ne {first : Char} (plain : first ≠ '\\') (rest : List Char) :
    endsInEscape (first :: rest) = endsInEscape rest := by
  simp [endsInEscape, plain]

theorem endsInEscape_drop {text : List Char} (count : Nat)
    (plain : ∀ character ∈ text.take count, character ≠ '\\') :
    endsInEscape (text.drop count) = endsInEscape text := by
  induction count generalizing text with
  | zero => rfl
  | succ count inductionHypothesis =>
      cases text with
      | nil => rfl
      | cons first rest =>
          rw [List.take_succ_cons] at plain
          rw [List.drop_succ_cons, endsInEscape_cons_of_ne (plain first List.mem_cons_self)]
          exact inductionHypothesis fun character inside =>
            plain character (List.mem_cons_of_mem first inside)

theorem ne_backslash_of_isHexDigit {character : Char} (digit : isHexDigit character = true) :
    character ≠ '\\' := by
  rintro rfl
  exact absurd digit (by decide)

theorem ne_backslash_of_isSpace {character : Char} (space : isSpace character = true) :
    character ≠ '\\' := by
  rintro rfl
  exact absurd space (by decide)

theorem isSpace_of_mem_take_oneSpaceWidth {text : List Char} {character : Char}
    (inside : character ∈ text.take (oneSpaceWidth text)) : isSpace character = true := by
  unfold oneSpaceWidth at inside
  split at inside
  · simp only [List.take_succ_cons, List.take_zero, List.mem_cons, List.not_mem_nil,
      or_false] at inside
    rcases inside with same | same
    all_goals
      rw [same]
      rfl
  · split at inside
    · rename_i first rest _ space
      simp only [List.take_succ_cons, List.take_zero, List.mem_singleton] at inside
      rw [inside]
      exact space
    · simp at inside
  · cases inside

theorem endsInEscape_behind {first : Char} {rest : List Char}
    (plain : endsInEscape ('\\' :: first :: rest) = false) :
    hexDigitsOnly (first :: rest) = false ∧
      endsInEscape ((first :: rest).drop (escaped (first :: rest)).2) = false := by
  rw [endsInEscape, Bool.or_eq_false_iff] at plain
  refine ⟨plain.1, ?_⟩
  by_cases digit : isHexDigit first = true
  · rw [escaped_of_digit digit]
    have dropped : ∀ character ∈ (first :: rest).take ((escapeDigits (first :: rest)).length +
        oneSpaceWidth ((first :: rest).drop (escapeDigits (first :: rest)).length)),
        character ≠ '\\' := by
      intro character inside
      rw [List.take_add, ← List.prefix_iff_eq_take.mp (escapeDigits_atStart _)] at inside
      rcases List.mem_append.mp inside with isDigit | isBlank
      · exact ne_backslash_of_isHexDigit (List.mem_takeWhile_imp isDigit)
      · exact ne_backslash_of_isSpace (isSpace_of_mem_take_oneSpaceWidth isBlank)
    rw [endsInEscape_drop _ dropped,
      endsInEscape_cons_of_ne (ne_backslash_of_isHexDigit digit)]
    exact plain.2
  · rw [escaped_of_other digit]
    exact plain.2

theorem nameFrom_le (text read : List Char) (width : Nat) :
    (nameFrom text read width).2 ≤ width + text.length := by
  induction text, read, width using nameFrom.induct with
  | case1 read width =>
      rw [nameFrom]
      exact Nat.le_refl _
  | case2 read width rest newline =>
      rw [nameFrom, if_pos rfl, if_pos newline]
      exact Nat.le_add_right _ _
  | case3 read width rest newline inductionHypothesis =>
      rw [nameFrom, if_pos rfl, if_neg newline]
      refine Nat.le_trans inductionHypothesis ?_
      have within := escaped_le rest
      rw [List.length_drop, List.length_cons]
      omega
  | case4 read width rest _ inductionHypothesis =>
      rw [nameFrom, if_neg (by decide), if_pos rfl]
      refine Nat.le_trans inductionHypothesis ?_
      rw [List.length_cons]
      omega
  | case5 read width first rest escape null inside inductionHypothesis =>
      rw [nameFrom, if_neg escape, if_neg null, if_pos inside]
      refine Nat.le_trans inductionHypothesis ?_
      rw [List.length_cons]
      omega
  | case6 read width first rest escape null outside =>
      rw [nameFrom, if_neg escape, if_neg null, if_neg outside]
      exact Nat.le_add_right _ _

theorem nameFrom_null (rest read : List Char) (width : Nat) :
    nameFrom ('\x00' :: rest) read width = nameFrom rest (replacement :: read) (width + 1) := by
  rw [nameFrom, if_neg (by decide), if_pos rfl]

theorem nameFrom_inside {first : Char} (escape : first ≠ '\\') (null : first ≠ '\x00')
    (inside : isNameCharacter first = true) (rest read : List Char) (width : Nat) :
    nameFrom (first :: rest) read width = nameFrom rest (first :: read) (width + 1) := by
  rw [nameFrom, if_neg escape, if_neg null, if_pos inside]

theorem nameFrom_outside {first : Char} (escape : first ≠ '\\') (null : first ≠ '\x00')
    (outside : ¬ isNameCharacter first = true) (rest read : List Char) (width : Nat) :
    nameFrom (first :: rest) read width = (String.ofList read.reverse, width) := by
  rw [nameFrom, if_neg escape, if_neg null, if_neg outside]

theorem nameFrom_escape {rest : List Char} (nonempty : rest ≠ [])
    (escapes : ¬ beginsNewline rest = true) {tail : List Char} (isTail : Tail tail)
    (apart : tail.head? = some ' ' → hexDigitsOnly rest = false) (read : List Char)
    (width : Nat) :
    nameFrom ('\\' :: (rest ++ tail)) read width =
      nameFrom (rest.drop (escaped rest).2 ++ tail) ((escaped rest).1 :: read)
        (width + 1 + (escaped rest).2) := by
  have sameNewline := beginsNewline_tail isTail rest
  rw [nameFrom, if_pos rfl, if_neg (sameNewline ▸ escapes),
    escaped_tail isTail nonempty apart, List.drop_append_of_le_length (escaped_le rest)]

theorem nameFrom_of_tail {tail : List Char} (isTail : Tail tail) (read : List Char)
    (width : Nat) : nameFrom tail read width = (String.ofList read.reverse, width) := by
  cases isTail with
  | empty => rw [nameFrom]
  | space rest => exact nameFrom_outside (by decide) (by decide) (by decide) rest read width
  | opening rest => exact nameFrom_outside (by decide) (by decide) (by decide) rest read width
  | closing rest => exact nameFrom_outside (by decide) (by decide) (by decide) rest read width

/-- A name that leaves a parenthesis unread leaves every tail unread, but for a space behind a
hexadecimal escape. -/
theorem nameFrom_tail {mark : Char} (isMark : mark = '(' ∨ mark = ')') {text read : List Char}
    {width : Nat} (closed : (nameFrom (text ++ [mark]) read width).2 ≤ width + text.length)
    {tail : List Char} (isTail : Tail tail)
    (apart : tail.head? = some ' ' →
      (nameFrom text read width).2 = width + text.length → endsInEscape text = false) :
    nameFrom (text ++ tail) read width = nameFrom text read width := by
  have isEnd : Tail [mark] := by
    rcases isMark with rfl | rfl
    · exact .opening []
    · exact .closing []
  have noSpace : [mark].head? ≠ some ' ' := by
    rcases isMark with rfl | rfl <;> decide
  induction text, read, width using nameFrom.induct with
  | case1 read width =>
      rw [List.nil_append, nameFrom_of_tail isTail, nameFrom_of_tail .empty]
  | case2 read width rest newline =>
      have sameNewline := beginsNewline_tail isTail rest
      rw [List.cons_append, nameFrom, if_pos rfl, if_pos (sameNewline ▸ newline), nameFrom,
        if_pos rfl, if_pos newline]
  | case3 read width rest escapes inductionHypothesis =>
      cases rest with
      | nil =>
          -- A backslash at the end takes the parenthesis.
          have far : (nameFrom ['\\', mark] read width).2 = width + 1 + 1 := by
            rcases isMark with rfl | rfl
            all_goals
              rw [nameFrom, if_pos rfl, if_neg (by decide)]
              exact congrArg Prod.snd (nameFrom_of_tail .empty _ _)
          rw [List.cons_append, List.nil_append, far] at closed
          exact absurd closed (Nat.not_succ_le_self _)
      | cons first more =>
          have nonempty : first :: more ≠ [] := List.cons_ne_nil first more
          have step := fun {tail} (isTail : Tail tail) apart =>
            nameFrom_escape nonempty escapes isTail apart read width
          have closing := step isEnd (fun space => absurd space noSpace)
          have alone := step .empty (by simp)
          rw [List.append_nil, List.append_nil] at alone
          have within := escaped_le (first :: more)
          have remaining : width + 1 + (escaped (first :: more)).2 +
                ((first :: more).drop (escaped (first :: more)).2).length =
              width + ('\\' :: first :: more).length := by
            rw [List.length_drop, @List.length_cons _ '\\' (first :: more)]
            omega
          rw [List.cons_append, closing, ← remaining] at closed
          rw [alone, ← remaining] at apart
          have notOnly : tail.head? = some ' ' → hexDigitsOnly (first :: more) = false := by
            intro space
            by_contra only
            rw [Bool.not_eq_false] at only
            have reaches := escaped_of_hexDigitsOnly only
            rw [reaches, List.drop_length] at apart
            have plain := apart space (by rw [nameFrom_of_tail .empty]; rfl)
            rw [endsInEscape, only] at plain
            cases plain
          rw [List.cons_append, step isTail notOnly, alone]
          refine inductionHypothesis closed ?_
          intro space reaches
          exact (endsInEscape_behind (apart space reaches)).2
  | case4 read width rest _ inductionHypothesis =>
      rw [List.cons_append, nameFrom_null, List.length_cons] at closed
      rw [nameFrom_null, List.length_cons] at apart
      rw [List.cons_append, nameFrom_null, nameFrom_null]
      refine inductionHypothesis (by omega) ?_
      intro space reaches
      rw [← @endsInEscape_cons_of_ne '\x00' (by decide) rest]
      exact apart space (by omega)
  | case5 read width first rest escape null inside inductionHypothesis =>
      have step := nameFrom_inside escape null inside
      rw [List.cons_append, step, List.length_cons] at closed
      rw [step, List.length_cons] at apart
      rw [List.cons_append, step, step]
      refine inductionHypothesis (by omega) ?_
      intro space reaches
      rw [← endsInEscape_cons_of_ne escape rest]
      exact apart space (by omega)
  | case6 read width first rest escape null outside =>
      have stop := nameFrom_outside escape null outside
      rw [List.cons_append, stop, stop]

theorem readName_le (text : List Char) : (readName text).2 ≤ text.length := by
  have within := nameFrom_le text [] 0
  rwa [Nat.zero_add] at within

theorem readName_tail {text : List Char} (closed : (readName (text ++ [')'])).2 ≤ text.length)
    {tail : List Char} (isTail : Tail tail)
    (apart : tail.head? = some ' ' → (readName text).2 = text.length →
      endsInEscape text = false) : readName (text ++ tail) = readName text := by
  unfold readName at closed apart ⊢
  refine nameFrom_tail (Or.inr rfl) (by omega) isTail ?_
  intro space reaches
  exact apart space (by omega)

end ComponentStyles.Css
