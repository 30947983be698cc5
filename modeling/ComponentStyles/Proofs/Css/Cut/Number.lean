import ComponentStyles.Proofs.Css.Cut.Name
import ComponentStyles.Proofs.Css.Literal

/-!
Numbers of a text that is cut off.

The width of a number is made of widths one behind the other, each of which is read the same when
what stands behind the number is cut off.  A number is read with its unit, which is a name.
-/

namespace ComponentStyles.Css

open ComponentStyles.Text

theorem isLocal_digitsWidth : IsLocal digitsWidth := by
  intro text behind within
  exact congrArg List.length (takeWhile_cut within)

theorem signWidth_append {text : List Char} (nonempty : text ≠ []) (behind : List Char) :
    signWidth (text ++ behind) = signWidth text := by
  cases text with
  | nil => exact absurd rfl nonempty
  | cons first rest =>
      rw [List.cons_append]
      unfold signWidth
      split <;> split <;> simp_all

theorem isLocal_signWidth : IsLocal signWidth := by
  intro text behind within
  cases text with
  | nil => exact (Nat.le_zero.mp within).symm
  | cons first rest => exact (signWidth_append (List.cons_ne_nil first rest) behind).symm

theorem beginsDigit_iff (text : List Char) : beginsDigit text = true ↔ 0 < digitsWidth text := by
  cases text with
  | nil => decide
  | cons first rest =>
      by_cases digit : isDigit first = true <;> simp [beginsDigit, digitsWidth, digit]

theorem beginsDigit_cut {text behind : List Char}
    (within : digitsWidth (text ++ behind) ≤ text.length) :
    beginsDigit text = beginsDigit (text ++ behind) := by
  rw [Bool.eq_iff_iff, beginsDigit_iff, beginsDigit_iff, isLocal_digitsWidth text behind within]

theorem digitsWidth_of_not_beginsDigit {text : List Char} (none : ¬ beginsDigit text = true) :
    digitsWidth text = 0 := by
  rw [beginsDigit_iff] at none
  omega

theorem isLocal_fractionWidth : IsLocal fractionWidth := by
  intro text behind within
  cases text with
  | nil => exact (Nat.le_zero.mp within).symm
  | cons first rest =>
      by_cases point : first = '.'
      · subst point
        have step : ∀ more, fractionWidth ('.' :: more) =
            if beginsDigit more then 1 + digitsWidth more else 0 := fun more => rfl
        rw [List.cons_append, step, List.length_cons] at within
        have digits : digitsWidth (rest ++ behind) ≤ rest.length := by
          by_cases digit : beginsDigit (rest ++ behind) = true
          · rw [if_pos digit] at within
            omega
          · rw [digitsWidth_of_not_beginsDigit digit]
            exact Nat.zero_le _
        rw [List.cons_append, step, step, beginsDigit_cut digits,
          isLocal_digitsWidth rest behind digits]
      · have step : ∀ more, fractionWidth (first :: more) = 0 := by
          intro more
          simp [fractionWidth, point]
        rw [List.cons_append, step, step]

theorem isLocal_exponentWidth : IsLocal exponentWidth := by
  intro text behind within
  cases text with
  | nil => exact (Nat.le_zero.mp within).symm
  | cons letter rest =>
      rw [List.cons_append, exponentWidth, List.length_cons] at within
      rw [List.cons_append, exponentWidth, exponentWidth]
      by_cases isLetter : letter = 'e' ∨ letter = 'E'
      · cases rest with
        | nil =>
            have alone : ¬ beginsDigit (List.drop (signWidth []) []) = true := by decide
            rw [if_neg fun both => alone both.2]
            split
            · rename_i both
              have digits := (beginsDigit_iff _).mp both.2
              rw [if_pos both, List.length_nil] at within
              omega
            · rfl
        | cons first others =>
            have sign := signWidth_append (List.cons_ne_nil first others) behind
            have inside := signWidth_le (first :: others)
            rw [sign, List.drop_append_of_le_length inside] at within ⊢
            have digits : digitsWidth
                ((first :: others).drop (signWidth (first :: others)) ++ behind) ≤
                  ((first :: others).drop (signWidth (first :: others))).length := by
              by_cases digit : beginsDigit
                  ((first :: others).drop (signWidth (first :: others)) ++ behind) = true
              · rw [if_pos ⟨isLetter, digit⟩] at within
                rw [List.length_drop]
                omega
              · rw [digitsWidth_of_not_beginsDigit digit]
                exact Nat.zero_le _
            rw [beginsDigit_cut digits, isLocal_digitsWidth _ behind digits]
      · rw [if_neg fun both => isLetter both.1, if_neg fun both => isLetter both.1]

def decimalWidth (text : List Char) : Nat :=
  let whole := signWidth text + digitsWidth (text.drop (signWidth text))
  whole + fractionWidth (text.drop whole)

theorem numberWidth_eq (text : List Char) :
    numberWidth text = decimalWidth text + exponentWidth (text.drop (decimalWidth text)) := rfl

theorem isLocal_decimalWidth : IsLocal decimalWidth :=
  (isLocal_signWidth.behind isLocal_digitsWidth).behind isLocal_fractionWidth

theorem isLocal_numberWidth : IsLocal numberWidth :=
  isLocal_decimalWidth.behind isLocal_exponentWidth

theorem beginsUnsigned_iff (text : List Char) :
    beginsUnsigned text = true ↔
      0 < digitsWidth text + fractionWidth (text.drop (digitsWidth text)) := by
  cases text with
  | nil => decide
  | cons first rest =>
      by_cases point : first = '.'
      · subst point
        have digits : digitsWidth ('.' :: rest) = 0 := rfl
        have step : fractionWidth ('.' :: rest) =
            if beginsDigit rest then 1 + digitsWidth rest else 0 := rfl
        rw [digits, List.drop_zero, step, Nat.zero_add]
        change beginsDigit rest = true ↔ _
        split
        · rename_i digit
          exact iff_of_true digit (by omega)
        · rename_i none
          exact iff_of_false none (Nat.lt_irrefl 0)
      · have unsigned : beginsUnsigned (first :: rest) = beginsDigit (first :: rest) := by
          simp [beginsUnsigned, point]
        have none : ∀ {more}, ¬ beginsDigit (first :: more) = true →
            fractionWidth (first :: more) = 0 := by
          intro more _
          simp [fractionWidth, point]
        rw [unsigned, beginsDigit_iff]
        constructor
        · intro digits
          omega
        · intro some
          by_cases digit : beginsDigit (first :: rest) = true
          · exact (beginsDigit_iff _).mp digit
          · rw [digitsWidth_of_not_beginsDigit digit, List.drop_zero, none digit] at some
            exact absurd some (Nat.lt_irrefl 0)

theorem beginsNumber_eq (text : List Char) :
    beginsNumber text = beginsUnsigned (text.drop (signWidth text)) := by
  unfold beginsNumber
  split
  · rfl
  · rfl
  · rename_i noPlus noMinus
    have none : signWidth text = 0 := by
      unfold signWidth
      split
      · exact absurd rfl (noPlus _)
      · exact absurd rfl (noMinus _)
      · rfl
    rw [none, List.drop_zero]

theorem beginsNumber_iff (text : List Char) :
    beginsNumber text = true ↔ signWidth text < decimalWidth text := by
  rw [beginsNumber_eq, beginsUnsigned_iff, List.drop_drop]
  unfold decimalWidth
  dsimp only
  omega

theorem beginsNumber_cut {text behind : List Char}
    (within : numberWidth (text ++ behind) ≤ text.length) :
    beginsNumber text = beginsNumber (text ++ behind) := by
  rw [numberWidth_eq] at within
  have decimal := isLocal_decimalWidth text behind (by omega)
  have signWithin : signWidth (text ++ behind) ≤ decimalWidth (text ++ behind) := by
    unfold decimalWidth
    dsimp only
    omega
  have sign := isLocal_signWidth text behind (by omega)
  rw [Bool.eq_iff_iff, beginsNumber_iff, beginsNumber_iff, decimal, sign]

theorem beginsDigit_append {text : List Char} (begins : beginsDigit text = true)
    (behind : List Char) : beginsDigit (text ++ behind) = true := by
  cases text with
  | nil => cases begins
  | cons first rest => exact begins

theorem beginsUnsigned_append {text : List Char} (begins : beginsUnsigned text = true)
    (behind : List Char) : beginsUnsigned (text ++ behind) = true := by
  cases text with
  | nil => cases begins
  | cons first rest =>
      by_cases point : first = '.'
      · subst point
        exact beginsDigit_append begins behind
      · have step : ∀ more, beginsUnsigned (first :: more) = isDigit first := by
          intro more
          simp [beginsUnsigned, beginsDigit, point]
        rw [List.cons_append, step, ← step rest]
        exact begins

theorem beginsNumber_append {text : List Char} (begins : beginsNumber text = true)
    (behind : List Char) : beginsNumber (text ++ behind) = true := by
  have nonempty : text ≠ [] := by
    intro empty
    rw [empty] at begins
    cases begins
  rw [beginsNumber_eq] at begins ⊢
  rw [signWidth_append nonempty, List.drop_append_of_le_length (signWidth_le text)]
  exact beginsUnsigned_append begins behind

theorem head?_append_ne {left behind : List Char} {mark : Char}
    (other : (left ++ behind).head? ≠ some mark) : left.head? ≠ some mark := by
  cases left with
  | nil => exact Option.some_ne_none mark ∘ Eq.symm
  | cons first rest => exact other

theorem le_readNumber (text : List Char) : numberWidth text ≤ (readNumber text).2 := by
  by_cases percent : (text.drop (numberWidth text)).head? = some '%'
  · obtain ⟨rest, shape⟩ := List.head?_eq_some_iff.mp percent
    rw [readNumber_percent shape]
    exact Nat.le_succ _
  · rw [readNumber_of_behind rfl percent]
    split
    · exact Nat.le_add_right _ _
    · exact Nat.le_refl _

theorem readNumber_cut {front left behind : List Char} (clean : CutClean left behind)
    (takes : (readNumber (front ++ (left ++ behind))).2 = front.length) :
    readNumber (front ++ left) = readNumber (front ++ (left ++ behind)) := by
  have within : numberWidth (front ++ (left ++ behind)) ≤ front.length :=
    takes ▸ le_readNumber _
  have same : numberWidth (front ++ left) = numberWidth (front ++ (left ++ behind)) := by
    rw [← List.append_assoc] at within ⊢
    apply isLocal_numberWidth
    rw [List.length_append]
    omega
  generalize isWidth : numberWidth (front ++ (left ++ behind)) = width at same within
  have behindPart : (front ++ left).drop (numberWidth (front ++ left)) =
      front.drop width ++ left := by
    rw [same, List.drop_append_of_le_length within]
  have behindWhole : (front ++ (left ++ behind)).drop (numberWidth (front ++ (left ++ behind))) =
      front.drop width ++ (left ++ behind) := by
    rw [isWidth, List.drop_append_of_le_length within]
  have length : (front.drop width).length = front.length - width := List.length_drop
  by_cases percent : (front.drop width ++ (left ++ behind)).head? = some '%'
  · obtain ⟨rest, shape⟩ := List.head?_eq_some_iff.mp percent
    rw [shape] at behindWhole
    rw [readNumber_percent behindWhole, isWidth] at takes ⊢
    have single : (front.drop width).length = 1 := by
      dsimp only at takes
      omega
    obtain ⟨sign, isSign⟩ := List.length_eq_one_iff.mp single
    rw [isSign, List.singleton_append] at behindPart shape
    rw [(List.cons.inj shape).1] at behindPart
    rw [readNumber_percent behindPart, same]
  · rw [readNumber_of_behind behindWhole percent, isWidth] at takes ⊢
    have noPercent : (front.drop width ++ left).head? ≠ some '%' := by
      rw [← List.append_assoc] at percent
      exact head?_append_ne percent
    rw [readNumber_of_behind behindPart noPercent, same]
    by_cases unit : beginsIdentifier (front.drop width ++ (left ++ behind)) = true
    · rw [if_pos unit] at takes ⊢
      have name : (readName (front.drop width ++ (left ++ behind))).2 =
          (front.drop width).length := by
        dsimp only at takes
        omega
      have begins : beginsIdentifier (front.drop width ++ left) = true := by
        rw [← List.append_assoc] at unit name
        apply beginsIdentifier_cut clean.noEscape unit
        rw [name, List.length_append]
        omega
      rw [if_pos begins, readName_cut clean name]
    · rw [if_neg unit] at takes ⊢
      have nothing : front.drop width = [] := by
        apply List.eq_nil_of_length_eq_zero
        dsimp only at takes
        omega
      rw [nothing, List.nil_append] at unit
      rw [nothing, List.nil_append, if_neg (not_beginsIdentifier_cut clean unit)]

end ComponentStyles.Css
