import ComponentStyles.Proofs.Css.Name

/-!
Names of a text that is cut off.

A reader that takes just the front of a text takes it all the same when what stands behind the
front is cut short.  A lone backslash is apart: it begins an escape unless a newline stands behind
it, so that newline must not be cut off.
-/

namespace ComponentStyles.Css

open ComponentStyles.Text

def IsLocal (width : List Char → Nat) : Prop :=
  ∀ text behind, width (text ++ behind) ≤ text.length → width text = width (text ++ behind)

theorem takeWhile_cut {keeps : Char → Bool} {text behind : List Char}
    (within : ((text ++ behind).takeWhile keeps).length ≤ text.length) :
    text.takeWhile keeps = (text ++ behind).takeWhile keeps := by
  rw [List.takeWhile_append] at within ⊢
  split at within
  · rename_i whole
    rw [List.length_append] at within
    have nothing : behind.takeWhile keeps = [] := List.eq_nil_of_length_eq_zero (by omega)
    rw [if_pos whole, nothing, List.append_nil]
    exact (List.takeWhile_prefix keeps).eq_of_length whole
  · rename_i part
    rw [if_neg part]

theorem IsLocal.behind {first second : List Char → Nat} (firstLocal : IsLocal first)
    (secondLocal : IsLocal second) :
    IsLocal fun text => first text + second (text.drop (first text)) := by
  intro text behind within
  dsimp only at within ⊢
  have firstWithin : first (text ++ behind) ≤ text.length := by omega
  have same := firstLocal text behind firstWithin
  rw [List.drop_append_of_le_length firstWithin] at within ⊢
  rw [same, secondLocal (text.drop (first (text ++ behind))) behind]
  rw [List.length_drop]
  omega

theorem nothing_left (left behind : List Char) {taken width : Nat} (takes : taken = width)
    (further : left ++ behind ≠ [] → width < taken) : left = [] ∧ behind = [] := by
  refine List.append_eq_nil_iff.mp ?_
  by_contra some
  have more := further some
  omega

theorem oneSpaceWidth_cons (first : Char) (rest : List Char) :
    oneSpaceWidth (first :: rest) =
      if first = '\r' ∧ rest.head? = some '\n' then 2 else if isSpace first then 1 else 0 := by
  unfold oneSpaceWidth
  split
  · rename_i shape
    obtain ⟨rfl, rfl⟩ := List.cons.inj shape
    rfl
  · rename_i apart shape
    obtain ⟨rfl, rfl⟩ := List.cons.inj shape
    have single : ¬(first = '\r' ∧ rest.head? = some '\n') := by
      intro both
      obtain ⟨more, newline⟩ := List.head?_eq_some_iff.mp both.2
      exact apart more both.1 newline
    rw [if_neg single]
  · rename_i shape
    cases shape

theorem isLocal_oneSpaceWidth : IsLocal oneSpaceWidth := by
  intro text behind within
  cases text with
  | nil => exact (Nat.le_zero.mp within).symm
  | cons first rest =>
      rw [List.cons_append, oneSpaceWidth_cons] at within
      rw [List.cons_append, oneSpaceWidth_cons, oneSpaceWidth_cons]
      cases rest with
      | nil =>
          rw [List.nil_append] at within ⊢
          by_cases both : first = '\r' ∧ behind.head? = some '\n'
          · rw [if_pos both] at within
            exact absurd within (Nat.not_succ_le_self 1)
          · rw [if_neg both]
            exact if_neg fun alone => Option.some_ne_none _ alone.2.symm
      | cons second others => rfl

theorem escapeDigits_cut {text behind : List Char}
    (within : (escapeDigits (text ++ behind)).length ≤ text.length) :
    escapeDigits text = escapeDigits (text ++ behind) := by
  unfold escapeDigits at within ⊢
  have short := (List.takeWhile_sublist isHexDigit (l := (text ++ behind).take 6)).length_le
  rw [List.length_take] at short
  rw [List.take_append] at within short ⊢
  apply takeWhile_cut
  rw [List.length_take]
  omega

theorem escaped_cut {text behind : List Char} (nonempty : text ≠ [])
    (within : (escaped (text ++ behind)).2 ≤ text.length) :
    escaped text = escaped (text ++ behind) := by
  cases text with
  | nil => exact absurd rfl nonempty
  | cons first rest =>
      by_cases digit : isHexDigit first = true
      · have digits := escaped_of_digit digit (rest ++ behind)
        rw [List.cons_append] at within
        rw [digits, ← List.cons_append] at within
        dsimp only at within
        have inside : (escapeDigits (first :: rest ++ behind)).length ≤ (first :: rest).length := by
          omega
        rw [List.drop_append_of_le_length inside] at within
        rw [List.cons_append, digits, escaped_of_digit digit, ← List.cons_append,
          escapeDigits_cut inside, List.drop_append_of_le_length inside,
          isLocal_oneSpaceWidth _ behind]
        rw [List.length_drop]
        omega
      · rw [List.cons_append, escaped_of_other digit, escaped_of_other digit]

theorem beginsNewline_append {text : List Char} (nonempty : text ≠ []) (behind : List Char) :
    beginsNewline (text ++ behind) = beginsNewline text := by
  cases text with
  | nil => exact absurd rfl nonempty
  | cons first rest => rfl

theorem escaped_pos {text : List Char} (nonempty : text ≠ []) : 0 < (escaped text).2 := by
  cases text with
  | nil => exact absurd rfl nonempty
  | cons first rest =>
      by_cases digit : isHexDigit first = true
      · rw [escaped_of_digit digit]
        have some : 0 < (escapeDigits (first :: rest)).length := by
          rw [escapeDigits, List.take_succ_cons, List.takeWhile_cons_of_pos digit,
            List.length_cons]
          exact Nat.succ_pos _
        exact Nat.add_pos_left some _
      · rw [escaped_of_other digit]
        exact Nat.one_pos

section Escape

variable {α : Type} {reader : List Char → List Char → Nat → α × Nat}
  (further : ∀ text read width, width ≤ (reader text read width).2) {read : List Char}
  {width : Nat}
include further

/-- An escape in the front is read the same, and the reader goes on behind it. -/
theorem escape_cut {rest left behind : List Char} (nonempty : rest ≠ [])
    (step : ∀ more, more ≠ [] → beginsNewline more = beginsNewline rest →
      reader ('\\' :: more) read width =
        reader (more.drop (escaped more).2) ((escaped more).1 :: read)
          (width + 1 + (escaped more).2))
    (takes : (reader ('\\' :: (rest ++ (left ++ behind))) read width).2 =
      width + (rest.length + 1)) :
    (∀ more, more = left ∨ more = left ++ behind →
      reader ('\\' :: (rest ++ more)) read width =
        reader (rest.drop (escaped rest).2 ++ more) ((escaped rest).1 :: read)
          (width + 1 + (escaped rest).2)) ∧
      width + (rest.length + 1) =
        width + 1 + (escaped rest).2 + (rest.drop (escaped rest).2).length := by
  have within : (escaped (rest ++ (left ++ behind))).2 ≤ rest.length := by
    have least := further ((rest ++ (left ++ behind)).drop (escaped (rest ++ (left ++ behind))).2)
      ((escaped (rest ++ (left ++ behind))).1 :: read)
      (width + 1 + (escaped (rest ++ (left ++ behind))).2)
    rw [step _ (List.append_ne_nil_of_left_ne_nil nonempty _)
      (beginsNewline_append nonempty _)] at takes
    omega
  have whole := (escaped_cut nonempty within).symm
  have part : escaped (rest ++ left) = escaped rest := by
    rw [← whole, ← List.append_assoc]
    apply escaped_cut (List.append_ne_nil_of_left_ne_nil nonempty left)
    rw [List.append_assoc, List.length_append]
    omega
  have inside := escaped_le rest
  constructor
  · intro more either
    have same : escaped (rest ++ more) = escaped rest := by
      rcases either with isLeft | isWhole
      · rw [isLeft, part]
      · rw [isWhole, whole]
    rw [step _ (List.append_ne_nil_of_left_ne_nil nonempty more)
      (beginsNewline_append nonempty more), same, List.drop_append_of_le_length inside]
  · rw [List.length_drop]
    omega

theorem escape_takes {rest : List Char} (nonempty : rest ≠ [])
    (step : reader ('\\' :: rest) read width =
      reader (rest.drop (escaped rest).2) ((escaped rest).1 :: read)
        (width + 1 + (escaped rest).2)) :
    width + 1 < (reader ('\\' :: rest) read width).2 := by
  have some := escaped_pos nonempty
  have least := further (rest.drop (escaped rest).2) ((escaped rest).1 :: read)
    (width + 1 + (escaped rest).2)
  rw [step]
  omega

end Escape

theorem nameFrom_step_escape {rest : List Char} (escapes : ¬ beginsNewline rest = true)
    (read : List Char) (width : Nat) :
    nameFrom ('\\' :: rest) read width =
      nameFrom (rest.drop (escaped rest).2) ((escaped rest).1 :: read)
        (width + 1 + (escaped rest).2) := by
  rw [nameFrom, if_pos rfl, if_neg escapes]

theorem nameFrom_step_line {rest : List Char} (line : beginsNewline rest = true)
    (read : List Char) (width : Nat) :
    nameFrom ('\\' :: rest) read width = (String.ofList read.reverse, width) := by
  rw [nameFrom, if_pos rfl, if_pos line]

theorem le_nameFrom (text read : List Char) (width : Nat) :
    width ≤ (nameFrom text read width).2 := by
  induction text, read, width using nameFrom.induct with
  | case1 read width => rw [nameFrom]
  | case2 read width rest line => rw [nameFrom_step_line line]
  | case3 read width rest escapes inductionHypothesis =>
      rw [nameFrom_step_escape escapes]
      omega
  | case4 read width rest _ inductionHypothesis =>
      rw [nameFrom_null]
      omega
  | case5 read width first rest escape null inside inductionHypothesis =>
      rw [nameFrom_inside escape null inside]
      omega
  | case6 read width first rest escape null outside =>
      rw [nameFrom_outside escape null outside]

def endsName : List Char → Bool
  | [] => true
  | character :: rest =>
      if character = '\\' then beginsNewline rest else !isNameCharacter character

theorem nameFrom_of_endsName {text : List Char} (ends : endsName text = true) (read : List Char)
    (width : Nat) : nameFrom text read width = (String.ofList read.reverse, width) := by
  cases text with
  | nil => rw [nameFrom]
  | cons first rest =>
      by_cases escape : first = '\\'
      · subst escape
        exact nameFrom_step_line ends read width
      · rw [endsName, if_neg escape] at ends
        have outside : ¬ isNameCharacter first = true := by simpa using ends
        have null : first ≠ '\x00' := by
          intro same
          exact outside (by rw [same]; decide)
        exact nameFrom_outside escape null outside rest read width

theorem lt_nameFrom {text : List Char} (goesOn : ¬ endsName text = true) (read : List Char)
    (width : Nat) : width < (nameFrom text read width).2 := by
  cases text with
  | nil => exact absurd rfl goesOn
  | cons first rest =>
      by_cases escape : first = '\\'
      · subst escape
        rw [nameFrom_step_escape goesOn]
        have further := le_nameFrom (rest.drop (escaped rest).2) ((escaped rest).1 :: read)
          (width + 1 + (escaped rest).2)
        omega
      · by_cases null : first = '\x00'
        · subst null
          rw [nameFrom_null]
          exact le_nameFrom rest (replacement :: read) (width + 1)
        · rw [endsName, if_neg escape] at goesOn
          rw [nameFrom_inside escape null (by simpa using goesOn)]
          exact le_nameFrom rest (first :: read) (width + 1)

theorem endsName_of_nameFrom {text read : List Char} {width : Nat}
    (ended : (nameFrom text read width).2 = width) : endsName text = true := by
  by_cases ends : endsName text = true
  · exact ends
  · have goesOn := lt_nameFrom ends read width
    omega

/-- What is left of the text behind a reader's front, and what is cut off behind that: it begins no
escape, no quote comes first in it, and the newline behind a lone backslash is not cut off. -/
structure CutClean (left behind : List Char) : Prop where
  noEscape : behind.head? ≠ some '\\'
  noQuote : ∀ character rest, behind.dropWhile isSpace = character :: rest →
    character ≠ '"' ∧ character ≠ '\''
  keepsLine : beginsNewline behind = true → left ≠ ['\\']

theorem endsName_cut {left behind : List Char} (clean : CutClean left behind)
    (ends : endsName (left ++ behind) = true) : endsName left = true := by
  cases left with
  | nil => rfl
  | cons first rest =>
      rw [List.cons_append, endsName] at ends
      rw [endsName]
      split at ends
      · rename_i escape
        subst escape
        rw [if_pos rfl]
        cases rest with
        | nil => exact absurd rfl (clean.keepsLine ends)
        | cons second others => exact ends
      · rename_i plain
        rw [if_neg plain]
        exact ends

/-- A name that ends with the front ends there too when the text behind the front is cut short. -/
theorem nameFrom_cut {front left behind read : List Char} {width : Nat}
    (clean : CutClean left behind)
    (takes : (nameFrom (front ++ (left ++ behind)) read width).2 = width + front.length) :
    nameFrom (front ++ left) read width = nameFrom (front ++ (left ++ behind)) read width := by
  induction front, read, width using nameFrom.induct with
  | case1 read width =>
      rw [List.nil_append] at takes ⊢
      have ends := endsName_of_nameFrom takes
      rw [List.nil_append, nameFrom_of_endsName ends,
        nameFrom_of_endsName (endsName_cut clean ends)]
  | case2 read width rest line =>
      have nonempty : rest ≠ [] := by
        intro empty
        rw [empty] at line
        cases line
      have still := (beginsNewline_append nonempty (left ++ behind)).trans line
      rw [List.cons_append, nameFrom_step_line still, List.length_cons] at takes
      dsimp only at takes
      omega
  | case3 read width rest escapes inductionHypothesis =>
      rw [List.cons_append, List.length_cons] at takes
      rw [List.cons_append, List.cons_append]
      cases rest with
      | nil =>
          rw [List.nil_append] at takes ⊢
          rw [List.nil_append]
          by_cases line : beginsNewline (left ++ behind) = true
          · rw [nameFrom_step_line line, List.length_nil] at takes
            dsimp only at takes
            omega
          · obtain ⟨rfl, rfl⟩ := nothing_left left behind takes fun some =>
              escape_takes le_nameFrom some (nameFrom_step_escape line read width)
            rfl
      | cons first others =>
          obtain ⟨onward, length⟩ := escape_cut le_nameFrom (List.cons_ne_nil first others)
            (fun more _ same => nameFrom_step_escape (same ▸ escapes) read width) takes
          rw [onward _ (.inr rfl), length] at takes
          rw [onward _ (.inl rfl), onward _ (.inr rfl)]
          exact inductionHypothesis takes
  | case4 read width rest _ inductionHypothesis =>
      rw [List.cons_append, nameFrom_null, List.length_cons] at takes
      rw [List.cons_append, List.cons_append, nameFrom_null, nameFrom_null]
      exact inductionHypothesis (by omega)
  | case5 read width first rest escape null inside inductionHypothesis =>
      have step := nameFrom_inside escape null inside
      rw [List.cons_append, step, List.length_cons] at takes
      rw [List.cons_append, List.cons_append, step, step]
      exact inductionHypothesis (by omega)
  | case6 read width first rest escape null outside =>
      rw [List.cons_append, nameFrom_outside escape null outside, List.length_cons] at takes
      dsimp only at takes
      omega

theorem readName_cut {front left behind : List Char} (clean : CutClean left behind)
    (takes : (readName (front ++ (left ++ behind))).2 = front.length) :
    readName (front ++ left) = readName (front ++ (left ++ behind)) :=
  nameFrom_cut clean (takes.trans (Nat.zero_add _).symm)

theorem isNameCharacter_of_isNameStart {character : Char} (start : isNameStart character = true) :
    isNameCharacter character = true := by
  rw [isNameCharacter, start]
  rfl

theorem not_endsName_cons {first : Char} (plain : first ≠ '\\')
    (inside : isNameCharacter first = true) (rest : List Char) :
    ¬ endsName (first :: rest) = true := by
  rw [endsName, if_neg plain, inside]
  exact Bool.false_ne_true

theorem readName_pos {text : List Char} (begins : beginsIdentifier text = true) :
    0 < (readName text).2 := by
  apply lt_nameFrom
  match text with
  | [] => cases begins
  | first :: rest =>
      by_cases escape : first = '\\'
      · subst escape
        intro ends
        have line : beginsNewline rest = true := ends
        have noLine : (!beginsNewline rest) = true := begins
        rw [line] at noLine
        cases noLine
      · apply not_endsName_cons escape
        by_cases hyphen : first = '-'
        · rw [hyphen]
          decide
        · apply isNameCharacter_of_isNameStart
          simpa [beginsIdentifier, hyphen, escape] using begins

theorem lone_cases (first : Char) (rest : List Char) :
    (rest = [] ∧ first = '-') ∨ (rest = [] ∧ first = '\\') ∨
      (rest = [] → first ≠ '-' ∧ first ≠ '\\') := by
  by_cases hyphen : rest = [] ∧ first = '-'
  · exact .inl hyphen
  · by_cases escape : rest = [] ∧ first = '\\'
    · exact .inr (.inl escape)
    · right
      right
      intro empty
      exact ⟨fun same => hyphen ⟨empty, same⟩, fun same => escape ⟨empty, same⟩⟩

/-- Only a lone hyphen or a lone backslash hangs on what stands behind it. -/
theorem beginsIdentifier_append {first : Char} {rest : List Char}
    (alone : rest = [] → first ≠ '-' ∧ first ≠ '\\') (behind : List Char) :
    beginsIdentifier (first :: rest ++ behind) = beginsIdentifier (first :: rest) := by
  by_cases hyphen : first = '-'
  · subst hyphen
    cases rest with
    | nil => exact absurd rfl (alone rfl).1
    | cons second others => rfl
  · by_cases escape : first = '\\'
    · subst escape
      cases rest with
      | nil => exact absurd rfl (alone rfl).2
      | cons second others => rfl
    · have step : ∀ more, beginsIdentifier (first :: more) = isNameStart first := by
        intro more
        simp [beginsIdentifier, hyphen]
      rw [List.cons_append, step, step]

theorem beginsIdentifier_cut {text behind : List Char} (noEscape : behind.head? ≠ some '\\')
    (begins : beginsIdentifier (text ++ behind) = true)
    (within : (readName (text ++ behind)).2 ≤ text.length) : beginsIdentifier text = true := by
  cases text with
  | nil =>
      have some := readName_pos begins
      rw [List.length_nil] at within
      omega
  | cons first rest =>
      rcases lone_cases first rest with ⟨rfl, rfl⟩ | ⟨rfl, rfl⟩ | alone
      · -- The name would go on behind the hyphen.
        cases behind with
        | nil => cases begins
        | cons second rest =>
            have plain : second ≠ '\\' := fun same => noEscape (congrArg some same)
            have either : (isNameStart second || second == '-' || second == '\\') = true :=
              begins
            have start : isNameStart second = true ∨ second = '-' := by simpa [plain] using either
            have inside : isNameCharacter second = true := by
              rcases start with start | hyphen
              · exact isNameCharacter_of_isNameStart start
              · rw [hyphen]
                decide
            have further := lt_nameFrom (not_endsName_cons plain inside rest) ['-'] 1
            rw [List.singleton_append, readName,
              nameFrom_inside (by decide) (by decide) (by decide)] at within
            exact absurd within (Nat.not_le_of_lt further)
      · rfl
      · rw [← beginsIdentifier_append alone behind]
        exact begins

theorem not_beginsIdentifier_cut {left behind : List Char} (clean : CutClean left behind)
    (none : ¬ beginsIdentifier (left ++ behind) = true) : ¬ beginsIdentifier left = true := by
  cases left with
  | nil => exact Bool.false_ne_true
  | cons first rest =>
      rcases lone_cases first rest with ⟨rfl, rfl⟩ | ⟨rfl, rfl⟩ | alone
      · exact Bool.false_ne_true
      · have stays : beginsNewline behind = false :=
          Bool.eq_false_iff.mpr fun line => clean.keepsLine line rfl
        have begins : beginsIdentifier ('\\' :: behind) = !beginsNewline behind := rfl
        rw [List.singleton_append, begins, stays] at none
        exact absurd rfl none
      · rw [← beginsIdentifier_append alone behind]
        exact none

end ComponentStyles.Css
