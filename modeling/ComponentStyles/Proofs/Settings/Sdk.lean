import ComponentStyles.Settings.Sdk
import Mathlib.Data.List.TakeWhile

/-!
What names a version of the SDK.

A text names a version if it begins, behind blanks, with a digit, and if the number that its
digits write fits in 32 bits.  Zeros in front of a number do not count against it, and whatever
stands behind the digits is kept without being read.  A version is named by its own text again.
-/

namespace ComponentStyles

open ComponentStyles.Text

namespace Text

theorem hexValue?_of_isDigit {digit : Char} (numeric : isDigit digit = true) :
    hexValue? digit = some (digit.toNat - '0'.toNat) := by
  have bounds : '0' ≤ digit ∧ digit ≤ '9' := by
    simpa only [isDigit, Bool.and_eq_true, decide_eq_true_eq] using numeric
  unfold hexValue?
  rw [if_pos bounds]
  rfl

def withDigit (base value : Nat) (digit : Char) : Nat :=
  value * base + (hexValue? digit).getD 0

theorem foldl_withDigit {digits : List Char} (numeric : ∀ digit ∈ digits, isDigit digit = true)
    (value : Nat) : digits.foldl (withDigit 10) value = Nat.ofDigitChars 10 digits value := by
  induction digits generalizing value with
  | nil => rfl
  | cons digit rest inductionHypothesis =>
      have others := inductionHypothesis fun other among =>
        numeric other (List.mem_cons_of_mem digit among)
      have first := hexValue?_of_isDigit (numeric digit List.mem_cons_self)
      rw [List.foldl_cons, others, withDigit, first, Option.getD_some, Nat.mul_comm]
      rfl

theorem digitsValue_eq {digits : List Char} (numeric : ∀ digit ∈ digits, isDigit digit = true) :
    digitsValue 10 digits = Nat.ofDigitChars 10 digits 0 :=
  foldl_withDigit numeric 0

theorem le_foldl_withDigit {base : Nat} (positive : 0 < base) (digits : List Char) (value : Nat) :
    value ≤ digits.foldl (withDigit base) value := by
  induction digits generalizing value with
  | nil => exact Nat.le_refl value
  | cons digit rest inductionHypothesis =>
      have longer : value ≤ withDigit base value digit :=
        Nat.le_add_right_of_le (Nat.le_mul_of_pos_right value positive)
      exact Nat.le_trans longer (inductionHypothesis _)

theorem foldlM_withDigit {base limit : Nat} (positive : 0 < base) (digits : List Char)
    {value : Nat} (fits : value ≤ limit) :
    digits.foldlM (fun value digit =>
        if withDigit base value digit ≤ limit then some (withDigit base value digit) else none)
        value =
      if digits.foldl (withDigit base) value ≤ limit then some (digits.foldl (withDigit base) value)
      else none := by
  induction digits generalizing value with
  | nil => exact (if_pos fits).symm
  | cons digit rest inductionHypothesis =>
      rw [List.foldlM_cons, List.foldl_cons]
      by_cases within : withDigit base value digit ≤ limit
      · rw [if_pos within]
        exact inductionHypothesis within
      · have beyond := le_foldl_withDigit positive rest (withDigit base value digit)
        rw [if_neg within, if_neg fun small => within (Nat.le_trans beyond small)]
        rfl

/-- To refuse digits as soon as their number is beyond the limit is the same as to compare the
number of all of them. -/
theorem digitsUpTo?_eq {base limit : Nat} (positive : 0 < base) (digits : List Char) :
    digitsUpTo? base limit digits =
      if digitsValue base digits ≤ limit then some (digitsValue base digits) else none :=
  foldlM_withDigit positive digits (Nat.zero_le limit)

end Text

namespace SdkVersion

/-- A text that begins, behind blanks, with a digit, cut up: all digits that stand there, what
stands behind them, and the blanks at the end. -/
structure Spelling (input : String) where
  front : List Char
  digits : List Char
  rest : List Char
  back : List Char
  parts : input.toList = front ++ (digits ++ rest) ++ back
  frontBlank : ∀ character ∈ front, isBlank character = true
  backBlank : ∀ character ∈ back, isBlank character = true
  begins : digits ≠ []
  numeric : ∀ digit ∈ digits, isDigit digit = true
  longest : ∀ character ∈ rest.head?, isDigit character = false
  trimmed : ∀ character ∈ (digits ++ rest).getLast?, isBlank character = false

namespace Spelling

variable {input : String} (spelling : Spelling input)

def text : List Char :=
  spelling.digits ++ spelling.rest

def number : Nat :=
  Nat.ofDigitChars 10 spelling.digits 0

def version : SdkVersion :=
  { major := spelling.number, text := String.ofList spelling.text }

theorem not_isBlank_of_isDigit {digit : Char} (numeric : isDigit digit = true) :
    isBlank digit = false := by
  have digits : "0123456789".toList.any isBlank = false := by decide
  exact Bool.eq_false_iff.mpr (List.any_eq_false.mp digits digit (isDigit_iff.mp numeric))

theorem trim_text : trim spelling.text = spelling.text := by
  refine (trim_eq_self_iff spelling.text).mpr ⟨?_, spelling.trimmed⟩
  intro character first
  cases shape : spelling.digits with
  | nil => exact absurd shape spelling.begins
  | cons digit others =>
      rw [text, shape] at first
      obtain rfl : digit = character := Option.some.inj first
      exact not_isBlank_of_isDigit (spelling.numeric digit (shape ▸ List.mem_cons_self))

theorem trim_input : trim input.toList = spelling.text := by
  have head := ((trim_eq_self_iff spelling.text).mp spelling.trim_text).1
  have unbroken : trimLeft (spelling.text ++ spelling.back) = spelling.text ++ spelling.back := by
    refine trimLeft_of_head fun character first => head character ?_
    cases shape : spelling.digits with
    | nil => exact absurd shape spelling.begins
    | cons digit others =>
        rw [text, shape] at first ⊢
        exact first
  rw [trim, spelling.parts, List.append_assoc,
    trimLeft_append_of_all_blank _ _ spelling.frontBlank]
  change trimRight (trimLeft (spelling.text ++ spelling.back)) = _
  rw [unbroken, trimRight_append_of_all_blank _ _ spelling.backBlank]
  exact trimRight_of_last spelling.trimmed

theorem takeWhile_text : spelling.text.takeWhile isDigit = spelling.digits := by
  rw [text, List.takeWhile_append_of_pos spelling.numeric]
  cases shape : spelling.rest with
  | nil => rw [List.takeWhile_nil, List.append_nil]
  | cons first others =>
      have other := spelling.longest first (by rw [shape]; rfl)
      rw [List.takeWhile_cons_of_neg (Bool.eq_false_iff.mp other), List.append_nil]

theorem parse_eq :
    parse input =
      if spelling.number ≤ majorLimit then .ok spelling.version else .error { input } := by
  have value : digitsUpTo? 10 majorLimit spelling.digits =
      if spelling.number ≤ majorLimit then some spelling.number else none := by
    rw [digitsUpTo?_eq (by decide), digitsValue_eq spelling.numeric]
    rfl
  unfold parse
  rw [spelling.trim_input]
  dsimp only
  rw [spelling.takeWhile_text, value]
  cases shape : spelling.digits with
  | nil => exact absurd shape spelling.begins
  | cons digit others =>
      by_cases fits : spelling.number ≤ majorLimit
      · rw [if_pos fits, if_pos fits]
        rfl
      · rw [if_neg fits, if_neg fits]

def again : Spelling (String.ofList spelling.text) :=
  { spelling with
    front := []
    back := []
    parts := by rw [String.toList_ofList, List.nil_append, List.append_nil, text]
    frontBlank := by simp
    backBlank := by simp }

theorem number_eq (other : Spelling input) : spelling.number = other.number := by
  rw [number, number, ← spelling.takeWhile_text, ← other.takeWhile_text, ← spelling.trim_input,
    ← other.trim_input]

theorem exists_of_digits (begins : (trim input.toList).takeWhile isDigit ≠ []) :
    Nonempty (Spelling input) := by
  obtain ⟨front, back, parts, frontBlank, backBlank⟩ := exists_blanks_around input.toList
  have whole : (trim input.toList).takeWhile isDigit ++ (trim input.toList).dropWhile isDigit =
      trim input.toList := List.takeWhile_append_dropWhile
  refine ⟨{ front, back, frontBlank, backBlank, begins
            digits := (trim input.toList).takeWhile isDigit
            rest := (trim input.toList).dropWhile isDigit
            parts := whole.symm ▸ parts
            numeric := List.all_eq_true.mp List.all_takeWhile
            longest := ?_
            trimmed := ?_ }⟩
  · intro character first
    have stopped := List.head?_dropWhile_not isDigit (trim input.toList)
    rw [first] at stopped
    exact stopped
  · intro character last
    rw [whole] at last
    obtain ⟨before, shape⟩ := List.getLast?_eq_some_iff.mp last
    exact trimRight_last_not_blank shape

theorem exists_of_ok {version : SdkVersion} (read : parse input = .ok version) :
    Nonempty (Spelling input) := by
  refine exists_of_digits fun none => ?_
  unfold parse at read
  dsimp only at read
  rw [none] at read
  cases read

end Spelling

theorem fault_of_error {input : String} {fault : InvalidSdkVersion}
    (refused : parse input = .error fault) : fault = { input } := by
  unfold parse at refused
  dsimp only at refused
  split at refused
  · cases refused
  · exact (Except.error.inj refused).symm

/-- A text names a version exactly if it begins, behind blanks, with digits whose number fits in 32
bits.  That number is the major version and decides what is supported; the text without the blanks
around it is kept and names the same version.  Every other text is refused, as it came. -/
theorem parse_spellings (input : String) :
    (∀ version, parse input = .ok version ↔
      ∃ spelling : Spelling input, spelling.number ≤ 4294967295 ∧
        version =
          { major := spelling.number
            text := String.ofList (spelling.digits ++ spelling.rest) }) ∧
    (parse input = .error { input } ↔
      ¬ ∃ spelling : Spelling input, spelling.number ≤ 4294967295) ∧
    ∀ version, parse input = .ok version →
      parse version.text = .ok version ∧
        ∀ (spelling : Spelling input) (minimum : Nat),
          version.supports minimum = true ↔ minimum ≤ spelling.number := by
  have accepts : ∀ version, parse input = .ok version ↔
      ∃ spelling : Spelling input, spelling.number ≤ 4294967295 ∧ version = spelling.version := by
    intro version
    constructor
    · intro read
      obtain ⟨spelling⟩ := Spelling.exists_of_ok read
      rw [spelling.parse_eq] at read
      by_cases fits : spelling.number ≤ majorLimit
      · rw [if_pos fits] at read
        exact ⟨spelling, fits, (Except.ok.inj read).symm⟩
      · rw [if_neg fits] at read
        cases read
    · rintro ⟨spelling, fits, rfl⟩
      exact spelling.parse_eq.trans (if_pos fits)
  refine ⟨accepts, ?_, ?_⟩
  · constructor
    · rintro refused ⟨spelling, fits⟩
      rw [spelling.parse_eq.trans (if_pos fits)] at refused
      cases refused
    · intro unspelled
      cases read : parse input with
      | ok version =>
          obtain ⟨spelling, fits, _⟩ := (accepts version).mp read
          exact absurd ⟨spelling, fits⟩ unspelled
      | error fault => rw [fault_of_error read]
  · intro version read
    obtain ⟨named, fits, rfl⟩ := (accepts version).mp read
    refine ⟨named.again.parse_eq.trans (if_pos fits), ?_⟩
    intro spelling minimum
    rw [spelling.number_eq named]
    exact decide_eq_true_iff

example : parse "\u00a00004294967295.x\t" =
    .ok { major := 4294967295, text := "0004294967295.x" } := by
  decide

end SdkVersion

end ComponentStyles
