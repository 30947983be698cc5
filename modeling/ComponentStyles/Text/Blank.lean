/-!
Blank characters and trimming.

A character is blank when it has the Unicode property White_Space.  The main statements say
that trimming takes away nothing but blanks, and that it leaves a text alone exactly if the text
neither begins nor ends with one.
-/

namespace ComponentStyles.Text

/-- The code points with the Unicode property White_Space, as closed ranges. -/
def blankRanges : List (Nat × Nat) :=
  [(0x09, 0x0D), (0x20, 0x20), (0x85, 0x85), (0xA0, 0xA0), (0x1680, 0x1680),
   (0x2000, 0x200A), (0x2028, 0x2029), (0x202F, 0x202F), (0x205F, 0x205F), (0x3000, 0x3000)]

def isBlank (character : Char) : Bool :=
  blankRanges.any fun range => range.1 ≤ character.toNat && character.toNat ≤ range.2

theorem isBlank_iff {character : Char} :
    isBlank character = true ↔
      character.toNat ∈
        [0x09, 0x0A, 0x0B, 0x0C, 0x0D, 0x20, 0x85, 0xA0, 0x1680, 0x2000, 0x2001, 0x2002, 0x2003,
          0x2004, 0x2005, 0x2006, 0x2007, 0x2008, 0x2009, 0x200A, 0x2028, 0x2029, 0x202F, 0x205F,
          0x3000] := by
  simp only [isBlank, blankRanges, List.any_cons, List.any_nil, Bool.or_eq_true, Bool.and_eq_true,
    decide_eq_true_eq, Bool.false_eq_true, or_false, List.mem_cons, List.not_mem_nil]
  omega

def trimLeft (characters : List Char) : List Char :=
  characters.dropWhile isBlank

def trimRight (characters : List Char) : List Char :=
  (characters.reverse.dropWhile isBlank).reverse

def trim (characters : List Char) : List Char :=
  trimRight (trimLeft characters)

def trimmed (text : String) : String :=
  String.ofList (trim text.toList)

def isBlankText (text : String) : Bool :=
  text.toList.all isBlank

theorem trimLeft_append_of_all_blank (blanks rest : List Char)
    (allBlank : ∀ character ∈ blanks, isBlank character = true) :
    trimLeft (blanks ++ rest) = trimLeft rest := by
  induction blanks with
  | nil => rfl
  | cons character blanks inductionHypothesis =>
      have blank := allBlank character (by simp)
      have others : ∀ other ∈ blanks, isBlank other = true := fun other member =>
        allBlank other (by simp [member])
      simpa [trimLeft, List.dropWhile_cons, blank] using inductionHypothesis others

theorem trimLeft_head_not_blank {characters rest : List Char} {character : Char}
    (shape : trimLeft characters = character :: rest) : isBlank character = false := by
  induction characters with
  | nil => simp [trimLeft] at shape
  | cons first others inductionHypothesis =>
      by_cases blank : isBlank first = true
      · exact inductionHypothesis (by simpa [trimLeft, List.dropWhile_cons, blank] using shape)
      · simp only [trimLeft, List.dropWhile_cons, blank] at shape
        obtain ⟨rfl, _⟩ := List.cons.inj shape
        simpa using blank

theorem trimRight_last_not_blank {characters front : List Char} {character : Char}
    (shape : trimRight characters = front ++ [character]) : isBlank character = false := by
  have reversed : trimLeft characters.reverse = character :: front.reverse := by
    rw [← List.reverse_concat, ← shape, trimRight, List.reverse_reverse]
    rfl
  exact trimLeft_head_not_blank reversed

theorem trimLeft_of_head {characters : List Char}
    (head : ∀ character ∈ characters.head?, isBlank character = false) :
    trimLeft characters = characters := by
  cases characters with
  | nil => rfl
  | cons first rest =>
      exact List.dropWhile_cons_of_neg (by simp [head first rfl])

theorem trimRight_of_last {characters : List Char}
    (last : ∀ character ∈ characters.getLast?, isBlank character = false) :
    trimRight characters = characters := by
  have kept : trimLeft characters.reverse = characters.reverse := by
    refine trimLeft_of_head fun character begins => last character ?_
    rw [List.head?_reverse] at begins
    exact begins
  exact (congrArg List.reverse kept).trans (List.reverse_reverse characters)

theorem trimRight_append_of_all_blank (front blanks : List Char)
    (allBlank : ∀ character ∈ blanks, isBlank character = true) :
    trimRight (front ++ blanks) = trimRight front := by
  have reversed := trimLeft_append_of_all_blank blanks.reverse front.reverse fun character among =>
    allBlank character (List.mem_reverse.mp among)
  rw [← List.reverse_append] at reversed
  exact congrArg List.reverse reversed

/-- A text is trimmed at its end alone, if something is left of the end. -/
theorem trimRight_append {front back : List Char} (kept : trimRight back ≠ []) :
    trimRight (front ++ back) = front ++ trimRight back := by
  have notAll : ¬ (back.reverse.dropWhile isBlank).isEmpty = true := by
    intro all
    rw [List.isEmpty_iff] at all
    exact kept (congrArg List.reverse all)
  unfold trimRight
  rw [List.reverse_append, List.dropWhile_append, if_neg notAll, List.reverse_append,
    List.reverse_reverse]

theorem exists_blanks_behind (characters : List Char) :
    ∃ blanks, characters = trimRight characters ++ blanks ∧
      ∀ character ∈ blanks, isBlank character = true := by
  refine ⟨(characters.reverse.takeWhile isBlank).reverse, ?_, ?_⟩
  · have parts := List.takeWhile_append_dropWhile (p := isBlank) (l := characters.reverse)
    have straight := congrArg List.reverse parts
    rw [List.reverse_append, List.reverse_reverse] at straight
    exact straight.symm
  · intro character among
    exact List.all_eq_true.mp List.all_takeWhile character (List.mem_reverse.mp among)

/-- What trimming takes away stands around what it leaves, and is blank. -/
theorem exists_blanks_around (characters : List Char) :
    ∃ front back, characters = front ++ trim characters ++ back ∧
      (∀ character ∈ front, isBlank character = true) ∧
        ∀ character ∈ back, isBlank character = true := by
  have leftPart := List.takeWhile_append_dropWhile (p := isBlank) (l := characters)
  obtain ⟨back, rightPart, backBlank⟩ := exists_blanks_behind (trimLeft characters)
  refine ⟨characters.takeWhile isBlank, back, ?_, List.all_eq_true.mp List.all_takeWhile, backBlank⟩
  rw [List.append_assoc, trim, ← rightPart]
  exact leftPart.symm

theorem mem_of_mem_trim {characters : List Char} {character : Char}
    (among : character ∈ trim characters) : character ∈ characters := by
  obtain ⟨front, back, shape, _⟩ := exists_blanks_around characters
  rw [shape]
  exact List.mem_append_left back (List.mem_append_right front among)

theorem trim_eq_self_iff (characters : List Char) :
    trim characters = characters ↔
      (∀ character ∈ characters.head?, isBlank character = false) ∧
        ∀ character ∈ characters.getLast?, isBlank character = false := by
  constructor
  · intro kept
    have whole : trimLeft characters = characters := by
      have shorter : (trim characters).length ≤ (trimLeft characters).length := by
        have dropped : ((trimLeft characters).reverse.dropWhile isBlank).length ≤
            (trimLeft characters).reverse.length := (List.dropWhile_suffix isBlank).length_le
        rw [List.length_reverse] at dropped
        rw [trim, trimRight, List.length_reverse]
        exact dropped
      rw [kept] at shorter
      exact (List.dropWhile_suffix isBlank).eq_of_length_le shorter
    refine ⟨fun character begins => ?_, fun character ends => ?_⟩
    · obtain ⟨rest, shape⟩ := List.head?_eq_some_iff.mp begins
      exact trimLeft_head_not_blank (whole.trans shape)
    · obtain ⟨front, shape⟩ := List.getLast?_eq_some_iff.mp ends
      rw [trim, whole] at kept
      exact trimRight_last_not_blank (kept.trans shape)
  · intro ends
    rw [trim, trimLeft_of_head ends.1, trimRight_of_last ends.2]

end ComponentStyles.Text
