import ComponentStyles.Css.Reader
import ComponentStyles.Proofs.Css.Trimming

/-!
What the header of an at-rule means.

A header is put together from a keyword, decoded, and the trimmed text behind it.  The keywords of
the rules with descriptors are made of letters and hyphens, so the header reads as the keyword and
that text.
-/

namespace ComponentStyles.Css

open ComponentStyles.Text

def isPlainInName (character : Char) : Bool :=
  isLetter character || character == '-'

theorem nameFrom_plain {name rest : List Char}
    (plain : ∀ character ∈ name, isPlainInName character = true) (ends : endsName rest = true)
    (read : List Char) (width : Nat) :
    nameFrom (name ++ rest) read width =
      (String.ofList (read.reverse ++ name), width + name.length) := by
  induction name generalizing read width with
  | nil => rw [List.nil_append, nameFrom_of_endsName ends, List.append_nil, List.length_nil,
      Nat.add_zero]
  | cons first others inductionHypothesis =>
      obtain ⟨isPlain, othersPlain⟩ := List.forall_mem_cons.mp plain
      have inside : isNameCharacter first = true := by
        rcases Bool.or_eq_true_iff.mp isPlain with letter | hyphen
        · rw [isNameCharacter, isNameStart, letter]
          rfl
        · rw [beq_iff_eq.mp hyphen]
          decide
      have other (mark : Char) (apart : isPlainInName mark = false) : first ≠ mark := by
        intro same
        rw [same, apart] at isPlain
        cases isPlain
      rw [List.cons_append, nameFrom_inside (other '\\' (by decide)) (other '\x00' (by decide))
        inside, inductionHypothesis othersPlain, List.reverse_cons, List.append_assoc,
        List.singleton_append, List.length_cons, Nat.add_right_comm, Nat.add_assoc]

theorem isLetter_of_lowerAscii {character : Char}
    (letter : isLetter (lowerAscii character) = true) : isLetter character = true := by
  by_cases capital : 'A' ≤ character ∧ character ≤ 'Z'
  · rw [isLetter, decide_eq_true capital.1, decide_eq_true capital.2]
    exact Bool.or_true _
  · rw [lowerAscii, if_neg capital] at letter
    exact letter

theorem isPlainInName_of_lowerAscii {character : Char}
    (plain : isPlainInName (lowerAscii character) = true) : isPlainInName character = true := by
  by_cases capital : 'A' ≤ character ∧ character ≤ 'Z'
  · rw [isPlainInName, isLetter, decide_eq_true capital.1, decide_eq_true capital.2]
    exact congrArg (· || _) (Bool.or_true _)
  · rw [lowerAscii, if_neg capital] at plain
    exact plain

theorem keyword_of_descriptors {name : String} (kind : AtRuleKind.of name = .descriptors) :
    name.toList.map lowerAscii = "font-face".toList ∨
      name.toList.map lowerAscii = "page".toList := by
  obtain ⟨keyword, listed, spelled⟩ := AtRuleKind.of_eq_descriptors_iff.mp kind
  simp only [List.mem_cons, List.not_mem_nil, or_false] at listed
  rcases listed with rfl | rfl
  · exact .inl ((map_lowerAscii_eq_iff (by decide)).mpr spelled)
  · exact .inr ((map_lowerAscii_eq_iff (by decide)).mpr spelled)

/-- Keywords of rules with descriptors are made of letters and hyphens, a letter in front. -/
theorem keyword_plain {name : String} (kind : AtRuleKind.of name = .descriptors) :
    (∀ character ∈ name.toList, isPlainInName character = true) ∧
      ∃ first rest, name.toList = first :: rest ∧ isLetter first = true := by
  have plain {keyword : List Char} (same : name.toList.map lowerAscii = keyword)
      (isPlain : keyword.all isPlainInName = true) :
      ∀ character ∈ name.toList, isPlainInName character = true := by
    intro character among
    apply isPlainInName_of_lowerAscii
    apply List.all_eq_true.mp isPlain
    rw [← same]
    exact List.mem_map_of_mem among
  have begins {letter : Char} {others : List Char}
      (same : name.toList.map lowerAscii = letter :: others) (isLetter' : isLetter letter = true) :
      ∃ first rest, name.toList = first :: rest ∧ isLetter first = true := by
    obtain ⟨first, rest, shape, isFirst, _⟩ := List.map_eq_cons_iff.mp same
    rw [← isFirst] at isLetter'
    exact ⟨first, rest, shape, isLetter_of_lowerAscii isLetter'⟩
  rcases keyword_of_descriptors kind with same | same
  · exact ⟨plain same (by decide), begins same (by decide)⟩
  · exact ⟨plain same (by decide), begins same (by decide)⟩

theorem lexemes_keyword {name : String} (kind : AtRuleKind.of name = .descriptors)
    (rest : List Char) (ends : endsName rest = true) :
    lexemes ('@' :: (name.toList ++ rest)) =
      { token := .atKeyword name, text := '@' :: name.toList } :: lexemes rest := by
  obtain ⟨plain, first, others, isName, letter⟩ := keyword_plain kind
  apply lexemes_of_scan
  have begins : beginsIdentifier (name.toList ++ rest) = true := by
    have starts : isNameStart first = true := by
      rw [isNameStart, letter]
      rfl
    have apart (mark : Char) (other : isLetter mark = false) : first ≠ mark := by
      intro same
      rw [same, other] at letter
      cases letter
    rw [isName, List.cons_append]
    simp [beginsIdentifier, apart '-' (by decide), apart '\\' (by decide), starts]
  have read : readName (name.toList ++ rest) = (name, name.toList.length) := by
    rw [readName, nameFrom_plain plain ends, List.reverse_nil, List.nil_append, String.ofList_toList,
      Nat.zero_add]
  rw [scan_at, if_pos begins, read]

theorem meanings_of_sameBehindBlank {read back : List Lexeme} (same : SameBehindBlank read back) :
    meanings read = meanings back := by
  rcases same with rfl | ⟨blank, isBlank, rfl⟩
  · rfl
  · have separator : ∀ lexeme ∈ [blank], lexeme.isSeparator = true := by
      intro lexeme among
      rw [List.mem_singleton.mp among, Lexeme.isSeparator, isBlank]
      rfl
    rw [← List.singleton_append, meanings_append, meanings_of_separators separator,
      List.nil_append]

/-- A header that is put together from a keyword and a prelude means what they do. -/
theorem meanings_header {name : String} (kind : AtRuleKind.of name = .descriptors)
    (prelude : String) :
    meanings (lexemes (headerOf name prelude).toList) =
      (.atKeyword name, []) :: meanings (lexemes prelude.toList) := by
  have keyword (rest : List Lexeme) :
      meanings ({ token := .atKeyword name, text := '@' :: name.toList } :: rest) =
        (.atKeyword name, []) :: meanings rest := meanings_cons rfl rest
  unfold headerOf
  by_cases empty : prelude.isEmpty = true
  · have alone := lexemes_keyword kind [] rfl
    rw [List.append_nil] at alone
    rw [if_pos empty, String.toList_append, String.isEmpty_iff.mp empty]
    exact (congrArg meanings alone).trans (keyword _)
  · have joined := lexemes_keyword kind (' ' :: prelude.toList) rfl
    have blank := @lexemes_of_blank ' ' (by decide) prelude.toList
    have spaced : SameBehindBlank (lexemes (' ' :: prelude.toList))
        (lexemes (prelude.toList.dropWhile isSpace)) := .inr ⟨_, rfl, blank⟩
    have same : meanings (lexemes (' ' :: prelude.toList)) =
        meanings (lexemes prelude.toList) :=
      (meanings_of_sameBehindBlank spaced).trans
        (meanings_of_sameBehindBlank (sameBehindBlank_dropWhile prelude.toList)).symm
    have shape : ("@" ++ name ++ " " ++ prelude).toList =
        '@' :: (name.toList ++ ' ' :: prelude.toList) := by
      simp
    rw [if_neg empty, shape, joined, keyword, same]

end ComponentStyles.Css
