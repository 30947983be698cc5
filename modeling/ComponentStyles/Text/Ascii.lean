/-!
ASCII letters and digits.

Names of at-rules, functions and languages are compared without regard to the case of ASCII
letters; every other character is compared as it is.
-/

namespace ComponentStyles.Text

def lowerAscii (character : Char) : Char :=
  if 'A' ≤ character ∧ character ≤ 'Z' then Char.ofNat (character.toNat + 32) else character

def lowercased (text : String) : String :=
  String.ofList (text.toList.map lowerAscii)

def sameIgnoringCase (left right : String) : Bool :=
  left.toList.map lowerAscii == right.toList.map lowerAscii

def isDigit (character : Char) : Bool :=
  '0' ≤ character && character ≤ '9'

def isLetter (character : Char) : Bool :=
  ('a' ≤ character && character ≤ 'z') || ('A' ≤ character && character ≤ 'Z')

def hexValue? (character : Char) : Option Nat :=
  if '0' ≤ character ∧ character ≤ '9' then some (character.toNat - 48)
  else if 'a' ≤ character ∧ character ≤ 'f' then some (character.toNat - 87)
  else if 'A' ≤ character ∧ character ≤ 'F' then some (character.toNat - 55)
  else none

def isHexDigit (character : Char) : Bool :=
  (hexValue? character).isSome

/-- The number that a run of digits to base `base` writes; anything else counts as zero. -/
def digitsValue (base : Nat) (digits : List Char) : Nat :=
  digits.foldl (fun value digit => value * base + (hexValue? digit).getD 0) 0

def digitsUpTo? (base limit : Nat) (digits : List Char) : Option Nat :=
  digits.foldlM (fun value digit =>
    let longer := value * base + (hexValue? digit).getD 0
    if longer ≤ limit then some longer else none) 0

theorem eq_ofNat_of_between (low high : Nat) {character : Char} (least : low ≤ character.toNat)
    (most : character.toNat ≤ high) :
    ∃ step < high + 1 - low, character = Char.ofNat (low + step) := by
  refine ⟨character.toNat - low, by omega, ?_⟩
  rw [Nat.add_sub_cancel' least, Char.ofNat_toNat]

theorem isDigit_iff {character : Char} :
    isDigit character = true ↔ character ∈ "0123456789".toList := by
  constructor
  · intro digit
    have range : '0' ≤ character ∧ character ≤ '9' := by simpa [isDigit] using digit
    obtain ⟨step, inside, same⟩ := eq_ofNat_of_between 48 57 range.1 range.2
    have listed : ∀ step < 10, Char.ofNat (48 + step) ∈ "0123456789".toList := by decide
    rw [same]
    exact listed step inside
  · have digits : "0123456789".toList.all isDigit = true := by decide
    exact List.all_eq_true.mp digits character

def letterCases : List (Char × Char) :=
  "ABCDEFGHIJKLMNOPQRSTUVWXYZ".toList.zip "abcdefghijklmnopqrstuvwxyz".toList

/-- The character is the given one, or the capital of the given letter. -/
def CaseOf (character given : Char) : Prop :=
  character = given ∨ (character, given) ∈ letterCases
  deriving Decidable

/-- The text is the given one, some of its letters perhaps in capitals. -/
def CasesOf : List Char → List Char → Prop
  | [], [] => True
  | character :: rest, given :: others => CaseOf character given ∧ CasesOf rest others
  | _, _ => False

instance decidableCasesOf : (text given : List Char) → Decidable (CasesOf text given)
  | [], [] => isTrue trivial
  | [], _ :: _ => isFalse id
  | _ :: _, [] => isFalse id
  | character :: rest, given :: others =>
      have := decidableCasesOf rest others
      inferInstanceAs (Decidable (CaseOf character given ∧ CasesOf rest others))

def isCapital (character : Char) : Bool :=
  'A' ≤ character && character ≤ 'Z'

theorem lowerAscii_of_not_isCapital {character : Char} (small : isCapital character = false) :
    lowerAscii character = character := by
  refine if_neg fun capital => ?_
  rw [isCapital, decide_eq_true capital.1, decide_eq_true capital.2] at small
  cases small

theorem lowerAscii_eq_iff {character given : Char} (small : isCapital given = false) :
    lowerAscii character = given ↔ CaseOf character given := by
  constructor
  · rintro rfl
    by_cases capital : 'A' ≤ character ∧ character ≤ 'Z'
    · have paired : ∀ step < 26,
          (Char.ofNat (65 + step), Char.ofNat ((Char.ofNat (65 + step)).toNat + 32)) ∈
            letterCases := by decide
      obtain ⟨step, inside, same⟩ := eq_ofNat_of_between 65 90 capital.1 capital.2
      rw [lowerAscii, if_pos capital, same]
      exact Or.inr (paired step inside)
    · exact Or.inl (if_neg capital).symm
  · rintro (rfl | pair)
    · exact lowerAscii_of_not_isCapital small
    · have lowered : letterCases.all (fun pair => lowerAscii pair.1 == pair.2) = true := by decide
      exact beq_iff_eq.mp (List.all_eq_true.mp lowered (character, given) pair)

theorem map_lowerAscii_eq_iff {text given : List Char} (small : given.any isCapital = false) :
    text.map lowerAscii = given ↔ CasesOf text given := by
  induction text generalizing given with
  | nil => cases given <;> simp [CasesOf]
  | cons character rest inductionHypothesis =>
      cases given with
      | nil => simp [CasesOf]
      | cons letter others =>
          rw [List.any_cons, Bool.or_eq_false_iff] at small
          have first : lowerAscii character = letter ↔ CaseOf character letter :=
            lowerAscii_eq_iff small.1
          have behind : rest.map lowerAscii = others ↔ CasesOf rest others :=
            inductionHypothesis small.2
          rw [List.map_cons, List.cons.injEq, first, behind, CasesOf]

theorem lowercased_eq_iff {text given : String} (small : given.toList.any isCapital = false) :
    lowercased text = given ↔ CasesOf text.toList given.toList := by
  rw [← map_lowerAscii_eq_iff small, lowercased, ← String.toList_inj, String.toList_ofList]

theorem contains_lowercased_iff {text : String} {keywords : List String}
    (small : keywords.all (fun keyword => !keyword.toList.any isCapital) = true) :
    keywords.contains (lowercased text) = true ↔
      ∃ keyword ∈ keywords, CasesOf text.toList keyword.toList := by
  have each : ∀ keyword ∈ keywords, keyword.toList.any isCapital = false := by
    intro keyword listed
    exact (Bool.not_eq_true' _).mp (List.all_eq_true.mp small keyword listed)
  rw [List.contains_iff_mem]
  constructor
  · intro listed
    exact ⟨lowercased text, listed, (lowercased_eq_iff (each _ listed)).mp rfl⟩
  · rintro ⟨keyword, listed, spelled⟩
    rw [(lowercased_eq_iff (each keyword listed)).mpr spelled]
    exact listed

theorem sameIgnoringCase_iff {text given : String}
    (small : given.toList.any isCapital = false) :
    sameIgnoringCase text given = true ↔ CasesOf text.toList given.toList := by
  have own : ∀ letter ∈ given.toList, lowerAscii letter = id letter :=
    fun letter inside => lowerAscii_of_not_isCapital
      (Bool.eq_false_iff.mpr (List.any_eq_false.mp small letter inside))
  have kept : given.toList.map lowerAscii = given.toList :=
    (List.map_congr_left own).trans (List.map_id _)
  rw [← map_lowerAscii_eq_iff small, sameIgnoringCase, beq_iff_eq, kept]

end ComponentStyles.Text
