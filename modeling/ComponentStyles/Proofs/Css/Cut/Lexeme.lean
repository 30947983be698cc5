import ComponentStyles.Proofs.Css.Cut.Literal
import ComponentStyles.Proofs.Css.Cut.Number
import ComponentStyles.Proofs.Css.Lexeme

/-!
A lexeme in front of a text that is cut off.

The main statement: a lexeme is read the same when the text behind it is cut short, unless it is a
lone backslash or a quoted value that a newline behind it breaks off, and the newline is cut off.
-/

namespace ComponentStyles.Css

open ComponentStyles.Text

theorem drop_readName (name more : List Char)
    (isName : (readName (name ++ more)).2 = name.length) :
    (name ++ more).drop (readName (name ++ more)).2 = more := by
  rw [isName, List.drop_left]

theorem lt_named_of_call {text : List Char} (call : ['('] <+: text.drop (readName text).2) :
    (readName text).2 < (Token.named text).2 := by
  obtain ⟨rest, behind⟩ := call
  rw [named_call behind.symm]
  split
  · split
    · dsimp only
      omega
    · exact Nat.lt_succ_self _
  · exact Nat.lt_succ_self _

theorem CutClean.behind_mark {left behind : List Char} (clean : CutClean left behind) {mark : Char}
    (plain : mark ≠ '\\') (more : List Char) : CutClean (mark :: (more ++ left)) behind where
  noEscape := clean.noEscape
  noQuote := clean.noQuote
  keepsLine := by
    intro _ lone
    exact plain (List.cons.inj lone).1

section Named

variable {left behind : List Char} (clean : CutClean left behind) {name more : List Char}
include clean

theorem named_identifier_cut (isName : (readName (name ++ (left ++ behind))).2 = name.length)
    (noCall : ¬ ['('] <+: left ++ behind) :
    Token.named (name ++ left) = Token.named (name ++ (left ++ behind)) := by
  have same := readName_cut clean isName
  have noCallLeft : ¬ ['('] <+: left := fun call =>
    noCall (call.trans (List.prefix_append left behind))
  rw [← drop_readName _ _ isName] at noCall
  rw [← drop_readName name left (by rw [same, isName])] at noCallLeft
  rw [named_identifier noCall, named_identifier noCallLeft, same]

theorem named_call_cut
    (isName : (readName (name ++ '(' :: (more ++ (left ++ behind)))).2 = name.length)
    (takes : (Token.named (name ++ '(' :: (more ++ (left ++ behind)))).2 =
      name.length + 1 + more.length) :
    Token.named (name ++ '(' :: (more ++ left)) =
      Token.named (name ++ '(' :: (more ++ (left ++ behind))) := by
  have behindName := drop_readName _ _ isName
  have same : readName (name ++ '(' :: (more ++ left)) =
      readName (name ++ '(' :: (more ++ (left ++ behind))) := by
    rw [← List.append_assoc, ← List.cons_append] at isName ⊢
    exact readName_cut (clean.behind_mark (by decide) more) isName
  have behindLeft := drop_readName name ('(' :: (more ++ left)) (by rw [same, isName])
  by_cases url : sameIgnoringCase
      (readName (name ++ '(' :: (more ++ (left ++ behind)))).1 "url" = true
  · cases read : readUrl (more ++ (left ++ behind)) with
    | some address =>
        rw [named_url behindName url read, isName] at takes
        have addressTakes : address.2 = more.length := Nat.add_left_cancel takes
        rw [named_url behindName url read,
          named_url behindLeft (same ▸ url) (readUrl_some_cut read addressTakes), same]
    | none =>
        rw [named_function behindName fun _ => read, isName] at takes
        obtain rfl : more = [] := List.eq_nil_of_length_eq_zero (Nat.add_left_cancel takes).symm
        rw [named_function behindName fun _ => read,
          named_function behindLeft fun _ => readUrl_none_cut clean read, same]
  · rw [named_function behindName fun isUrl => absurd isUrl url,
      named_function behindLeft fun isUrl => absurd (same ▸ isUrl) url, same]

theorem named_cut {front : List Char}
    (takes : (Token.named (front ++ (left ++ behind))).2 = front.length) :
    Token.named (front ++ left) = Token.named (front ++ (left ++ behind)) := by
  have within : (readName (front ++ (left ++ behind))).2 ≤ front.length :=
    takes ▸ readName_le_named _
  -- The front is the name and what was read behind it.
  obtain ⟨name, more, shape, length⟩ : ∃ name more, front = name ++ more ∧
      name.length = (readName (front ++ (left ++ behind))).2 :=
    ⟨_, _, (List.take_append_drop (readName (front ++ (left ++ behind))).2 front).symm,
      List.length_take_of_le within⟩
  subst shape
  have isName := length.symm
  rw [List.append_assoc] at takes isName
  rw [List.append_assoc, List.append_assoc]
  rw [List.length_append] at takes
  have behindName := drop_readName _ _ isName
  cases more with
  | nil =>
      rw [List.nil_append] at takes isName behindName ⊢
      have noCall : ¬ ['('] <+: left ++ behind := by
        intro call
        rw [← behindName] at call
        have further := lt_named_of_call call
        rw [List.length_nil] at takes
        omega
      exact named_identifier_cut clean isName noCall
  | cons mark more =>
      rw [List.cons_append] at takes isName behindName ⊢
      rw [List.cons_append]
      rw [List.length_cons] at takes
      have isCall : mark = '(' := by
        by_contra other
        have noCall : ¬ ['('] <+: mark :: (more ++ (left ++ behind)) := fun call =>
          other (List.cons_prefix_cons.mp call).1.symm
        rw [← behindName] at noCall
        rw [named_identifier noCall, isName] at takes
        omega
      subst isCall
      exact named_call_cut clean isName (takes.trans (by omega))

end Named

/-- A token that ends at the end of its line: with the newline cut off it may be another. -/
def Token.endsWithLine : Token → Bool
  | .delimiter sign => sign == '\\'
  | .brokenQuoted _ => true
  | _ => false

theorem eq_of_prefix_append {mark front behind : List Char} (begins : mark <+: front ++ behind)
    (length : front.length = mark.length) : front = mark := by
  have both := List.prefix_append front behind
  exact (List.prefix_of_prefix_length_le both begins length.le).eq_of_length length

theorem not_prefix_cut {mark left behind : List Char} (other : ¬ mark <+: left ++ behind) :
    ¬ mark <+: left := fun begins => other (begins.trans (List.prefix_append left behind))

theorem comparisonOr_of_not {sign : Char} {rest : List Char} (other : ¬ ['='] <+: rest) :
    Token.comparisonOr sign rest = (.delimiter sign, 1) := by
  unfold Token.comparisonOr
  split
  · exact absurd (List.prefix_append ['='] _) other
  · rfl

theorem comparisonOr_cut {sign : Char} {front left behind : List Char}
    (takes : (Token.comparisonOr sign (front ++ (left ++ behind))).2 = 1 + front.length) :
    Token.comparisonOr sign (front ++ left) =
      Token.comparisonOr sign (front ++ (left ++ behind)) := by
  by_cases equals : ['='] <+: front ++ (left ++ behind)
  · obtain ⟨rest, shape⟩ := equals
    rw [← shape] at takes
    have length : front.length = ['='].length := Nat.add_left_cancel takes.symm
    rw [eq_of_prefix_append ⟨rest, shape⟩ length]
    rfl
  · rw [comparisonOr_of_not equals] at takes ⊢
    obtain rfl : front = [] := List.eq_nil_of_length_eq_zero (Nat.add_left_cancel takes).symm
    exact comparisonOr_of_not (not_prefix_cut equals)

theorem hashed_begins {rest : List Char} (begins : beginsIdentifier rest = true) :
    Token.hashed rest = (.hash (readName rest).1 true, 1 + (readName rest).2) := by
  unfold Token.hashed
  dsimp only
  rw [if_pos begins]

def beginsHash (text : List Char) : Bool :=
  text.head?.any fun character => isDigit character || character == '-'

theorem hashed_not_begins {rest : List Char} (none : ¬ beginsIdentifier rest = true) :
    Token.hashed rest =
      if beginsHash rest then (.hash (readName rest).1 false, 1 + (readName rest).2)
      else (.delimiter '#', 1) := by
  unfold Token.hashed
  dsimp only
  rw [if_neg none]
  cases rest <;> rfl

theorem readName_pos_of_beginsHash {text : List Char} (begins : beginsHash text = true) :
    0 < (readName text).2 := by
  cases text with
  | nil => cases begins
  | cons first rest =>
      have either : (isDigit first || first == '-') = true := begins
      apply lt_nameFrom
      apply not_endsName_cons
      · intro same
        rw [same] at either
        exact absurd either (by decide)
      · rw [isNameCharacter, Bool.or_assoc, either, Bool.or_true]

theorem beginsHash_append {text : List Char} (nonempty : text ≠ []) (behind : List Char) :
    beginsHash (text ++ behind) = beginsHash text := by
  cases text with
  | nil => exact absurd rfl nonempty
  | cons first rest => rfl

theorem beginsIdentifier_front {front left behind : List Char} (clean : CutClean left behind)
    (begins : beginsIdentifier (front ++ (left ++ behind)) = true)
    (within : (readName (front ++ (left ++ behind))).2 ≤ front.length) :
    beginsIdentifier (front ++ left) = true := by
  rw [← List.append_assoc] at begins within
  apply beginsIdentifier_cut clean.noEscape begins
  rw [List.length_append]
  exact Nat.le_add_right_of_le within

theorem hashed_cut_of_begins {front left behind : List Char} (clean : CutClean left behind)
    (begins : beginsIdentifier (front ++ (left ++ behind)) = true)
    (takes : (Token.hashed (front ++ (left ++ behind))).2 = 1 + front.length) :
    Token.hashed (front ++ left) = Token.hashed (front ++ (left ++ behind)) := by
  rw [hashed_begins begins] at takes ⊢
  have name : (readName (front ++ (left ++ behind))).2 = front.length := Nat.add_left_cancel takes
  rw [hashed_begins (beginsIdentifier_front clean begins name.le), readName_cut clean name]

theorem hashed_cut_alone {left behind : List Char}
    (begins : ¬ beginsIdentifier (left ++ behind) = true)
    (still : ¬ beginsIdentifier left = true)
    (takes : (Token.hashed (left ++ behind)).2 = 1) :
    Token.hashed left = Token.hashed (left ++ behind) := by
  have noHash : ¬ beginsHash (left ++ behind) = true := by
    intro hash
    have further := readName_pos_of_beginsHash hash
    rw [hashed_not_begins begins, if_pos hash] at takes
    dsimp only at takes
    omega
  have noHashLeft : ¬ beginsHash left = true := by
    by_cases nothing : left = []
    · rw [nothing]
      exact Bool.false_ne_true
    · rwa [beginsHash_append nothing] at noHash
  rw [hashed_not_begins begins, hashed_not_begins still, if_neg noHash, if_neg noHashLeft]

theorem hashed_cut {front left behind : List Char} (clean : CutClean left behind)
    (takes : (Token.hashed (front ++ (left ++ behind))).2 = 1 + front.length) :
    Token.hashed (front ++ left) = Token.hashed (front ++ (left ++ behind)) := by
  by_cases begins : beginsIdentifier (front ++ (left ++ behind)) = true
  · exact hashed_cut_of_begins clean begins takes
  · -- A lone backslash behind the number sign is not read with it.
    have whole : CutClean (front ++ left) behind :=
      { clean with
        keepsLine := by
          intro line alone
          rcases List.append_eq_singleton_iff.mp alone with ⟨_, isLeft⟩ | ⟨rfl, rfl⟩
          · exact clean.keepsLine line isLeft
          · have noHash : ¬ beginsHash (['\\'] ++ ([] ++ behind)) = true := Bool.false_ne_true
            rw [hashed_not_begins begins, if_neg noHash] at takes
            exact absurd takes (by decide) }
    have still : ¬ beginsIdentifier (front ++ left) = true := by
      rw [← List.append_assoc] at begins
      exact not_beginsIdentifier_cut whole begins
    by_cases empty : front = []
    · subst empty
      exact hashed_cut_alone begins still takes
    · have same (more : List Char) : beginsHash (front ++ more) = beginsHash front :=
        beginsHash_append empty more
      rw [hashed_not_begins begins, same] at takes ⊢
      rw [hashed_not_begins still, same]
      split
      · rename_i hash
        rw [if_pos hash] at takes
        rw [readName_cut clean (Nat.add_left_cancel takes)]
      · rfl

section Scan

variable {first : Char} {front left behind : List Char}
  (takes : (Token.scan first (front ++ (left ++ behind))).2 = 1 + front.length)
include takes

theorem scan_blank_cut (blank : isSpace first = true) :
    Token.scan first (front ++ left) = Token.scan first (front ++ (left ++ behind)) := by
  rw [scan_blank blank] at takes ⊢
  have length : ((front ++ (left ++ behind)).takeWhile isSpace).length = front.length :=
    Nat.add_left_cancel takes
  have within : ((front ++ left ++ behind).takeWhile isSpace).length ≤ (front ++ left).length := by
    rw [List.append_assoc, length, List.length_append]
    exact Nat.le_add_right _ _
  rw [scan_blank blank, takeWhile_cut within, List.append_assoc]

theorem scan_number_cut (clean : CutClean left behind) (notBlank : ¬ isSpace first = true)
    (number : beginsNumber (first :: (front ++ (left ++ behind))) = true) :
    Token.scan first (front ++ left) = Token.scan first (front ++ (left ++ behind)) := by
  rw [scan_number notBlank number] at takes ⊢
  have whole : (readNumber (first :: front ++ (left ++ behind))).2 = (first :: front).length :=
    takes.trans (Nat.add_comm _ _)
  have still : beginsNumber (first :: (front ++ left)) = true := by
    have least := le_readNumber (first :: front ++ (left ++ behind))
    have within : numberWidth (first :: (front ++ left) ++ behind) ≤
        (first :: (front ++ left)).length := by
      rw [whole, List.cons_append, ← List.append_assoc] at least
      rw [List.cons_append, ← @List.cons_append _ first front left, List.length_append]
      exact Nat.le_add_right_of_le least
    rw [beginsNumber_cut within, List.cons_append, List.append_assoc]
    exact number
  rw [scan_number notBlank still]
  exact readNumber_cut clean whole

omit takes in
theorem not_beginsNumber_cut {text : List Char}
    (number : ¬ beginsNumber (text ++ behind) = true) : ¬ beginsNumber text = true := fun begins =>
  number (beginsNumber_append begins behind)

theorem scan_quote_cut (isQuote : first = '"' ∨ first = '\'')
    (keeps : beginsNewline behind = true → left = [] →
      (Token.scan first (front ++ (left ++ behind))).1.endsWithLine = false) :
    Token.scan first (front ++ left) = Token.scan first (front ++ (left ++ behind)) := by
  have escape : '\\' ≠ first := by
    rcases isQuote with rfl | rfl <;> decide
  rw [scan_quote isQuote] at takes keeps ⊢
  rw [scan_quote isQuote]
  have inside : (quotedFrom first (front ++ (left ++ behind)) [] 0).2 = 0 + front.length :=
    (Nat.add_left_cancel takes).trans (Nat.zero_add _).symm
  rw [quotedFrom_cut escape inside]
  intro line nothing value broken
  have kept := keeps line nothing
  rw [broken] at kept
  cases kept

theorem scan_at_cut (clean : CutClean left behind) (isAt : first = '@') :
    Token.scan first (front ++ left) = Token.scan first (front ++ (left ++ behind)) := by
  subst isAt
  rw [scan_at] at takes ⊢
  rw [scan_at]
  by_cases begins : beginsIdentifier (front ++ (left ++ behind)) = true
  · rw [if_pos begins] at takes ⊢
    have name := Nat.add_left_cancel takes
    rw [if_pos (beginsIdentifier_front clean begins name.le), readName_cut clean name]
  · rw [if_neg begins] at takes ⊢
    obtain rfl : front = [] := List.eq_nil_of_length_eq_zero (Nat.add_left_cancel takes).symm
    rw [List.nil_append] at begins ⊢
    rw [if_neg (not_beginsIdentifier_cut clean begins)]

theorem scan_slash_cut (isSlash : first = '/') :
    Token.scan first (front ++ left) = Token.scan first (front ++ (left ++ behind)) := by
  subst isSlash
  by_cases comment : ['*'] <+: front ++ (left ++ behind)
  · have step : ∀ others, Token.scan '/' ('*' :: others) =
        (.comment, 2 + commentWidth others 0) := fun others => rfl
    cases front with
    | nil =>
        obtain ⟨rest, shape⟩ := comment
        rw [← shape, List.singleton_append, step, List.length_nil] at takes
        dsimp only at takes
        omega
    | cons mark body =>
        obtain ⟨rfl, _⟩ := List.cons_prefix_cons.mp comment
        rw [List.cons_append, step, List.length_cons] at takes
        have inside : commentWidth (body ++ (left ++ behind)) 0 = 0 + body.length := by
          dsimp only at takes
          omega
        rw [List.cons_append, List.cons_append, step, step, commentWidth_cut inside, inside]
  · rw [Token.scan_slash comment] at takes ⊢
    obtain rfl : front = [] := List.eq_nil_of_length_eq_zero (Nat.add_left_cancel takes).symm
    exact Token.scan_slash (not_prefix_cut comment)

theorem scan_angle_cut (isAngle : first = '<') :
    Token.scan first (front ++ left) = Token.scan first (front ++ (left ++ behind)) := by
  subst isAngle
  by_cases markup : ['!', '-', '-'] <+: front ++ (left ++ behind)
  · obtain ⟨rest, shape⟩ := markup
    have length : front.length = ['!', '-', '-'].length := by
      rw [← shape] at takes
      exact Nat.add_left_cancel takes.symm
    rw [eq_of_prefix_append ⟨rest, shape⟩ length]
    rfl
  · rw [Token.scan_angle markup] at takes ⊢
    obtain rfl : front = [] := List.eq_nil_of_length_eq_zero (Nat.add_left_cancel takes).symm
    exact Token.scan_angle (not_prefix_cut markup)

theorem scan_named_cut (clean : CutClean left behind)
    (keeps : beginsNewline behind = true → left = [] →
      (Token.scan first (front ++ (left ++ behind))).1.endsWithLine = false)
    (step : ∀ more, more = front ++ left ∨ more = front ++ (left ++ behind) →
      Token.scan first more =
        if beginsIdentifier (first :: more) then Token.named (first :: more)
        else (.delimiter first, 1)) :
    Token.scan first (front ++ left) = Token.scan first (front ++ (left ++ behind)) := by
  rw [step _ (.inr rfl)] at takes keeps ⊢
  rw [step _ (.inl rfl)]
  by_cases begins : beginsIdentifier (first :: (front ++ (left ++ behind))) = true
  · rw [if_pos begins] at takes ⊢
    have whole : (Token.named (first :: front ++ (left ++ behind))).2 = (first :: front).length :=
      takes.trans (Nat.add_comm _ _)
    have within := (readName_le_named (first :: front ++ (left ++ behind))).trans whole.le
    have still := @beginsIdentifier_front (first :: front) _ _ clean begins within
    exact (if_pos still).trans (named_cut clean whole)
  · rw [if_neg begins] at takes keeps ⊢
    obtain rfl : front = [] := List.eq_nil_of_length_eq_zero (Nat.add_left_cancel takes).symm
    have whole : CutClean (first :: left) behind :=
      { clean with
        keepsLine := by
          intro line alone
          obtain ⟨rfl, nothing⟩ := List.cons.inj alone
          exact absurd (keeps line nothing) (by decide) }
    exact if_neg (not_beginsIdentifier_cut whole begins)

theorem scan_hyphen_cut (clean : CutClean left behind)
    (number : ¬ beginsNumber (first :: (front ++ (left ++ behind))) = true)
    (isHyphen : first = '-')
    (keeps : beginsNewline behind = true → left = [] →
      (Token.scan first (front ++ (left ++ behind))).1.endsWithLine = false) :
    Token.scan first (front ++ left) = Token.scan first (front ++ (left ++ behind)) := by
  subst isHyphen
  by_cases arrow : ['-', '>'] <+: front ++ (left ++ behind)
  · obtain ⟨rest, shape⟩ := arrow
    have length : front.length = ['-', '>'].length := by
      rw [← shape] at takes
      exact Nat.add_left_cancel takes.symm
    rw [eq_of_prefix_append ⟨rest, shape⟩ length]
    rfl
  · apply scan_named_cut takes clean keeps
    intro more either
    rcases either with rfl | rfl
    · rw [← List.append_assoc] at arrow number
      exact Token.scan_hyphen (not_beginsNumber_cut number) (not_prefix_cut arrow)
    · exact Token.scan_hyphen number arrow

theorem scan_plain_cut (clean : CutClean left behind) (plain : first ∉ marks)
    (notBlank : ¬ isSpace first = true)
    (number : ¬ beginsNumber (first :: (front ++ (left ++ behind))) = true)
    (keeps : beginsNewline behind = true → left = [] →
      (Token.scan first (front ++ (left ++ behind))).1.endsWithLine = false) :
    Token.scan first (front ++ left) = Token.scan first (front ++ (left ++ behind)) := by
  apply scan_named_cut takes clean keeps
  intro more either
  apply scan_plain plain notBlank
  rcases either with rfl | rfl
  · rw [← List.append_assoc] at number
    exact not_beginsNumber_cut number
  · exact number

/-- A lexeme that ends with the front is read the same when the text behind is cut short. -/
theorem scan_cut (clean : CutClean left behind)
    (keeps : beginsNewline behind = true → left = [] →
      (Token.scan first (front ++ (left ++ behind))).1.endsWithLine = false) :
    Token.scan first (front ++ left) = Token.scan first (front ++ (left ++ behind)) := by
  by_cases blank : isSpace first = true
  · exact scan_blank_cut takes blank
  by_cases number : beginsNumber (first :: (front ++ (left ++ behind))) = true
  · exact scan_number_cut takes clean blank number
  by_cases quote : first = '"' ∨ first = '\''
  · exact scan_quote_cut takes quote keeps
  by_cases hash : first = '#'
  · subst hash
    exact hashed_cut clean takes
  by_cases commercial : first = '@'
  · exact scan_at_cut takes clean commercial
  by_cases slash : first = '/'
  · exact scan_slash_cut takes slash
  by_cases angle : first = '<'
  · exact scan_angle_cut takes angle
  by_cases hyphen : first = '-'
  · exact scan_hyphen_cut takes clean number hyphen keeps
  by_cases sign : first ∈ ['$', '*', '^', '|', '~']
  · rw [scan_sign sign] at takes ⊢
    rw [scan_sign sign]
    exact comparisonOr_cut takes
  by_cases single : first ∈ ['(', ')', '[', ']', '\x7b', '\x7d', ',', ':', ';']
  · exact scan_single single _ _
  refine scan_plain_cut takes clean (not_mem_marks quote ?_ sign single) blank number keeps
  simp only [List.mem_cons, List.not_mem_nil, hash, commercial, slash, angle, hyphen, or_false,
    not_false_eq_true]

end Scan

end ComponentStyles.Css
