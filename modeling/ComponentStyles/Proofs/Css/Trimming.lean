import ComponentStyles.Proofs.Css.Cut.Lexemes
import ComponentStyles.Proofs.Css.Joining
import ComponentStyles.Proofs.Css.Stretch

/-!
What a trimmed stretch of lexemes means.

Lexemes are cut at the white space of the grammar, while a text is trimmed of every blank character.
A stretch that a bracket, a semicolon or the end of the text ends means the same when its text
stands alone, and when that is trimmed too, if no blank is part of its first lexeme's beginning and
its last lexeme means the same without the blanks at its end.
-/

namespace ComponentStyles.Css

open ComponentStyles.Text

/-- The token of a lexeme, and for a number its characters, as the token does not tell them. -/
def Lexeme.meaning (lexeme : Lexeme) : Token × List Char :=
  match lexeme.token with
  | .number | .percentage | .dimension _ =>
      (lexeme.token, lexeme.text.take (numberWidth lexeme.text))
  | token => (token, [])

theorem Lexeme.meaning_token (lexeme : Lexeme) : lexeme.meaning.1 = lexeme.token := by
  unfold Lexeme.meaning
  split <;> rfl

/-- The meanings of lexemes, white space and comments aside. -/
def meanings (stretch : List Lexeme) : List (Token × List Char) :=
  (stretch.map Lexeme.meaning).filter fun meaning => !meaning.1.isSeparator

theorem meanings_append (front back : List Lexeme) :
    meanings (front ++ back) = meanings front ++ meanings back := by
  unfold meanings
  rw [List.map_append, List.filter_append]

theorem meanings_cons {lexeme : Lexeme} (plain : lexeme.isSeparator = false) (rest : List Lexeme) :
    meanings (lexeme :: rest) = lexeme.meaning :: meanings rest := by
  unfold meanings
  rw [List.map_cons, List.filter_cons_of_pos]
  rw [Lexeme.meaning_token, ← Lexeme.isSeparator, plain]
  rfl

theorem meanings_of_separators {stretch : List Lexeme}
    (separators : ∀ lexeme ∈ stretch, lexeme.isSeparator = true) : meanings stretch = [] := by
  apply List.filter_eq_nil_iff.mpr
  intro meaning among
  obtain ⟨lexeme, inside, rfl⟩ := List.mem_map.mp among
  rw [Lexeme.meaning_token, ← Lexeme.isSeparator, separators lexeme inside]
  exact Bool.false_ne_true

def Lexeme.isWhite (lexeme : Lexeme) : Bool :=
  lexeme.token == .blank

def leading? (stretch : List Lexeme) : Option Lexeme :=
  stretch.find? fun lexeme => !lexeme.isWhite

def trailing? (stretch : List Lexeme) : Option Lexeme :=
  leading? stretch.reverse

def Lexeme.beginsBlank (lexeme : Lexeme) : Bool :=
  lexeme.text.head?.any isBlank

/-- Trimming the text of the stretch takes no part of a lexeme that tells what it means. -/
structure KeepsEdges (stretch : List Lexeme) : Prop where
  leading : ∀ lexeme ∈ leading? stretch, lexeme.beginsBlank = false
  trailing : ∀ lexeme ∈ trailing? stretch,
    (lexemes (trimRight lexeme.text)).map Lexeme.meaning = [lexeme.meaning]

instance (stretch : List Lexeme) : Decidable (KeepsEdges stretch) :=
  decidable_of_iff
    ((∀ lexeme ∈ leading? stretch, lexeme.beginsBlank = false) ∧
      ∀ lexeme ∈ trailing? stretch,
        (lexemes (trimRight lexeme.text)).map Lexeme.meaning = [lexeme.meaning])
    ⟨fun ends => ⟨ends.1, ends.2⟩, fun kept => ⟨kept.leading, kept.trailing⟩⟩

def stretchEnds : List Delimiter :=
  [.curlyBlock, .semicolon, .closing .curly]

def Token.bounds (token : Token) : Bool :=
  token == .blank || isDelimiter stretchEnds token

open Cursor

theorem quotedFrom_bounds {quote : Char} (text read : List Char) (width : Nat) :
    (quotedFrom quote text read width).1.bounds = false := by
  fun_induction quotedFrom quote text read width <;> first | rfl | assumption

theorem urlEnd_bounds (address : String) (text : List Char) (width : Nat) :
    (urlEnd address text width).1.bounds = false := by
  fun_induction urlEnd address text width <;> first | rfl | assumption

theorem urlFrom_bounds (text read : List Char) (width : Nat) :
    (urlFrom text read width).1.bounds = false := by
  fun_induction urlFrom text read width <;> first | rfl | assumption | exact urlEnd_bounds _ _ _

theorem readUrl_bounds {text : List Char} {address : Token × Nat}
    (read : readUrl text = some address) : address.1.bounds = false := by
  cases shape : text.dropWhile isSpace with
  | nil =>
      rw [readUrl_nil shape, Option.some.injEq] at read
      rw [← read]
      rfl
  | cons first rest =>
      rw [readUrl_cons shape] at read
      split at read
      · cases read
      · split at read
        · rw [← Option.some.inj read]
          rfl
        · rw [← Option.some.inj read]
          exact urlFrom_bounds _ _ _

theorem named_bounds (text : List Char) : (Token.named text).1.bounds = false := by
  unfold Token.named
  dsimp only
  split
  · split
    · split
      · rename_i read
        have address := readUrl_bounds read
        exact address
      · rfl
    · rfl
  · rfl

theorem readNumber_bounds (text : List Char) : (readNumber text).1.bounds = false := by
  unfold readNumber
  dsimp only
  split
  · rfl
  · split <;> rfl

theorem hashed_bounds (rest : List Char) : (Token.hashed rest).1.bounds = false := by
  by_cases begins : beginsIdentifier rest = true
  · rw [hashed_begins begins]
    rfl
  · rw [hashed_not_begins begins]
    split <;> rfl

theorem comparisonOr_bounds (sign : Char) (rest : List Char) :
    (Token.comparisonOr sign rest).1.bounds = false := by
  unfold Token.comparisonOr
  split <;> rfl

theorem named_or_delimiter_bounds (text : List Char) (sign : Char) :
    (if beginsIdentifier text then Token.named text else (.delimiter sign, 1)).1.bounds =
      false := by
  split
  · exact named_bounds text
  · rfl

theorem Token.ne_blank_of_bounds {token : Token} (inside : token.bounds = false) :
    token ≠ .blank := by
  intro isBlank
  rw [isBlank] at inside
  cases inside

theorem scan_ne_blank {first : Char} (plain : ¬ isSpace first = true) (rest : List Char) :
    (Token.scan first rest).1 ≠ .blank := by
  by_cases number : beginsNumber (first :: rest) = true
  · rw [scan_number plain number]
    exact Token.ne_blank_of_bounds (readNumber_bounds _)
  unfold Token.scan
  dsimp only
  rw [if_neg plain, if_neg number]
  split
  iterate 2 exact Token.ne_blank_of_bounds (quotedFrom_bounds _ _ _)
  · exact Token.ne_blank_of_bounds (hashed_bounds rest)
  iterate 5 exact Token.ne_blank_of_bounds (comparisonOr_bounds _ _)
  iterate 9 exact nofun
  · split
    · exact nofun
    · exact Token.ne_blank_of_bounds (named_or_delimiter_bounds _ _)
  iterate 3 split <;> exact nofun
  · exact Token.ne_blank_of_bounds (named_or_delimiter_bounds _ _)

structure StopsStretch (text : List Char) : Prop where
  noSpace : ∀ character ∈ text.head?, isSpace character = false
  noEscape : text.head? ≠ some '\\'
  noQuote : ∀ character ∈ text.head?, character ≠ '"' ∧ character ≠ '\''

theorem stopsStretch_of_atDelimiter {text : List Char}
    (stops : AtDelimiter stretchEnds (lexemes text)) : StopsStretch text := by
  cases text with
  | nil =>
      exact ⟨nofun, nofun, nofun⟩
  | cons first rest =>
      have ends : isDelimiter stretchEnds (Token.scan first rest).1 = true :=
        stops _ _ (lexemes_cons first rest)
      have noSpace : ¬ isSpace first = true := by
        intro space
        rw [scan_blank space] at ends
        cases ends
      have noQuote : ¬(first = '"' ∨ first = '\'') := by
        intro quote
        have apart := @quotedFrom_bounds first rest [] 0
        rw [scan_quote quote] at ends
        rw [Token.bounds, ends, Bool.or_true] at apart
        cases apart
      have noEscape : first ≠ '\\' := by
        intro escape
        subst escape
        have noNumber : ¬ beginsNumber ('\\' :: rest) = true := Bool.false_ne_true
        have apart := named_or_delimiter_bounds ('\\' :: rest) '\\'
        rw [scan_plain (by decide) (by decide) noNumber] at ends
        rw [Token.bounds, ends, Bool.or_true] at apart
        cases apart
      constructor
      · intro character isFirst
        rw [← Option.some.inj isFirst]
        exact Bool.eq_false_iff.mpr noSpace
      · intro escape
        exact noEscape (Option.some.inj escape)
      · intro character isFirst
        rw [← Option.some.inj isFirst]
        exact not_or.mp noQuote

theorem StopsStretch.noLine {text : List Char} (stops : StopsStretch text) :
    ¬ beginsNewline text = true := by
  intro line
  cases text with
  | nil => cases line
  | cons first rest =>
      have isLine : isNewline first = true := line
      have space := stops.noSpace first rfl
      rw [isSpace, isLine, Bool.or_true] at space
      cases space

theorem isBlank_of_isSpace {character : Char} (space : isSpace character = true) :
    isBlank character = true := by
  simp only [isSpace, isNewline, Bool.or_eq_true, beq_iff_eq] at space
  rcases space with (rfl | rfl) | (rfl | rfl) | rfl <;> decide

/-- Blanks in front of the end of a stretch are cut off cleanly, but for a newline behind a
backslash. -/
theorem StopsStretch.cutClean {left blanks text : List Char} (stops : StopsStretch text)
    (allBlank : ∀ character ∈ blanks, isBlank character = true)
    (keepsLine : beginsNewline (blanks ++ text) = true → left ≠ ['\\']) :
    CutClean left (blanks ++ text) where
  keepsLine := keepsLine
  noEscape := by
    intro escape
    cases blanks with
    | nil => exact stops.noEscape escape
    | cons first rest =>
        have blank := allBlank first List.mem_cons_self
        rw [Option.some.inj escape] at blank
        exact absurd blank (by decide)
  noQuote := by
    intro character rest shape
    rw [List.dropWhile_append] at shape
    split at shape
    · have kept : text.dropWhile isSpace = text := by
        cases text with
        | nil => rfl
        | cons first others =>
            exact List.dropWhile_cons_of_neg (by simp [stops.noSpace first rfl])
      rw [kept] at shape
      exact stops.noQuote character (by rw [shape]; rfl)
    · rename_i some
      cases parts : blanks.dropWhile isSpace with
      | nil =>
          rw [parts] at some
          exact absurd rfl some
      | cons first others =>
          rw [parts] at shape
          have among : first ∈ blanks :=
            (List.dropWhile_suffix isSpace).subset (parts ▸ List.mem_cons_self)
          rw [← (List.cons.inj shape).1]
          have blank := allBlank first among
          constructor
          all_goals
            intro same
            rw [same] at blank
            exact absurd blank (by decide)

/-- A stretch reads the same when its text stands alone. -/
theorem lexemes_stretch {text : List Char} {stretch behind : List Lexeme}
    (shape : lexemes text = stretch ++ behind) (stops : AtDelimiter stretchEnds behind) :
    lexemes (stretch.flatMap Lexeme.text) = stretch := by
  have behindShape := lexemes_suffix shape
  rw [← behindShape] at stops
  have ends := stopsStretch_of_atDelimiter stops
  have noLine : ¬ beginsNewline ([] ++ behind.flatMap Lexeme.text) = true := ends.noLine
  have clean : CutClean [] ([] ++ behind.flatMap Lexeme.text) :=
    ends.cutClean (fun _ none => nomatch none) fun line => absurd line noLine
  have whole : lexemes (stretch.flatMap Lexeme.text ++ ([] ++ behind.flatMap Lexeme.text)) =
      stretch ++ behind := by
    rw [List.nil_append, ← List.flatMap_append, ← shape, lexemes_flatMap_text]
  have cut := @lexemes_cut stretch behind [] _ clean (fun line => absurd line noLine) whole
  rw [List.append_nil, lexemes_nil, List.append_nil] at cut
  exact cut

/-! ### The text of a trimmed stretch -/

theorem leading?_white_append {lead : List Lexeme}
    (white : ∀ lexeme ∈ lead, lexeme.isWhite = true) (rest : List Lexeme) :
    leading? (lead ++ rest) = leading? rest := by
  have none : lead.find? (fun lexeme => !lexeme.isWhite) = none := by
    apply List.find?_eq_none.mpr
    intro lexeme among
    simpa using white lexeme among
  unfold leading?
  rw [List.find?_append, none, Option.none_or]

theorem leading?_cons {first : Lexeme} (plain : first.isWhite = false) (rest : List Lexeme) :
    leading? (first :: rest) = some first := by
  apply List.find?_cons_of_pos
  rw [plain]
  rfl

theorem exists_lead (stretch : List Lexeme) :
    ∃ lead rest, stretch = lead ++ rest ∧ (∀ lexeme ∈ lead, lexeme.isWhite = true) ∧
      ∀ first ∈ rest.head?, first.isWhite = false := by
  refine ⟨stretch.takeWhile Lexeme.isWhite, stretch.dropWhile Lexeme.isWhite,
    List.takeWhile_append_dropWhile.symm, List.all_eq_true.mp List.all_takeWhile, ?_⟩
  intro first isFirst
  have stopped := List.head?_dropWhile_not Lexeme.isWhite stretch
  rw [Option.mem_def.mp isFirst] at stopped
  simpa using stopped

/-- A stretch is white, or white space stands around a part of it that begins and ends with other
lexemes. -/
theorem white_or_core (stretch : List Lexeme) :
    (∀ lexeme ∈ stretch, lexeme.isWhite = true) ∨
      ∃ lead front last trail, stretch = lead ++ (front ++ last :: trail) ∧
        (∀ lexeme ∈ lead, lexeme.isWhite = true) ∧ (∀ lexeme ∈ trail, lexeme.isWhite = true) ∧
        leading? stretch = (front ++ [last]).head? ∧ trailing? stretch = some last := by
  obtain ⟨after, before, parts, afterWhite, notWhite⟩ := exists_lead stretch.reverse
  have straight : stretch = before.reverse ++ after.reverse := by
    rw [← List.reverse_append, ← parts, List.reverse_reverse]
  cases before with
  | nil =>
      left
      intro lexeme among
      apply afterWhite
      rw [List.append_nil] at parts
      rw [← parts]
      exact List.mem_reverse.mpr among
  | cons last others =>
      right
      have lastPlain := notWhite last rfl
      obtain ⟨lead, front, isOthers, leadWhite, frontPlain⟩ := exists_lead others.reverse
      have shape : stretch = lead ++ (front ++ last :: after.reverse) := by
        rw [straight, List.reverse_cons, isOthers]
        simp only [List.append_assoc, List.singleton_append]
      refine ⟨lead, front, last, after.reverse, shape, leadWhite, ?_, ?_, ?_⟩
      · intro lexeme among
        exact afterWhite lexeme (List.mem_reverse.mp among)
      · rw [shape, leading?_white_append leadWhite]
        cases front with
        | nil => exact leading?_cons lastPlain _
        | cons first rest => exact leading?_cons (frontPlain first rfl) _
      · rw [trailing?, parts, leading?_white_append afterWhite]
        exact leading?_cons lastPlain _

theorem isSpace_of_isWhite {text : List Char} {lexeme : Lexeme} (among : lexeme ∈ lexemes text)
    (white : lexeme.isWhite = true) : ∀ character ∈ lexeme.text, isSpace character = true := by
  induction text using lexeme_induction with
  | nil =>
      rw [lexemes_nil] at among
      cases among
  | cons first rest inductionHypothesis =>
      rw [lexemes_cons] at among
      rcases List.mem_cons.mp among with isFirst | later
      · have space : isSpace first = true := by
          by_contra plain
          apply scan_ne_blank plain rest
          have isBlank := beq_iff_eq.mp white
          rw [isFirst] at isBlank
          exact isBlank
        have parts := lexemes_of_blank space rest
        rw [lexemes_cons, ← isFirst] at parts
        rw [(List.cons.inj parts).1]
        intro character inside
        rcases List.mem_cons.mp inside with same | among
        · rw [same]
          exact space
        · exact List.all_eq_true.mp List.all_takeWhile character among
      · exact inductionHypothesis later

theorem isBlank_of_allWhite {text : List Char} {stretch : List Lexeme}
    (inside : ∀ lexeme ∈ stretch, lexeme ∈ lexemes text)
    (white : ∀ lexeme ∈ stretch, lexeme.isWhite = true) :
    ∀ character ∈ stretch.flatMap Lexeme.text, isBlank character = true := by
  intro character among
  obtain ⟨lexeme, isOne, inText⟩ := List.mem_flatMap.mp among
  exact isBlank_of_isSpace (isSpace_of_isWhite (inside lexeme isOne) (white lexeme isOne)
    character inText)

theorem isSeparator_of_isWhite {lexeme : Lexeme} (white : lexeme.isWhite = true) :
    lexeme.isSeparator = true := by
  rw [Lexeme.isSeparator, beq_iff_eq.mp white]
  rfl

theorem meanings_of_white {stretch : List Lexeme}
    (white : ∀ lexeme ∈ stretch, lexeme.isWhite = true) : meanings stretch = [] :=
  meanings_of_separators fun lexeme among => isSeparator_of_isWhite (white lexeme among)

theorem trim_around {lead core last trail : List Char}
    (leadBlank : ∀ character ∈ lead, isBlank character = true)
    (trailBlank : ∀ character ∈ trail, isBlank character = true)
    (plain : ∀ character ∈ (core ++ last).head?, isBlank character = false)
    (some : trimRight last ≠ []) :
    trim (lead ++ (core ++ (last ++ trail))) = core ++ trimRight last := by
  have nonempty : core ++ last ≠ [] := by
    intro nothing
    rw [(List.append_eq_nil_iff.mp nothing).2] at some
    exact some rfl
  have head : ∀ character ∈ (core ++ (last ++ trail)).head?, isBlank character = false := by
    rw [← List.append_assoc, List.head?_append, Option.or_of_isSome (List.isSome_head?.mpr nonempty)]
    exact plain
  rw [trim, trimLeft_append_of_all_blank _ _ leadBlank, trimLeft_of_head head,
    ← List.append_assoc, trimRight_append_of_all_blank _ _ trailBlank, trimRight_append some]

theorem trailing_kept {last : Lexeme}
    (means : (lexemes (trimRight last.text)).map Lexeme.meaning = [last.meaning]) :
    trimRight last.text ≠ [] := by
  intro nothing
  rw [nothing, lexemes_nil] at means
  cases means

/-- A backslash that begins the last lexeme is no lexeme of its own if it means the same alone. -/
theorem trailing_backslash {last : Lexeme} {others : List Lexeme} {more : List Char}
    (shape : lexemes ('\\' :: more) = last :: others) (lone : trimRight last.text = ['\\'])
    (means : (lexemes (trimRight last.text)).map Lexeme.meaning = [last.meaning]) :
    ¬ beginsNewline more = true := by
  intro line
  have alone : (lexemes ['\\']).map Lexeme.token =
      [.identifier (String.ofList [replacement])] := by decide +kernel
  have isDelimiter : last.token = .delimiter '\\' := by
    rw [lexemes_backslash line] at shape
    rw [← (List.cons.inj shape).1]
  have tokens := congrArg (List.map Prod.fst) means
  rw [lone, List.map_map, show Prod.fst ∘ Lexeme.meaning = Lexeme.token from
    funext Lexeme.meaning_token, alone, List.map_singleton, Lexeme.meaning_token, isDelimiter]
    at tokens
  cases tokens

theorem flatMap_text_head {first : Lexeme} {rest : List Lexeme} (nonempty : first.text ≠ []) :
    ((first :: rest).flatMap Lexeme.text).head? = first.text.head? := by
  rw [List.flatMap_cons, List.head?_append, Option.or_of_isSome (List.isSome_head?.mpr nonempty)]

/-- The trimmed text of a stretch reads as the stretch up to its last lexeme, and then as what is
left of that one. -/
theorem lexemes_trim_core {text : List Char} {lead front trail behind : List Lexeme} {last : Lexeme}
    (shape : lexemes text = (lead ++ (front ++ last :: trail)) ++ behind)
    (stops : AtDelimiter stretchEnds behind)
    (trailWhite : ∀ lexeme ∈ trail, lexeme.isWhite = true)
    (means : (lexemes (trimRight last.text)).map Lexeme.meaning = [last.meaning]) :
    lexemes (front.flatMap Lexeme.text ++ trimRight last.text) =
      front ++ lexemes (trimRight last.text) := by
  rw [List.append_assoc, List.append_assoc, List.cons_append] at shape
  have coreShape := lexemes_suffix shape
  have lastShape : lexemes ((last :: (trail ++ behind)).flatMap Lexeme.text) =
      last :: (trail ++ behind) := lexemes_suffix coreShape
  have behindShape : lexemes (behind.flatMap Lexeme.text) = behind :=
    @lexemes_suffix _ (last :: trail) _ lastShape
  obtain ⟨lost, isLast, lostBlank⟩ := exists_blanks_behind last.text
  have trailInside : ∀ lexeme ∈ trail, lexeme ∈ lexemes text := by
    intro lexeme among
    rw [shape]
    apply List.mem_append_right
    apply List.mem_append_right
    exact List.mem_cons_of_mem last (List.mem_append_left behind among)
  have trailBlank := isBlank_of_allWhite trailInside trailWhite
  have allBlank : ∀ character ∈ lost ++ trail.flatMap Lexeme.text, isBlank character = true := by
    intro character among
    rcases List.mem_append.mp among with inLost | inTrail
    · exact lostBlank character inLost
    · exact trailBlank character inTrail
  have lastText : (last :: (trail ++ behind)).flatMap Lexeme.text =
      trimRight last.text ++ (lost ++ trail.flatMap Lexeme.text ++ behind.flatMap Lexeme.text) := by
    rw [List.flatMap_cons, List.flatMap_append]
    conv => lhs; rw [isLast]
    simp only [List.append_assoc]
  have ends := stopsStretch_of_atDelimiter (behindShape.symm ▸ stops)
  have clean : CutClean (trimRight last.text)
      (lost ++ trail.flatMap Lexeme.text ++ behind.flatMap Lexeme.text) := by
    apply ends.cutClean allBlank
    intro line lone
    rw [lastText, lone, List.singleton_append] at lastShape
    exact trailing_backslash lastShape lone means line
  apply lexemes_cut clean
  · intro _ nothing
    exact absurd nothing (trailing_kept means)
  · rw [← lastText, ← List.flatMap_append]
    exact coreShape

theorem core_head {text : List Char} {front : List Lexeme} {last : Lexeme}
    (inside : ∀ lexeme ∈ front ++ [last], lexeme ∈ lexemes text)
    (plain : ∀ lexeme ∈ (front ++ [last]).head?, lexeme.beginsBlank = false) :
    ∀ character ∈ (front.flatMap Lexeme.text ++ last.text).head?, isBlank character = false := by
  obtain ⟨first, rest, isCore⟩ := List.exists_cons_of_ne_nil
    (List.append_ne_nil_of_right_ne_nil front (List.cons_ne_nil last []))
  rw [isCore] at inside plain
  have nonempty := text_ne_nil_of_mem_lexemes (inside first List.mem_cons_self)
  have texts : front.flatMap Lexeme.text ++ last.text = (first :: rest).flatMap Lexeme.text := by
    rw [← isCore, List.flatMap_append, List.flatMap_singleton]
  intro character begins
  rw [texts, flatMap_text_head nonempty] at begins
  have plainFirst := plain first rfl
  rw [Lexeme.beginsBlank, Option.mem_def.mp begins] at plainFirst
  exact plainFirst

/-- A stretch means the same when its text is trimmed, if its edges are kept. -/
theorem meanings_trim {text : List Char} {stretch behind : List Lexeme}
    (shape : lexemes text = stretch ++ behind) (stops : AtDelimiter stretchEnds behind)
    (kept : KeepsEdges stretch) :
    meanings (lexemes (trim (stretch.flatMap Lexeme.text))) = meanings stretch := by
  have inside : ∀ lexeme ∈ stretch, lexeme ∈ lexemes text := by
    intro lexeme among
    rw [shape]
    exact List.mem_append_left behind among
  rcases white_or_core stretch with white | core
  · have blank := isBlank_of_allWhite inside white
    have trimmed := trimLeft_append_of_all_blank _ [] blank
    rw [List.append_nil] at trimmed
    have nothing : trim (stretch.flatMap Lexeme.text) = [] := congrArg trimRight trimmed
    rw [meanings_of_white white, nothing, lexemes_nil]
    rfl
  · obtain ⟨lead, front, last, trail, rfl, leadWhite, trailWhite, isLeading, isTrailing⟩ := core
    have means := kept.trailing last isTrailing
    have leadBlank : ∀ character ∈ lead.flatMap Lexeme.text, isBlank character = true :=
      isBlank_of_allWhite (fun lexeme among => inside lexeme (by simp [among])) leadWhite
    have trailBlank : ∀ character ∈ trail.flatMap Lexeme.text, isBlank character = true :=
      isBlank_of_allWhite (fun lexeme among => inside lexeme (by simp [among])) trailWhite
    have coreInside : ∀ lexeme ∈ front ++ [last], lexeme ∈ lexemes text := by
      intro lexeme among
      apply inside
      rcases List.mem_append.mp among with inFront | isLast
      · simp [inFront]
      · simp [List.mem_singleton.mp isLast]
    have plain := core_head coreInside (isLeading ▸ kept.leading)
    have trimmed := trim_around leadBlank trailBlank plain (trailing_kept means)
    have core := lexemes_trim_core shape stops trailWhite means
    have lastMeanings : meanings (lexemes (trimRight last.text)) = meanings [last] := by
      rw [meanings, means]
      rfl
    have trailMeanings : meanings (last :: trail) = meanings [last] := by
      rw [← List.singleton_append, meanings_append, meanings_of_white trailWhite, List.append_nil]
    rw [List.flatMap_append, List.flatMap_append, List.flatMap_cons, trimmed, core, meanings_append,
      lastMeanings, meanings_append, meanings_of_white leadWhite, meanings_append, trailMeanings,
      List.nil_append]

example : KeepsEdges (lexemes "A > \\42 ".toList) ∧ ¬ KeepsEdges (lexemes "A\\ ".toList) ∧
    ¬ KeepsEdges (lexemes "\u00a0A".toList) := by
  decide +kernel

end ComponentStyles.Css
