import ComponentStyles.Proofs.Css.Header
import ComponentStyles.Proofs.Css.Round
import Mathlib.Data.List.DropRight

/-!
Where the stored texts of rules come from.

Every rule of a text stands in its lexemes: its heading up to its bracket, and in its block the
values of its declarations, each behind its colon and up to what ends it.  The main statement says
that the trimmed texts that are stored mean what these lexemes do, as far as trimming keeps their
edges.
-/

namespace ComponentStyles.Css

open ComponentStyles.Text Cursor

def trimmedLexemes (stretch : List Lexeme) : String :=
  String.ofList (trim (stretch.flatMap Lexeme.text))

theorem trimmedText_eq (nodes : List Node) : trimmedText nodes = trimmedLexemes (flatAll nodes) := by
  rw [trimmedText, nodesText_flatAll]
  rfl

structure ValueOrigin where
  name : String
  value : List Lexeme

def ValueOrigin.declaration (origin : ValueOrigin) : Declaration :=
  { name := origin.name, value := trimmedLexemes origin.value }

def Token.beginsRule : Token → Bool
  | atKeyword name => AtRuleKind.of name == .descriptors
  | token => token.beginsSelector

structure RuleOrigin where
  first : Lexeme
  others : List Lexeme
  values : List ValueOrigin
  begins : first.token.beginsRule = true

namespace RuleOrigin

def heading (origin : RuleOrigin) : List Lexeme :=
  origin.first :: origin.others

def trimmed (origin : RuleOrigin) : List Lexeme :=
  match origin.first.token with
  | .atKeyword _ => origin.others
  | _ => origin.heading

def selector (origin : RuleOrigin) : String :=
  match origin.first.token with
  | .atKeyword name => headerOf name (trimmedLexemes origin.others)
  | _ => trimmedLexemes origin.heading

def declarations (origin : RuleOrigin) : List Declaration :=
  origin.values.map ValueOrigin.declaration

end RuleOrigin

/-- The values stand one behind the other in the source, up to what is left of it.  Each one stands
behind a name and a colon and ends at the next semicolon or at the end of its block. -/
inductive ValuesStand : List Lexeme → List ValueOrigin → List Lexeme → Prop where
  | nil (before left : List Lexeme) : ValuesStand (before ++ left) [] left
  | cons (before : List Lexeme) {name colon : Lexeme} {origin : ValueOrigin}
      {gap rest left : List Lexeme} {values : List ValueOrigin} :
      name.token = .identifier origin.name → (∀ lexeme ∈ gap, lexeme.isSeparator = true) →
      colon.token = .colon →
      skim [.closing .curly, .semicolon] (origin.value ++ rest) = rest →
      ValuesStand rest values left →
      ValuesStand (before ++ name :: (gap ++ colon :: (origin.value ++ rest))) (origin :: values) left

/-- The rules stand one behind the other in the source, up to what is left of it.  The heading of
each one ends at the bracket of its block, and its values stand in the block. -/
inductive RulesStand : List Lexeme → List RuleOrigin → List Lexeme → Prop where
  | nil (before left : List Lexeme) : RulesStand (before ++ left) [] left
  | cons (before : List Lexeme) {opening : Lexeme} {origin : RuleOrigin}
      {block rest left : List Lexeme} {origins : List RuleOrigin} :
      opening.token = .opening .curly →
      skim [.curlyBlock] (origin.heading ++ opening :: block) = opening :: block →
      skim [.closing .curly] block = rest →
      ValuesStand block origin.values rest →
      RulesStand rest origins left →
      RulesStand (before ++ (origin.heading ++ opening :: block)) (origin :: origins) left

theorem ValuesStand.behind {source left : List Lexeme} {values : List ValueOrigin}
    (stand : ValuesStand source values left) (front : List Lexeme) :
    ValuesStand (front ++ source) values left := by
  cases stand with
  | nil before =>
      rw [← List.append_assoc]
      exact .nil _ left
  | cons before isName blank isColon ends rest =>
      rw [← List.append_assoc]
      exact .cons _ isName blank isColon ends rest

theorem RulesStand.behind {source left : List Lexeme} {origins : List RuleOrigin}
    (stand : RulesStand source origins left) (front : List Lexeme) :
    RulesStand (front ++ source) origins left := by
  cases stand with
  | nil before =>
      rw [← List.append_assoc]
      exact .nil _ left
  | cons before isOpening heading block values rest =>
      rw [← List.append_assoc]
      exact .cons _ isOpening heading block values rest

theorem RulesStand.append {source between left : List Lexeme} {origins others : List RuleOrigin}
    (stand : RulesStand source origins between) (rest : RulesStand between others left) :
    RulesStand source (origins ++ others) left := by
  induction stand with
  | nil before => exact rest.behind before
  | cons before isOpening heading block values _ inductionHypothesis =>
      exact .cons before isOpening heading block values (inductionHypothesis rest)

def StandsIn (source stretch : List Lexeme) : Prop :=
  ∃ front behind, source = front ++ (stretch ++ behind) ∧ AtDelimiter stretchEnds behind

theorem StandsIn.behind {source stretch : List Lexeme} (stands : StandsIn source stretch)
    (before : List Lexeme) : StandsIn (before ++ source) stretch := by
  obtain ⟨front, behind, rfl, ends⟩ := stands
  exact ⟨before ++ front, behind, (List.append_assoc _ _ _).symm, ends⟩

theorem StandsIn.of_behind {source stretch : List Lexeme} (front : List Lexeme)
    (stands : StandsIn source (front ++ stretch)) : StandsIn source stretch := by
  obtain ⟨before, behind, rfl, ends⟩ := stands
  exact ⟨before ++ front, behind, by simp only [List.append_assoc], ends⟩

theorem StandsIn.lexemes_eq {text : List Char} {stretch : List Lexeme}
    (stands : StandsIn (lexemes text) stretch) :
    lexemes (stretch.flatMap Lexeme.text) = stretch := by
  obtain ⟨front, behind, shape, ends⟩ := stands
  exact lexemes_stretch (lexemes_suffix shape) ends

theorem StandsIn.meanings_eq {text : List Char} {stretch : List Lexeme}
    (stands : StandsIn (lexemes text) stretch) (kept : KeepsEdges stretch) :
    meanings (lexemes (trimmedLexemes stretch).toList) = meanings stretch := by
  obtain ⟨front, behind, shape, ends⟩ := stands
  rw [trimmedLexemes, String.toList_ofList]
  exact meanings_trim (lexemes_suffix shape) ends kept

theorem Cursor.AtDelimiter.of_subset {delimiters more : List Delimiter} {ahead : List Lexeme}
    (stops : AtDelimiter delimiters ahead) (subset : delimiters ⊆ more) :
    AtDelimiter more ahead := by
  intro lexeme rest parts
  obtain ⟨delimiter, among, same⟩ := List.any_eq_true.mp (stops lexeme rest parts)
  exact List.any_eq_true.mpr ⟨delimiter, subset among, same⟩

theorem ValuesStand.standsIn {source left : List Lexeme} {values : List ValueOrigin}
    (stand : ValuesStand source values left) :
    ∀ origin ∈ values, StandsIn source origin.value := by
  induction stand with
  | nil => exact nofun
  | @cons before name colon origin gap rest left values _ _ _ ends _ inductionHypothesis =>
      have isSource : before ++ name :: (gap ++ colon :: (origin.value ++ rest)) =
          (before ++ name :: (gap ++ [colon])) ++ (origin.value ++ rest) := by simp
      intro other among
      rw [isSource]
      apply StandsIn.behind
      rcases List.mem_cons.mp among with rfl | later
      · refine ⟨[], rest, rfl, ?_⟩
        rw [← ends]
        exact (skim_atDelimiter _ _).of_subset (by decide)
      · exact (inductionHypothesis other later).behind _

theorem RulesStand.standsIn {source left : List Lexeme} {origins : List RuleOrigin}
    (stand : RulesStand source origins left) :
    ∀ origin ∈ origins, StandsIn source origin.heading ∧
      ∀ value ∈ origin.values, StandsIn source value.value := by
  induction stand with
  | nil => exact nofun
  | @cons before opening origin block rest left origins isOpening _ isRest values _
      inductionHypothesis =>
      obtain ⟨content, isBlock⟩ : rest <:+ block := isRest ▸ skim_suffix _ block
      have isSource : before ++ (origin.heading ++ opening :: block) =
          (before ++ (origin.heading ++ [opening])) ++ block := by simp
      intro other among
      rcases List.mem_cons.mp among with rfl | later
      · constructor
        · exact ⟨before, opening :: block, rfl, atDelimiter_cons (by rw [isOpening]; rfl) block⟩
        · intro value inValues
          rw [isSource]
          exact (values.standsIn value inValues).behind _
      · obtain ⟨heading, others⟩ := inductionHypothesis other later
        rw [isSource, ← isBlock, ← List.append_assoc]
        exact ⟨heading.behind _, fun value inValues => (others value inValues).behind _⟩

/-! ### What the stored texts mean -/

namespace RuleOrigin

variable {origin : RuleOrigin}

theorem keyword_kind {name : String} (isKeyword : origin.first.token = .atKeyword name) :
    AtRuleKind.of name = .descriptors := by
  have begins := origin.begins
  rw [isKeyword] at begins
  exact beq_iff_eq.mp begins

theorem isSeparator_first : origin.first.isSeparator = false := by
  have begins := origin.begins
  unfold Lexeme.isSeparator
  cases shape : origin.first.token with
  | blank | comment =>
      rw [shape] at begins
      cases begins
  | _ => rfl

theorem meanings_heading :
    meanings origin.heading = origin.first.meaning :: meanings origin.others :=
  meanings_cons isSeparator_first origin.others

theorem meanings_selector {text : List Char} (stands : StandsIn (lexemes text) origin.heading)
    (kept : KeepsEdges origin.trimmed) :
    meanings (lexemes origin.selector.toList) = meanings origin.heading := by
  unfold trimmed at kept
  unfold selector
  split
  · rename_i name isKeyword
    rw [isKeyword] at kept
    have others : StandsIn (lexemes text) origin.others :=
      StandsIn.of_behind [origin.first] stands
    have meaning : origin.first.meaning = (.atKeyword name, []) := by
      rw [Lexeme.meaning, isKeyword]
    rw [meanings_header (keyword_kind isKeyword), others.meanings_eq kept, meanings_heading, meaning]
  · rename_i isSelector
    split at kept
    · rename_i name isKeyword
      exact absurd isKeyword (isSelector name)
    · exact stands.meanings_eq kept

theorem selector_ne_empty {text : List Char} (stands : StandsIn (lexemes text) origin.heading)
    (kept : KeepsEdges origin.trimmed) : origin.selector ≠ "" := by
  intro empty
  have same := meanings_selector stands kept
  have nothing : meanings (lexemes "".toList) = [] := congrArg meanings lexemes_nil
  rw [empty, nothing, meanings_heading] at same
  cases same

end RuleOrigin

theorem nodes_separators {nodes : List Node} (separators : ∀ node ∈ nodes, node.isSeparator = true) :
    ∀ lexeme ∈ flatAll nodes, lexeme.isSeparator = true := by
  induction nodes with
  | nil => exact nofun
  | cons node rest inductionHypothesis =>
      obtain ⟨isOne, others⟩ := List.forall_mem_cons.mp separators
      cases node with
      | block opening content closing => cases isOne
      | leaf lexeme =>
          intro other among
          rcases List.mem_cons.mp among with rfl | later
          · exact isOne
          · exact inductionHypothesis others other later

theorem declarations_pieces (content : List Node) :
    declarations content = (Declaration.of? (content.takeWhile Node.insidePiece)).toList ++
      declarations (content.dropWhile Node.insidePiece).tail := by
  rw [declarations_eq, declarations_eq, filterMap_pieces]

theorem skim_value {value back : List Node} {tail : List Lexeme}
    (placed : Placed (some .curly) tail.isEmpty (value ++ back))
    (ends : AtDelimiter (delimitersIn (some .curly)) tail)
    (within : ∀ node ∈ value, node.insidePiece = true)
    (stops : back.dropWhile Node.insidePiece = back) :
    skim [.closing .curly, .semicolon] (flatAll value ++ (flatAll back ++ tail)) =
      flatAll back ++ tail := by
  have read := skim_flatAll placed ends fun node among => ends_piece placed among
  rw [List.dropWhile_append_of_pos within, stops, flatAll_append, List.append_assoc] at read
  exact read

/-- The value of the first piece, if it is a declaration, stands in front of the others. -/
theorem ValuesStand.piece {piece back : List Node} {tail : List Lexeme} {values : List ValueOrigin}
    (placed : Placed (some .curly) tail.isEmpty (piece ++ back))
    (ends : AtDelimiter (delimitersIn (some .curly)) tail)
    (within : ∀ node ∈ piece, node.insidePiece = true)
    (stops : back.dropWhile Node.insidePiece = back)
    (stand : ValuesStand (flatAll back ++ tail) values tail) :
    ∃ all : List ValueOrigin,
      (Declaration.of? piece).toList ++ values.map ValueOrigin.declaration =
        all.map ValueOrigin.declaration ∧
      ValuesStand (flatAll (piece ++ back) ++ tail) all tail := by
  rw [flatAll_append, List.append_assoc]
  cases isOne : Declaration.of? piece with
  | none => exact ⟨values, rfl, stand.behind _⟩
  | some declaration =>
      obtain ⟨front, name, gap, colon, value, rfl, _, isName, blank, isColon, isValue⟩ :=
        (Declaration.of?_eq_some_iff piece declaration).mp isOne
      have valueWithin : ∀ node ∈ value, node.insidePiece = true := by
        intro node among
        exact within node (by simp [among])
      have isSuffix : value ++ back <:+
          front ++ .leaf name :: (gap ++ .leaf colon :: value) ++ back :=
        ⟨front ++ .leaf name :: (gap ++ [.leaf colon]), by simp⟩
      have valueEnds := skim_value (placed.of_suffix isSuffix) ends valueWithin stops
      let origin : ValueOrigin := { name := declaration.name, value := flatAll value }
      have same : origin.declaration = declaration := by
        rw [ValueOrigin.declaration, ← trimmedText_eq, ← isValue]
      have stands : ValuesStand
          (flatAll front ++ name :: (flatAll gap ++ colon ::
            (origin.value ++ (flatAll back ++ tail)))) (origin :: values) tail :=
        .cons _ isName (nodes_separators blank) isColon valueEnds stand
      refine ⟨origin :: values, ?_, ?_⟩
      · rw [List.map_cons, same]
        rfl
      · simpa [Node.flat] using stands

theorem exists_values {content : List Node} {tail : List Lexeme}
    (placed : Placed (some .curly) tail.isEmpty content)
    (ends : AtDelimiter (delimitersIn (some .curly)) tail) :
    ∃ values : List ValueOrigin, declarations content = values.map ValueOrigin.declaration ∧
      ValuesStand (flatAll content ++ tail) values tail := by
  -- By induction on the number of nodes: the first piece, and the pieces behind its semicolon.
  induction length : content.length using Nat.strongRecOn generalizing content with
  | ind size inductionHypothesis =>
      have parts := List.takeWhile_append_dropWhile (p := Node.insidePiece) (l := content)
      have within : ∀ node ∈ content.takeWhile Node.insidePiece, node.insidePiece = true :=
        List.all_eq_true.mp List.all_takeWhile
      have stops : (content.dropWhile Node.insidePiece).dropWhile Node.insidePiece =
          content.dropWhile Node.insidePiece := List.dropWhile_idempotent _ _
      have declared := declarations_pieces content
      generalize content.takeWhile Node.insidePiece = piece at parts within declared
      generalize content.dropWhile Node.insidePiece = back at parts stops declared
      subst parts
      rw [declared]
      cases back with
      | nil =>
          have none : declarations [].tail = [] :=
            (declarations_eq []).trans (nothing_declared rfl)
          rw [none]
          exact ValuesStand.piece placed ends within stops (.nil [] tail)
      | cons semicolon after =>
          have shorter : after.length < size := by
            rw [← length, List.length_append, List.length_cons]
            omega
          have behind : after <:+ piece ++ semicolon :: after :=
            (List.suffix_cons semicolon after).trans (List.suffix_append piece _)
          obtain ⟨values, others, stand⟩ :=
            inductionHypothesis _ shorter (placed.of_suffix behind) rfl
          have restStand : ValuesStand (flatAll (semicolon :: after) ++ tail) values tail := by
            rw [flatAll_cons, List.append_assoc]
            exact stand.behind _
          rw [List.tail_cons, others]
          exact ValuesStand.piece placed ends within stops restStand

/-- Behind nodes that do not end it a stretch of the source ends at the first one that does. -/
theorem skim_front {delimiters : List Delimiter} {inside : Option Bracket} {front rest : List Node}
    {stop : Node} {tail : List Lexeme}
    (placed : Placed inside tail.isEmpty (front ++ stop :: rest))
    (goesOn : ∀ node ∈ front, isDelimiter delimiters node.token = false)
    (ends : isDelimiter delimiters stop.token = true) :
    skim delimiters (flatAll (front ++ stop :: rest) ++ tail) = flatAll (stop :: rest) ++ tail := by
  induction front with
  | nil =>
      rw [List.nil_append, flatAll_cons, stop.flat_eq]
      exact (atDelimiter_cons ends _).skim_eq
  | cons node others inductionHypothesis =>
      obtain ⟨isOn, othersOn⟩ := List.forall_mem_cons.mp goesOn
      rw [List.cons_append] at placed
      rw [List.cons_append, flatAll_cons, node.flat_eq, List.append_assoc, List.cons_append, skim]
      change (if isDelimiter delimiters node.token = true then _
        else skim delimiters (skipBlocks node.token.opens.toList _)) = _
      rw [if_neg (Bool.eq_false_iff.mp isOn), placed.skipBlocks_inner]
      exact inductionHypothesis placed.tail othersOn

section Block

variable {inside : Option Bracket} {tail : List Lexeme} {content rest : List Node}
  {opening : Lexeme} {closing : Option Lexeme} (isOpening : opening.token = .opening .curly)
include isOpening

theorem placed_block
    (placed : Placed inside tail.isEmpty (.block opening content closing :: rest)) :
    Placed (some .curly) (closing.toList ++ (flatAll rest ++ tail)).isEmpty content ∧
      AtDelimiter (delimitersIn (some .curly)) (closing.toList ++ (flatAll rest ++ tail)) := by
  obtain ⟨bracket, opens, contentPlaced, closes, _⟩ := placed.block
  obtain rfl : bracket = .curly :=
    Option.some.inj (opens.symm.trans (congrArg Token.opens isOpening))
  refine ⟨contentPlaced, ?_⟩
  intro lexeme others parts
  rw [closes lexeme others parts]
  rfl

theorem exists_origin {first : Node} {others : List Node} {origins : List RuleOrigin}
    (placed : Placed inside tail.isEmpty
      (first :: (others ++ .block opening content closing :: rest)))
    (begins : first.token.beginsRule = true)
    (within : ∀ node ∈ first :: others, node.insideSelector = true)
    (stand : RulesStand (flatAll rest ++ tail) origins tail) :
    ∃ origin : RuleOrigin, origin.first = first.first ∧
      origin.others = first.inner ++ flatAll others ∧
      origin.declarations = declarations content ∧
      RulesStand (flatAll (first :: (others ++ .block opening content closing :: rest)) ++ tail)
        (origin :: origins) tail := by
  have blockPlaced := placed.of_suffix (suffix_behind first others _)
  obtain ⟨contentPlaced, ends⟩ := placed_block isOpening blockPlaced
  obtain ⟨values, declared, valuesStand⟩ := exists_values contentPlaced ends
  let origin : RuleOrigin :=
    { first := first.first, others := first.inner ++ flatAll others, values, begins }
  refine ⟨origin, rfl, rfl, declared.symm, ?_⟩
  have heading : skim [.curlyBlock]
      (flatAll (first :: others ++ .block opening content closing :: rest) ++ tail) =
        flatAll (.block opening content closing :: rest) ++ tail := by
    apply skim_front placed
    · intro node among
      have member : node ∈ first :: others ++ .block opening content closing :: rest :=
        List.mem_append_left _ among
      rw [ends_selector placed member, within node among]
      rfl
    · exact (isDelimiter_singleton _ _).trans (beq_iff_eq.mpr isOpening)
  have block : skim [.closing .curly]
      (flatAll content ++ (closing.toList ++ (flatAll rest ++ tail))) =
        closing.toList ++ (flatAll rest ++ tail) := by
    have read := skim_flatAll contentPlaced ends fun node _ =>
      show isDelimiter [] node.token = !(fun _ => true) node from rfl
    rw [List.dropWhile_eq_nil_iff.mpr fun _ _ => rfl] at read
    exact read
  have source : flatAll (first :: (others ++ .block opening content closing :: rest)) ++ tail =
      origin.heading ++
        opening :: (flatAll content ++ (closing.toList ++ (flatAll rest ++ tail))) := by
    simp [Node.flat, first.flat_eq, RuleOrigin.heading, origin]
  have isBlock : flatAll (.block opening content closing :: rest) ++ tail =
      opening :: (flatAll content ++ (closing.toList ++ (flatAll rest ++ tail))) := by
    simp [Node.flat]
  rw [List.cons_append, source, isBlock] at heading
  rw [source]
  exact .cons [] isOpening heading block valuesStand (stand.behind _)

end Block

theorem trimmedLexemes_heading {origin : RuleOrigin} {first : Node} {others : List Node}
    (isFirst : origin.first = first.first)
    (isRest : origin.others = first.inner ++ flatAll others) :
    trimmedLexemes origin.heading = trimmedText (first :: others) := by
  rw [trimmedText_eq, RuleOrigin.heading, isFirst, isRest, flatAll_cons, first.flat_eq]
  rfl

theorem Token.beginsRule_of_beginsSelector {token : Token} (begins : token.beginsSelector = true) :
    token.beginsRule = true := by
  cases token with
  | atKeyword name => cases begins
  | _ => exact begins

theorem RuleOrigin.selector_of_begins {origin : RuleOrigin}
    (begins : origin.first.token.beginsSelector = true) :
    origin.selector = trimmedLexemes origin.heading := by
  unfold RuleOrigin.selector
  split
  · rename_i name isKeyword
    rw [isKeyword] at begins
    cases begins
  · rfl

theorem RuleOrigin.trimmed_of_begins {origin : RuleOrigin}
    (begins : origin.first.token.beginsSelector = true) : origin.trimmed = origin.heading := by
  unfold RuleOrigin.trimmed
  split
  · rename_i name isKeyword
    rw [isKeyword] at begins
    cases begins
  · rfl

theorem RuleOrigin.selector_of_keyword {origin : RuleOrigin} {name : String}
    (isKeyword : origin.first.token = .atKeyword name) :
    origin.selector = headerOf name (trimmedLexemes origin.others) := by
  unfold RuleOrigin.selector
  rw [isKeyword]

theorem Node.insideSelector_of_insidePrelude {node : Node} (inside : node.insidePrelude = true) :
    node.insideSelector = true := by
  unfold Node.insidePrelude at inside
  unfold Node.insideSelector
  rw [Bool.not_or, Bool.and_eq_true] at inside
  exact inside.1

theorem flatAll_stop (first : Node) (front : List Node) (stop : Node) (rest : List Node)
    (tail : List Lexeme) :
    flatAll (first :: (front ++ stop :: rest)) ++ tail =
      (first.flat ++ flatAll front ++ stop.flat) ++ (flatAll rest ++ tail) := by
  simp

/-- The rules of a list stand in it. -/
theorem RuleList.exists_origins {nodes : List Node} {rules : List EnclosedRule}
    {bares : List BareSelector} (list : RuleList nodes rules bares) {inside : Option Bracket}
    {tail : List Lexeme} (placed : Placed inside tail.isEmpty nodes) :
    ∃ origins : List RuleOrigin,
      rules.map EnclosedRule.selector = origins.map RuleOrigin.selector ∧
      rules.map EnclosedRule.declarations = origins.map RuleOrigin.declarations ∧
      RulesStand (flatAll nodes ++ tail) origins tail := by
  induction list generalizing inside tail with
  | nil => exact ⟨[], rfl, rfl, .nil [] tail⟩
  | between node rest _ _ inductionHypothesis =>
      obtain ⟨origins, selectors, declared, stand⟩ := inductionHypothesis placed.tail
      refine ⟨origins, selectors, declared, ?_⟩
      rw [flatAll_cons, List.append_assoc]
      exact stand.behind _
  | bare first others => exact ⟨[], rfl, rfl, .nil _ tail⟩
  | lastStatement => exact ⟨[], rfl, rfl, .nil _ tail⟩
  | statement keyword prelude _ _ _ _ inductionHypothesis
  | skipped keyword prelude _ _ _ _ _ inductionHypothesis =>
      obtain ⟨origins, selectors, declared, stand⟩ :=
        inductionHypothesis (placed.of_suffix (suffix_behind_stop keyword prelude _ _))
      refine ⟨origins, selectors, declared, ?_⟩
      rw [flatAll_stop]
      exact stand.behind _
  | styleRule first others begins within isOpening _ inductionHypothesis =>
      obtain ⟨origins, selectors, declared, stand⟩ :=
        inductionHypothesis (placed.of_suffix (suffix_behind_stop first others _ _))
      have selector : ∀ node ∈ first :: others, node.insideSelector = true :=
        List.forall_mem_cons.mpr ⟨Node.insideSelector_of_begins begins, within⟩
      obtain ⟨origin, isFirst, isRest, isDeclared, stands⟩ := exists_origin isOpening placed
        (Token.beginsRule_of_beginsSelector begins) selector stand
      have stored : origin.selector = trimmedText (first :: others) := by
        rw [RuleOrigin.selector_of_begins (isFirst ▸ begins),
          trimmedLexemes_heading isFirst isRest]
      refine ⟨origin :: origins, ?_, ?_, stands⟩
      · rw [List.map_cons, List.map_cons, selectors, stored]
      · rw [List.map_cons, List.map_cons, declared, isDeclared]
  | @descriptors keyword prelude name _ _ _ _ _ _ isKeyword kind within isOpening _
      inductionHypothesis =>
      obtain ⟨origins, selectors, declared, stand⟩ :=
        inductionHypothesis (placed.of_suffix (suffix_behind_stop keyword prelude _ _))
      obtain ⟨lexeme, rfl⟩ := placed.leaf_of_opens List.mem_cons_self
        (congrArg Token.opens isKeyword)
      have begins : lexeme.token.beginsRule = true := by
        have isLexeme : lexeme.token = .atKeyword name := isKeyword
        rw [isLexeme, Token.beginsRule, kind]
        rfl
      have heading : ∀ node ∈ .leaf lexeme :: prelude, node.insideSelector = true :=
        List.forall_mem_cons.mpr
          ⟨rfl, fun node among => Node.insideSelector_of_insidePrelude (within node among)⟩
      obtain ⟨origin, isFirst, isRest, isDeclared, stands⟩ :=
        exists_origin isOpening placed begins heading stand
      have isPrelude : origin.others = flatAll prelude := isRest
      have firstKeyword : origin.first.token = .atKeyword name :=
        (congrArg Lexeme.token isFirst).trans isKeyword
      have stored : origin.selector = atRuleHeader name prelude := by
        rw [RuleOrigin.selector_of_keyword firstKeyword, isPrelude, ← trimmedText_eq]
        rfl
      refine ⟨origin :: origins, ?_, ?_, stands⟩
      · rw [List.map_cons, List.map_cons, selectors, stored]
      · rw [List.map_cons, List.map_cons, declared, isDeclared]
  | group keyword prelude opening content closing rest _ _ _ isOpening _ _ contentHypothesis
      restHypothesis =>
      have blockPlaced := placed.of_suffix (suffix_behind keyword prelude _)
      obtain ⟨inner, innerSelectors, innerDeclared, innerStand⟩ :=
        contentHypothesis (placed_block isOpening blockPlaced).1
      obtain ⟨origins, selectors, declared, stand⟩ := restHypothesis blockPlaced.tail
      refine ⟨inner ++ origins, ?_, ?_, ?_⟩
      · rw [List.map_append, List.map_append, List.map_map, selectors, ← innerSelectors]
        rfl
      · rw [List.map_append, List.map_append, List.map_map, declared, ← innerDeclared]
        rfl
      · have whole := (innerStand.append (stand.behind closing.toList)).behind
          (keyword.flat ++ flatAll prelude ++ [opening])
        simpa [Node.flat] using whole

/-- Every rule that a text stores stands in it.  Its heading up to its bracket, and each value from
its colon up to the semicolon or the end of the block, are tokens by themselves; and where trimming
keeps the edges of such a stretch, its stored text has the same tokens, white space and comments
aside, and a stored selector is not empty. -/
theorem stored_texts_keep_tokens {text : String} {found : List Rule}
    (read : rules text = .ok found) :
    ∃ origins : List RuleOrigin,
      found.map Rule.selector = origins.map RuleOrigin.selector ∧
      found.map Rule.declarations = origins.map RuleOrigin.declarations ∧
      RulesStand (lexemes text.toList) origins [] ∧
      ∀ origin ∈ origins,
        lexemes (origin.heading.flatMap Lexeme.text) = origin.heading ∧
        (KeepsEdges origin.trimmed →
          meanings (lexemes origin.selector.toList) = meanings origin.heading ∧
            origin.selector ≠ "") ∧
        ∀ value ∈ origin.values,
          lexemes (value.value.flatMap Lexeme.text) = value.value ∧
          (KeepsEdges value.value →
            meanings (lexemes value.declaration.value.toList) = meanings value.value) := by
  obtain ⟨enclosed, list, rfl⟩ := ((text_ends_iff text (rules text) (BareSelector.missingBlock text)
    (fun _ list => list.rules_eq) fun _ _ _ list => list.rules_fault).1 found).mp read
  obtain ⟨placed, flat⟩ := nodesOf_placed (lexemes text.toList)
  obtain ⟨origins, selectors, declared, stand⟩ := @RuleList.exists_origins _ _ _ list none [] placed
  have source : flatAll (nodes text.toList) ++ [] = lexemes text.toList := by
    rw [List.append_nil]
    exact flat
  rw [source] at stand
  refine ⟨origins, ?_, ?_, stand, ?_⟩
  · rw [← selectors, List.map_map]
    rfl
  · rw [← declared, List.map_map]
    rfl
  · intro origin among
    obtain ⟨heading, values⟩ := stand.standsIn origin among
    refine ⟨heading.lexemes_eq, ?_, ?_⟩
    · intro kept
      exact ⟨RuleOrigin.meanings_selector heading kept, RuleOrigin.selector_ne_empty heading kept⟩
    · intro value inValues
      have stands := values value inValues
      exact ⟨stands.lexemes_eq, stands.meanings_eq⟩

theorem RulesStand.exists_place {source left : List Lexeme} {origin : RuleOrigin}
    {origins : List RuleOrigin} (stand : RulesStand source (origin :: origins) left) :
    ∃ start stop, origin.heading = (source.take stop).drop start ∧ start < stop ∧
      stop < source.length ∧ source[stop]?.map Lexeme.token = some (.opening .curly) := by
  cases stand with
  | @cons before opening _ block _ _ _ isOpening _ _ _ _ =>
      have parts : before ++ (origin.heading ++ opening :: block) =
          before ++ origin.heading ++ opening :: block := (List.append_assoc _ _ _).symm
      refine ⟨before.length, (before ++ origin.heading).length, ?_, ?_, ?_, ?_⟩
      · rw [parts, List.take_left, List.drop_left]
      · rw [List.length_append, RuleOrigin.heading, List.length_cons]
        omega
      · simp only [List.length_append, List.length_cons]
        omega
      · rw [parts, List.getElem?_append_right (Nat.le_refl _), Nat.sub_self]
        exact congrArg some isOpening

/-- The space that ends an escape is trimmed off, and the selector keeps its tokens all the same. -/
theorem escaped_heading_kept :
    ∃ origin : RuleOrigin, RulesStand (lexemes "A > \\42 \x7bb: c\x7d".toList) [origin] [] ∧
      origin.heading = lexemes "A > \\42 ".toList ∧ origin.selector = "A > \\42" ∧
      KeepsEdges origin.trimmed ∧
      meanings (lexemes "A > \\42".toList) = meanings origin.heading := by
  have read : rules "A > \\42 \x7bb: c\x7d" =
      .ok [{ condition := none, selector := "A > \\42"
             declarations := [{ name := "b", value := "c" }] }] := by
    decide +kernel
  obtain ⟨origins, selectors, _, stand, texts⟩ := stored_texts_keep_tokens read
  obtain ⟨origin, rfl⟩ : ∃ origin, origins = [origin] := by
    have single : origins.length = 1 := by
      rw [← List.length_map RuleOrigin.selector, ← selectors]
      rfl
    exact List.length_eq_one_iff.mp single
  have selector : origin.selector = "A > \\42" := (List.cons.inj selectors).1.symm
  obtain ⟨start, stop, isHeading, nonempty, inside, bracket⟩ := stand.exists_place
  obtain rfl : stop = 5 := by
    have once : ∀ stop < (lexemes "A > \\42 \x7bb: c\x7d".toList).length,
        (lexemes "A > \\42 \x7bb: c\x7d".toList)[stop]?.map Lexeme.token =
          some (.opening .curly) → stop = 5 := by
      decide +kernel
    exact once stop inside bracket
  have plain : origin.first.token.beginsSelector = true := by
    have allPlain : ∀ lexeme ∈ (lexemes "A > \\42 \x7bb: c\x7d".toList).take 5,
        lexeme.token.beginsRule = true → lexeme.token.beginsSelector = true := by
      decide +kernel
    apply allPlain origin.first _ origin.begins
    have among : origin.first ∈ origin.heading := List.mem_cons_self
    rw [isHeading] at among
    exact List.mem_of_mem_drop among
  have trimmed := RuleOrigin.trimmed_of_begins plain
  have stored := selector
  rw [RuleOrigin.selector_of_begins plain, isHeading] at stored
  obtain rfl : start = 0 := by
    have whole : ∀ start < 5, trimmedLexemes
        (((lexemes "A > \\42 \x7bb: c\x7d".toList).take 5).drop start) = "A > \\42" →
          start = 0 := by
      decide +kernel
    exact whole start nonempty stored
  have heading : origin.heading = lexemes "A > \\42 ".toList := by
    rw [isHeading]
    decide +kernel
  have kept : KeepsEdges origin.trimmed := by
    rw [trimmed, heading]
    decide +kernel
  have same := ((texts origin List.mem_cons_self).2.1 kept).1
  rw [selector] at same
  exact ⟨origin, stand, heading, selector, kept, same⟩

/-- A blank that is no white space of the grammar is trimmed off with the name that it belongs to,
and so is an escaped space: the first rule is stored without a selector, and the second selector
and the last value with another name. -/
theorem trimming_cuts_names :
    (rules "\u00a0\x7bb:c\x7d" =
        .ok [{ condition := none, selector := "", declarations := [{ name := "b", value := "c" }] }] ∧
      (lexemes "\u00a0\x7bb:c\x7d".toList).map Lexeme.token =
        [.identifier "\u00a0", .opening .curly, .identifier "b", .colon, .identifier "c",
          .closing .curly]) ∧
    (rules "A\\ \x7bb:c\u00a0\x7d" =
        .ok [{ condition := none, selector := "A\\"
               declarations := [{ name := "b", value := "c" }] }] ∧
      (lexemes "A\\ \x7bb:c\u00a0\x7d".toList).map Lexeme.token =
        [.identifier "A ", .opening .curly, .identifier "b", .colon, .identifier "c\u00a0",
          .closing .curly] ∧
      (lexemes "A\\".toList).map Lexeme.token = [.identifier "A\uFFFD"] ∧
      (lexemes "c".toList).map Lexeme.token = [.identifier "c"]) := by
  decide +kernel

end ComponentStyles.Css
