import ComponentStyles.Css.Rule
import ComponentStyles.Proofs.Css.Placement
import Mathlib.Data.List.TakeWhile

/-!
The grammar of a list of rules.

`RuleList` relates a list of nodes to the rules in it, each with the headers of the conditional
groups around it, and to the selectors whose list ends before their block comes.  Every list has
such a reading.  The rules of a text are those of its reading, if it has no bare selector, and the
first bare selector is its fault otherwise.
-/

namespace ComponentStyles.Css

/-- A rule with the headers of the groups around it, outermost first. -/
structure EnclosedRule where
  headers : List String
  selector : String
  declarations : List Declaration

namespace EnclosedRule

def within (header : String) (rule : EnclosedRule) : EnclosedRule :=
  { rule with headers := header :: rule.headers }

def under (condition : Option String) (rule : EnclosedRule) : Rule :=
  { condition :=
      rule.headers.foldl (fun outer header => some (nestedCondition outer header)) condition
    selector := rule.selector
    declarations := rule.declarations }

/-- The rule as a text lists it: its condition is the headers around it, with a space between each
two of them. -/
def listed (rule : EnclosedRule) : Rule :=
  { condition := if rule.headers.isEmpty then none else some (" ".intercalate rule.headers)
    selector := rule.selector
    declarations := rule.declarations }

theorem foldl_nestedCondition (first : String) (others : List String) :
    others.foldl (fun outer header => some (nestedCondition outer header)) (some first) =
      some (" ".intercalate (first :: others)) := by
  induction others generalizing first with
  | nil => exact congrArg some String.intercalate_singleton.symm
  | cons header rest inductionHypothesis =>
      rw [List.foldl_cons, nestedCondition, inductionHypothesis, String.intercalate_cons_append,
        String.intercalate_cons_cons]

theorem under_none (rule : EnclosedRule) : rule.under none = rule.listed := by
  obtain ⟨headers, selector, declarations⟩ := rule
  cases headers with
  | nil => rfl
  | cons first others =>
      have condition := foldl_nestedCondition first others
      exact congrArg (fun joined => Rule.mk joined selector declarations) condition

end EnclosedRule

/-- A selector without a block, and what stands behind the end of its list. -/
structure BareSelector where
  selector : List Node
  behind : List Lexeme

namespace BareSelector

def within (closing : Option Lexeme) (rest : List Node) (bare : BareSelector) : BareSelector :=
  { bare with behind := bare.behind ++ closing.toList ++ flatAll rest }

def unfinished (bare : BareSelector) : Unfinished :=
  { selector := trimmedText bare.selector, behind := (bare.behind.flatMap Lexeme.text).length }

theorem unfinished_within (closing : Option Lexeme) (rest : List Node) (bare : BareSelector) :
    (bare.within closing rest).unfinished = bare.unfinished.within closing rest := by
  unfold unfinished Unfinished.within within
  rw [nodesText_flatAll]
  cases closing <;> simp [Nat.add_assoc]

end BareSelector

/-! ### The grammar -/

namespace Token

def standsBetween : Token → Bool
  | blank | comment | markupOpening | markupClosing | semicolon | opening .curly => true
  | _ => false

def beginsSelector : Token → Bool
  | atKeyword _ => false
  | token => !token.standsBetween

end Token

theorem Token.standsBetween_or (token : Token) :
    token.standsBetween = true ∨ (∃ name, token = .atKeyword name) ∨
      token.beginsSelector = true := by
  cases between : token.standsBetween with
  | true => exact Or.inl rfl
  | false =>
      right
      cases token with
      | atKeyword name => exact Or.inl ⟨name, rfl⟩
      | _ => exact Or.inr (congrArg Bool.not between)

/-- The list of nodes holds the rules and the bare selectors, in order. -/
inductive RuleList : List Node → List EnclosedRule → List BareSelector → Prop where
  | nil : RuleList [] [] []
  | between (node : Node) (rest : List Node) {rules : List EnclosedRule}
      {bares : List BareSelector} :
      node.token.standsBetween = true →
      RuleList rest rules bares → RuleList (node :: rest) rules bares
  | styleRule (first : Node) (others : List Node) {rest content : List Node} {opening : Lexeme}
      {closing : Option Lexeme} {rules : List EnclosedRule} {bares : List BareSelector} :
      first.token.beginsSelector = true →
      (∀ node ∈ others, node.insideSelector = true) →
      opening.token = .opening .curly →
      RuleList rest rules bares →
      RuleList (first :: (others ++ .block opening content closing :: rest))
        ({ headers := [], selector := trimmedText (first :: others)
           declarations := declarations content } :: rules) bares
  | bare (first : Node) (others : List Node) :
      first.token.beginsSelector = true →
      (∀ node ∈ others, node.insideSelector = true) →
      RuleList (first :: others) [] [{ selector := first :: others, behind := [] }]
  | statement (keyword : Node) (prelude : List Node) {name : String} {rest : List Node}
      {semicolon : Node} {rules : List EnclosedRule} {bares : List BareSelector} :
      keyword.token = .atKeyword name →
      (∀ node ∈ prelude, node.insidePrelude = true) →
      semicolon.isSemicolon = true →
      RuleList rest rules bares →
      RuleList (keyword :: (prelude ++ semicolon :: rest)) rules bares
  | lastStatement (keyword : Node) (prelude : List Node) {name : String} :
      keyword.token = .atKeyword name →
      (∀ node ∈ prelude, node.insidePrelude = true) →
      RuleList (keyword :: prelude) [] []
  | skipped (keyword : Node) (prelude : List Node) {name : String} {rest content : List Node}
      {opening : Lexeme} {closing : Option Lexeme} {rules : List EnclosedRule}
      {bares : List BareSelector} :
      keyword.token = .atKeyword name → AtRuleKind.of name = .skipped →
      (∀ node ∈ prelude, node.insidePrelude = true) →
      opening.token = .opening .curly →
      RuleList rest rules bares →
      RuleList (keyword :: (prelude ++ .block opening content closing :: rest)) rules bares
  | descriptors (keyword : Node) (prelude : List Node) {name : String} {rest content : List Node}
      {opening : Lexeme} {closing : Option Lexeme} {rules : List EnclosedRule}
      {bares : List BareSelector} :
      keyword.token = .atKeyword name → AtRuleKind.of name = .descriptors →
      (∀ node ∈ prelude, node.insidePrelude = true) →
      opening.token = .opening .curly →
      RuleList rest rules bares →
      RuleList (keyword :: (prelude ++ .block opening content closing :: rest))
        ({ headers := [], selector := atRuleHeader name prelude
           declarations := declarations content } :: rules) bares
  | group (keyword : Node) (prelude : List Node) (opening : Lexeme) (content : List Node)
      (closing : Option Lexeme) (rest : List Node) {name : String}
      {inner rules : List EnclosedRule} {innerBares bares : List BareSelector} :
      keyword.token = .atKeyword name → AtRuleKind.of name = .group →
      (∀ node ∈ prelude, node.insidePrelude = true) →
      opening.token = .opening .curly →
      RuleList content inner innerBares →
      RuleList rest rules bares →
      RuleList (keyword :: (prelude ++ .block opening content closing :: rest))
        (inner.map (EnclosedRule.within (atRuleHeader name prelude)) ++ rules)
        (innerBares.map (BareSelector.within closing rest) ++ bares)

theorem takeWhile_parts (keeps : Node → Bool) (nodes : List Node) :
    ∃ front back, nodes = front ++ back ∧ (∀ node ∈ front, keeps node = true) ∧
      ∀ node rest, back = node :: rest → keeps node = false := by
  refine ⟨nodes.takeWhile keeps, nodes.dropWhile keeps, List.takeWhile_append_dropWhile.symm,
    List.all_eq_true.mp List.all_takeWhile, ?_⟩
  intro node rest shape
  have stopped := List.head?_dropWhile_not keeps nodes
  rw [shape] at stopped
  exact Bool.not_eq_true' _ ▸ (by simpa using stopped)

theorem block_of_isCurly {node : Node} (isCurly : node.isCurly = true) :
    ∃ opening content closing, node = .block opening content closing ∧
      opening.token = .opening .curly := by
  cases node with
  | leaf lexeme => cases isCurly
  | block opening content closing =>
      exact ⟨opening, content, closing, rfl, beq_iff_eq.mp isCurly⟩

namespace RuleList

theorem exists_atRule {keyword : Node} {name : String} (isKeyword : keyword.token = .atKeyword name)
    (nodes : List Node)
    (smaller : ∀ others, sizeAll others ≤ sizeAll nodes →
      ∃ rules bares, RuleList others rules bares) :
    ∃ rules bares, RuleList (keyword :: nodes) rules bares := by
  obtain ⟨prelude, back, rfl, inside, stops⟩ := takeWhile_parts Node.insidePrelude nodes
  rw [sizeAll_append] at smaller
  cases back with
  | nil =>
      rw [List.append_nil]
      exact ⟨_, _, lastStatement _ _ isKeyword inside⟩
  | cons stop rest =>
      rw [sizeAll] at smaller
      obtain ⟨rules, bares, restList⟩ := smaller rest (by omega)
      have ends := stops stop rest rfl
      by_cases isSemicolon : stop.isSemicolon = true
      · exact ⟨_, _, statement _ _ isKeyword inside isSemicolon restList⟩
      · have isCurly : stop.isCurly = true := by
          simpa [Node.insidePrelude, isSemicolon] using ends
        obtain ⟨opening, content, closing, rfl, isOpening⟩ := block_of_isCurly isCurly
        cases kind : AtRuleKind.of name with
        | skipped => exact ⟨_, _, skipped _ _ isKeyword kind inside isOpening restList⟩
        | descriptors => exact ⟨_, _, descriptors _ _ isKeyword kind inside isOpening restList⟩
        | group =>
            rw [Node.size] at smaller
            obtain ⟨inner, innerBares, innerList⟩ := smaller content (by omega)
            exact ⟨_, _, group _ _ _ _ _ _ isKeyword kind inside isOpening innerList restList⟩

theorem exists_styleRule {first : Node} (begins : first.token.beginsSelector = true)
    (nodes : List Node)
    (smaller : ∀ others, sizeAll others ≤ sizeAll nodes →
      ∃ rules bares, RuleList others rules bares) :
    ∃ rules bares, RuleList (first :: nodes) rules bares := by
  obtain ⟨others, back, rfl, inside, stops⟩ := takeWhile_parts Node.insideSelector nodes
  cases back with
  | nil =>
      rw [List.append_nil]
      exact ⟨_, _, bare _ _ begins inside⟩
  | cons stop rest =>
      rw [sizeAll_append, sizeAll] at smaller
      obtain ⟨rules, bares, restList⟩ := smaller rest (by omega)
      have isCurly : stop.isCurly = true := by
        simpa [Node.insideSelector] using stops stop rest rfl
      obtain ⟨opening, content, closing, rfl, isOpening⟩ := block_of_isCurly isCurly
      exact ⟨_, _, styleRule _ _ begins inside isOpening restList⟩

end RuleList

/-- Every list of nodes has a reading, by the token that it begins with. -/
theorem ruleList_total (nodes : List Node) : ∃ rules bares, RuleList nodes rules bares := by
  induction size : sizeAll nodes using Nat.strongRecOn generalizing nodes with
  | ind size inductionHypothesis =>
      cases nodes with
      | nil => exact ⟨_, _, .nil⟩
      | cons node rest =>
          have positive := node.size_pos
          rw [sizeAll] at size
          have smaller (others : List Node) (within : sizeAll others ≤ sizeAll rest) :
              ∃ rules bares, RuleList others rules bares :=
            inductionHypothesis (sizeAll others) (by omega) others rfl
          rcases node.token.standsBetween_or with between | ⟨name, keyword⟩ | begins
          · obtain ⟨rules, bares, restList⟩ := smaller rest (Nat.le_refl _)
            exact ⟨_, _, .between _ _ between restList⟩
          · exact RuleList.exists_atRule keyword rest smaller
          · exact RuleList.exists_styleRule begins rest smaller

theorem Node.insideSelector_of_begins {node : Node} (begins : node.token.beginsSelector = true) :
    node.insideSelector = true := by
  cases curly : node.isCurly with
  | false => exact congrArg Bool.not curly
  | true =>
      cases node with
      | leaf lexeme => cases curly
      | block opening content closing =>
          have isCurly : opening.token = .opening .curly := beq_iff_eq.mp curly
          rw [Node.token, Node.first, isCurly] at begins
          cases begins

section Entries

variable {keeps : Node → Bool} {front : List Node} (inside : ∀ node ∈ front, keeps node = true)
  {stop : Node} (stops : keeps stop = false) (rest : List Node)

include inside stops in
theorem takeWhile_stop : (front ++ stop :: rest).takeWhile keeps = front := by
  rw [List.takeWhile_append_of_pos inside, List.takeWhile_cons_of_neg (Bool.eq_false_iff.mp stops),
    List.append_nil]

include inside stops in
theorem dropWhile_stop : (front ++ stop :: rest).dropWhile keeps = stop :: rest := by
  rw [List.dropWhile_append_of_pos inside, List.dropWhile_cons_of_neg (Bool.eq_false_iff.mp stops)]

end Entries

namespace Entry

theorem next?_separator {node : Node} (separates : node.isSeparator = true) (rest : List Node) :
    next? (node :: rest) = next? rest := by
  unfold next?
  rw [List.dropWhile_cons_of_pos separates]

theorem atRuleOf_block {name : String} {prelude : List Node}
    (inside : ∀ node ∈ prelude, node.insidePrelude = true) {opening : Lexeme}
    (isOpening : opening.token = .opening .curly) (content : List Node) (closing : Option Lexeme)
    (rest : List Node) :
    atRuleOf name (prelude ++ .block opening content closing :: rest) =
      (.atRule name prelude content closing, rest) := by
  have stops : (Node.block opening content closing).insidePrelude = false := by
    simp [Node.insidePrelude, Node.isCurly, isOpening]
  unfold atRuleOf
  rw [dropWhile_stop inside stops, takeWhile_stop inside stops]

theorem atRuleOf_semicolon {name : String} {prelude : List Node}
    (inside : ∀ node ∈ prelude, node.insidePrelude = true) {semicolon : Node}
    (isSemicolon : semicolon.isSemicolon = true) (rest : List Node) :
    atRuleOf name (prelude ++ semicolon :: rest) = (.statement name prelude, rest) := by
  have stops : semicolon.insidePrelude = false := by simp [Node.insidePrelude, isSemicolon]
  cases semicolon with
  | block opening content closing => cases isSemicolon
  | leaf lexeme =>
      unfold atRuleOf
      rw [dropWhile_stop inside stops, takeWhile_stop inside stops]
      rfl

theorem atRuleOf_end {name : String} {prelude : List Node}
    (inside : ∀ node ∈ prelude, node.insidePrelude = true) :
    atRuleOf name prelude = (.statement name prelude, []) := by
  unfold atRuleOf
  rw [List.dropWhile_eq_nil_iff.mpr inside, List.takeWhile_eq_self_iff.mpr inside]
  rfl

theorem styleRuleOf_block {selector : List Node}
    (inside : ∀ node ∈ selector, node.insideSelector = true) {opening : Lexeme}
    (isOpening : opening.token = .opening .curly) (content : List Node) (closing : Option Lexeme)
    (rest : List Node) :
    styleRuleOf (selector ++ .block opening content closing :: rest) =
      (.styleRule selector content, rest) := by
  have stops : (Node.block opening content closing).insideSelector = false := by
    simp [Node.insideSelector, Node.isCurly, isOpening]
  unfold styleRuleOf
  rw [dropWhile_stop inside stops, takeWhile_stop inside stops]

theorem styleRuleOf_end {selector : List Node}
    (inside : ∀ node ∈ selector, node.insideSelector = true) :
    styleRuleOf selector = (.unfinished selector, []) := by
  unfold styleRuleOf
  rw [List.dropWhile_eq_nil_iff.mpr inside, List.takeWhile_eq_self_iff.mpr inside]

section Placed

variable {enclosing : Option Bracket} {atEnd : Bool} {node : Node} {rest : List Node}
  (placed : Placed enclosing atEnd (node :: rest))
include placed

theorem next?_between (between : node.token.standsBetween = true) :
    next? (node :: rest) = next? rest ∨ next? (node :: rest) = some (.dropped, rest) := by
  by_cases separates : node.isSeparator = true
  · exact Or.inl (next?_separator separates rest)
  · right
    have isBlock := placed.isSome_opens List.mem_cons_self
    unfold next?
    rw [List.dropWhile_cons_of_neg separates]
    cases node with
    | leaf lexeme =>
        obtain ⟨token, text⟩ := lexeme
        cases token with
        | markupOpening | markupClosing | semicolon => rfl
        | blank | comment => exact absurd rfl separates
        | opening bracket => cases isBlock
        | _ => cases between
    | block opening content closing =>
        obtain ⟨token, text⟩ := opening
        cases token with
        | opening bracket =>
            cases bracket with
            | curly => rfl
            | square | round => cases between
        | function name => cases between
        | _ => cases isBlock

theorem next?_atKeyword {name : String} (keyword : node.token = .atKeyword name) :
    next? (node :: rest) = some (atRuleOf name rest) := by
  obtain ⟨⟨token, text⟩, rfl⟩ := placed.leaf_of_opens List.mem_cons_self
    (congrArg Token.opens keyword)
  obtain rfl : token = .atKeyword name := keyword
  rfl

theorem next?_selector (begins : node.token.beginsSelector = true) :
    next? (node :: rest) = some (styleRuleOf (node :: rest)) := by
  have isBlock := placed.isSome_opens List.mem_cons_self
  cases node with
  | leaf lexeme =>
      obtain ⟨token, text⟩ := lexeme
      cases token with
      | blank | comment | markupOpening | markupClosing | semicolon | atKeyword => cases begins
      | opening | function => cases isBlock
      | _ => rfl
  | block opening content closing =>
      obtain ⟨token, text⟩ := opening
      cases token with
      | opening bracket =>
          cases bracket with
          | curly => cases begins
          | square | round => rfl
      | function name => rfl
      | _ => cases isBlock

end Placed

theorem next?_atRule {enclosing : Option Bracket} {atEnd : Bool} {keyword : Node} {name : String}
    {prelude content rest : List Node} {opening : Lexeme} {closing : Option Lexeme}
    (placed : Placed enclosing atEnd
      (keyword :: (prelude ++ .block opening content closing :: rest)))
    (isKeyword : keyword.token = .atKeyword name)
    (inside : ∀ node ∈ prelude, node.insidePrelude = true)
    (isOpening : opening.token = .opening .curly) :
    next? (keyword :: (prelude ++ .block opening content closing :: rest)) =
      some (.atRule name prelude content closing, rest) := by
  rw [next?_atKeyword placed isKeyword, atRuleOf_block inside isOpening]

end Entry

section Equations

variable (condition : Option String) {nodes rest : List Node} (found : Array Rule)

theorem rulesFrom_none (next : Entry.next? nodes = none) :
    rulesFrom condition nodes found = .ok found := by
  rw [rulesFrom]
  split <;> rename_i shape <;> rw [next] at shape <;> cases shape

theorem rulesFrom_dropped (next : Entry.next? nodes = some (.dropped, rest)) :
    rulesFrom condition nodes found = rulesFrom condition rest found := by
  rw [rulesFrom]
  split <;> rename_i shape <;> rw [next] at shape <;> cases shape
  rfl

theorem rulesFrom_statement {name : String} {prelude : List Node}
    (next : Entry.next? nodes = some (.statement name prelude, rest)) :
    rulesFrom condition nodes found = rulesFrom condition rest found := by
  rw [rulesFrom]
  split <;> rename_i shape <;> rw [next] at shape <;> cases shape
  rfl

theorem rulesFrom_styleRule {selector block : List Node}
    (next : Entry.next? nodes = some (.styleRule selector block, rest)) :
    rulesFrom condition nodes found =
      rulesFrom condition rest
        (found.push
          { condition, selector := trimmedText selector, declarations := declarations block }) := by
  rw [rulesFrom]
  split <;> rename_i shape <;> rw [next] at shape <;> cases shape
  rfl

theorem rulesFrom_unfinished {selector : List Node}
    (next : Entry.next? nodes = some (.unfinished selector, rest)) :
    rulesFrom condition nodes found = .error { selector := trimmedText selector, behind := 0 } := by
  rw [rulesFrom]
  split <;> rename_i shape <;> rw [next] at shape <;> cases shape
  rfl

theorem rulesFrom_atRule {name : String} {prelude block : List Node} {ending : Option Lexeme}
    (next : Entry.next? nodes = some (.atRule name prelude block ending, rest)) :
    rulesFrom condition nodes found =
      match AtRuleKind.of name with
      | .group =>
          match rulesFrom (some (nestedCondition condition (atRuleHeader name prelude))) block
            found with
          | .ok inside => rulesFrom condition rest inside
          | .error fault => .error (fault.within ending rest)
      | .descriptors =>
          rulesFrom condition rest
            (found.push
              { condition, selector := atRuleHeader name prelude
                declarations := declarations block })
      | .skipped => rulesFrom condition rest found := by
  rw [rulesFrom]
  split <;> rename_i shape <;> rw [next] at shape <;> cases shape
  rfl

theorem rulesFrom_congr {others : List Node} (same : Entry.next? nodes = Entry.next? others) :
    rulesFrom condition nodes found = rulesFrom condition others found := by
  cases next : Entry.next? others with
  | none =>
      rw [rulesFrom_none condition found (same.trans next), rulesFrom_none condition found next]
  | some read =>
      obtain ⟨entry, rest⟩ := read
      have first := same.trans next
      cases entry with
      | dropped =>
          rw [rulesFrom_dropped condition found first, rulesFrom_dropped condition found next]
      | statement name prelude =>
          rw [rulesFrom_statement condition found first, rulesFrom_statement condition found next]
      | styleRule selector block =>
          rw [rulesFrom_styleRule condition found first, rulesFrom_styleRule condition found next]
      | unfinished selector =>
          rw [rulesFrom_unfinished condition found first,
            rulesFrom_unfinished condition found next]
      | atRule name prelude block ending =>
          rw [rulesFrom_atRule condition found first, rulesFrom_atRule condition found next]

end Equations

/-- What the reading of a list comes to behind the rules found: its rules where the condition
holds, or its first bare selector. -/
def outcome (condition : Option String) (found : List Rule) (rules : List EnclosedRule) :
    List BareSelector → Except BareSelector (List Rule)
  | [] => .ok (found ++ rules.map (EnclosedRule.under condition))
  | bare :: _ => .error bare

theorem outcome_cons (condition : Option String) (found : List Rule) (rule : EnclosedRule)
    (rules : List EnclosedRule) (bares : List BareSelector) :
    outcome condition found (rule :: rules) bares =
      outcome condition (found ++ [rule.under condition]) rules bares := by
  cases bares with
  | nil =>
      unfold outcome
      rw [List.map_cons, List.append_cons]
  | cons bare others => rfl

/-- A group comes first, whose own rules are found where its header is added to the condition. -/
theorem outcome_group (condition : Option String) (found : List Rule) (header : String)
    (closing : Option Lexeme) (rest : List Node) (inner rules : List EnclosedRule)
    (innerBares bares : List BareSelector) :
    outcome condition found (inner.map (EnclosedRule.within header) ++ rules)
        (innerBares.map (BareSelector.within closing rest) ++ bares) =
      match outcome (some (nestedCondition condition header)) found inner innerBares with
      | .ok inside => outcome condition inside rules bares
      | .error bare => .error (bare.within closing rest) := by
  cases innerBares with
  | cons bare others => rfl
  | nil =>
      cases bares with
      | cons bare others => rfl
      | nil =>
          have same : EnclosedRule.under condition ∘ EnclosedRule.within header =
              EnclosedRule.under (some (nestedCondition condition header)) := rfl
          simp only [outcome, List.map_nil, List.nil_append, List.map_append, List.map_map, same,
            List.append_assoc]

theorem suffix_behind (first : Node) (front : List Node) (rest : List Node) :
    rest <:+ first :: (front ++ rest) :=
  (List.suffix_append front rest).trans (List.suffix_cons first _)

theorem suffix_behind_stop (first : Node) (front : List Node) (stop : Node) (rest : List Node) :
    rest <:+ first :: (front ++ stop :: rest) :=
  (List.suffix_cons stop rest).trans (suffix_behind first front _)

theorem RuleList.rulesFrom_eq {nodes : List Node} {rules : List EnclosedRule}
    {bares : List BareSelector} (list : RuleList nodes rules bares) {inside : Option Bracket}
    {atEnd : Bool} (placed : Placed inside atEnd nodes) (condition : Option String)
    (found : Array Rule) :
    (rulesFrom condition nodes found).map Array.toList =
      (outcome condition found.toList rules bares).mapError BareSelector.unfinished := by
  -- What each constructor puts in front is the entry that the list begins with.
  induction list generalizing inside atEnd condition found with
  | nil =>
      rw [rulesFrom_none condition found rfl]
      simp [outcome, Except.map, Except.mapError]
  | between _ _ stands _ inductionHypothesis =>
      rw [← inductionHypothesis placed.tail]
      rcases Entry.next?_between placed stands with same | dropped
      · rw [rulesFrom_congr condition found same]
      · rw [rulesFrom_dropped condition found dropped]
  | styleRule first others begins within isOpening _ inductionHypothesis =>
      have selector : ∀ node ∈ first :: others, node.insideSelector = true :=
        List.forall_mem_cons.mpr ⟨Node.insideSelector_of_begins begins, within⟩
      have next := Entry.next?_selector placed begins
      rw [← List.cons_append, Entry.styleRuleOf_block selector isOpening, List.cons_append] at next
      have restPlaced := placed.of_suffix (suffix_behind_stop first others _ _)
      rw [rulesFrom_styleRule condition found next, outcome_cons, inductionHypothesis restPlaced,
        Array.toList_push]
      rfl
  | bare first others begins within =>
      have selector : ∀ node ∈ first :: others, node.insideSelector = true :=
        List.forall_mem_cons.mpr ⟨Node.insideSelector_of_begins begins, within⟩
      have next := Entry.next?_selector placed begins
      rw [Entry.styleRuleOf_end selector] at next
      rw [rulesFrom_unfinished condition found next]
      rfl
  | statement keyword prelude isKeyword within isSemicolon _ inductionHypothesis =>
      have next := Entry.next?_atKeyword placed isKeyword
      rw [Entry.atRuleOf_semicolon within isSemicolon] at next
      have restPlaced := placed.of_suffix (suffix_behind_stop keyword prelude _ _)
      rw [rulesFrom_statement condition found next, inductionHypothesis restPlaced]
  | lastStatement _ _ isKeyword within =>
      have next := Entry.next?_atKeyword placed isKeyword
      rw [Entry.atRuleOf_end within] at next
      rw [rulesFrom_statement condition found next, rulesFrom_none condition found rfl]
      simp [outcome, Except.map, Except.mapError]
  | skipped keyword prelude isKeyword kind within isOpening _ inductionHypothesis =>
      have next := Entry.next?_atRule placed isKeyword within isOpening
      have restPlaced := placed.of_suffix (suffix_behind_stop keyword prelude _ _)
      rw [rulesFrom_atRule condition found next, kind]
      exact inductionHypothesis restPlaced condition found
  | descriptors keyword prelude isKeyword kind within isOpening _ inductionHypothesis =>
      have next := Entry.next?_atRule placed isKeyword within isOpening
      have restPlaced := placed.of_suffix (suffix_behind_stop keyword prelude _ _)
      rw [rulesFrom_atRule condition found next, kind, outcome_cons]
      dsimp only
      rw [inductionHypothesis restPlaced, Array.toList_push]
      rfl
  | @group keyword prelude _ _ closing rest name _ _ _ _ isKeyword kind within isOpening _ _
      contentHypothesis restHypothesis =>
      have next := Entry.next?_atRule placed isKeyword within isOpening
      have blockPlaced := placed.of_suffix (suffix_behind keyword prelude _)
      obtain ⟨_, _, contentPlaced⟩ := blockPlaced.content
      have content := contentHypothesis contentPlaced
        (some (nestedCondition condition (atRuleHeader name prelude))) found
      rw [rulesFrom_atRule condition found next, kind, outcome_group]
      dsimp only
      revert content
      generalize rulesFrom _ _ found = ofBlock
      generalize outcome _ found.toList _ _ = held
      intro content
      cases ofBlock with
      | ok array =>
          cases held with
          | error bare => cases content
          | ok inside =>
              obtain rfl : array.toList = inside := Except.ok.inj content
              exact restHypothesis blockPlaced.tail condition array
      | error fault =>
          cases held with
          | ok inside => cases content
          | error bare =>
              obtain rfl : fault = bare.unfinished := Except.error.inj content
              exact congrArg Except.error (bare.unfinished_within closing rest).symm

end ComponentStyles.Css
