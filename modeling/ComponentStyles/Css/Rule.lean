import ComponentStyles.Css.Declaration
import ComponentStyles.Css.Entry
import ComponentStyles.Text.Ascii
import ComponentStyles.Text.Place

/-!
Rules of a stylesheet.

Style rules, `@font-face` and `@page` become rules.  Conditional groups are flattened: a rule
inside groups carries their headers, outermost first, as its condition.  Every other at-rule
is skipped, and so is a block without a selector.  The one fault is a selector whose list ends
before its block comes.
-/

namespace ComponentStyles.Css

open ComponentStyles.Text

/-- A selector or at-rule header with its declarations, and the headers of the conditional
groups around it. -/
structure Rule where
  condition : Option String
  selector : String
  declarations : List Declaration
  deriving DecidableEq, Repr

inductive AtRuleKind where
  | group
  | descriptors
  | skipped
  deriving DecidableEq, Repr

def AtRuleKind.of (name : String) : AtRuleKind :=
  let keyword := lowercased name
  if ["media", "supports", "container", "layer", "document", "-moz-document"].contains keyword then
    .group
  else if ["font-face", "page"].contains keyword then .descriptors
  else .skipped

theorem AtRuleKind.of_eq_group_iff {name : String} :
    AtRuleKind.of name = .group ↔
      ∃ keyword ∈ ["media", "supports", "container", "layer", "document", "-moz-document"],
        CasesOf name.toList keyword.toList := by
  rw [← contains_lowercased_iff (by decide), AtRuleKind.of]
  split
  · rename_i listed
    exact iff_of_true rfl listed
  · rename_i unlisted
    refine iff_of_false ?_ unlisted
    split <;> nofun

theorem AtRuleKind.of_eq_descriptors_iff {name : String} :
    AtRuleKind.of name = .descriptors ↔
      ∃ keyword ∈ ["font-face", "page"], CasesOf name.toList keyword.toList := by
  have apart : ∀ keyword ∈
      ["media", "supports", "container", "layer", "document", "-moz-document"],
      ["font-face", "page"].contains keyword = false := by decide
  rw [← contains_lowercased_iff (by decide), AtRuleKind.of]
  split
  · rename_i group
    refine iff_of_false nofun ?_
    rw [apart _ (List.contains_iff_mem.mp group)]
    exact Bool.false_ne_true
  · split
    · rename_i listed
      exact iff_of_true rfl listed
    · rename_i unlisted
      exact iff_of_false nofun unlisted

theorem AtRuleKind.of_eq_skipped_iff {name : String} :
    AtRuleKind.of name = .skipped ↔
      ∀ keyword ∈ ["media", "supports", "container", "layer", "document", "-moz-document"] ++
        ["font-face", "page"], ¬CasesOf name.toList keyword.toList := by
  have neither : AtRuleKind.of name = .skipped ↔
      AtRuleKind.of name ≠ .group ∧ AtRuleKind.of name ≠ .descriptors := by
    cases AtRuleKind.of name <;> decide
  rw [neither, ne_eq, ne_eq, of_eq_group_iff, of_eq_descriptors_iff]
  simp only [List.mem_append, or_imp, forall_and, not_exists, not_and]

def atRuleHeader (name : String) (prelude : List Node) : String :=
  let text := trimmedText prelude
  if text.isEmpty then "@" ++ name else "@" ++ name ++ " " ++ text

/-- The condition inside a group: the condition around it, a space and the group's header. -/
def nestedCondition (condition : Option String) (header : String) : String :=
  match condition with
  | some outer => outer ++ " " ++ header
  | none => header

/-- A selector without a block.  `behind` counts the characters behind the end of its list. -/
structure Unfinished where
  selector : String
  behind : Nat
  deriving DecidableEq, Repr

def Unfinished.within (fault : Unfinished) (ending : Option Lexeme) (rest : List Node) :
    Unfinished :=
  { fault with
    behind := fault.behind + (ending.elim 0 fun lexeme => lexeme.text.length) +
      (nodesText rest).length }

def rulesFrom (condition : Option String) (nodes : List Node) (found : Array Rule) :
    Except Unfinished (Array Rule) :=
  match _next : Entry.next? nodes with
  | none => .ok found
  | some (.dropped, rest) => rulesFrom condition rest found
  | some (.statement _ _, rest) => rulesFrom condition rest found
  | some (.styleRule selector block, rest) =>
      rulesFrom condition rest
        (found.push
          { condition, selector := trimmedText selector, declarations := declarations block })
  | some (.unfinished selector, _) => .error { selector := trimmedText selector, behind := 0 }
  | some (.atRule name prelude block ending, rest) =>
      let header := atRuleHeader name prelude
      match AtRuleKind.of name with
      | .group =>
          match rulesFrom (some (nestedCondition condition header)) block found with
          | .ok inside => rulesFrom condition rest inside
          | .error fault => .error (fault.within ending rest)
      | .descriptors =>
          rulesFrom condition rest
            (found.push { condition, selector := header, declarations := declarations block })
      | .skipped => rulesFrom condition rest found
termination_by sizeAll nodes
decreasing_by
  all_goals
    have smaller := Entry.size_next?_lt _next
    simp only [Entry.inner, sizeAll] at smaller
    omega

def rulesIn (condition : Option String) (nodes : List Node) : Except Unfinished (List Rule) :=
  (rulesFrom condition nodes #[]).map Array.toList

structure MissingBlock where
  selector : String
  place : Place
  deriving DecidableEq, Repr

def MissingBlock.message (fault : MissingBlock) : String :=
  "rule '" ++ fault.selector ++ "' has no declaration block at line " ++
    toString fault.place.line ++ ", column " ++ toString fault.place.column

def rules (text : String) : Except MissingBlock (List Rule) :=
  let characters := text.toList
  match rulesIn none (nodes characters) with
  | .ok found => .ok found
  | .error fault =>
      .error
        { selector := fault.selector
          place := Place.behind (characters.take (characters.length - fault.behind)) }

end ComponentStyles.Css
