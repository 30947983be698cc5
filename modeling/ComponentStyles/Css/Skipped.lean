import ComponentStyles.Css.Rule

/-!
At-rules of a stylesheet that are skipped.

The list of rules is walked as it is read for its rules, so what stands behind a selector without
a block is not looked at.
-/

namespace ComponentStyles.Css

inductive SkippedAtRule where
  | statement (header : String)
  | block (header : String)
  deriving DecidableEq, Repr

def skippedFrom (nodes : List Node) (found : Array SkippedAtRule) :
    Except (Array SkippedAtRule) (Array SkippedAtRule) :=
  match _next : Entry.next? nodes with
  | none => .ok found
  | some (.dropped, rest) => skippedFrom rest found
  | some (.styleRule _ _, rest) => skippedFrom rest found
  | some (.unfinished _, _) => .error found
  | some (.statement name prelude, rest) =>
      skippedFrom rest (found.push (.statement (atRuleHeader name prelude)))
  | some (.atRule name prelude block _, rest) =>
      match AtRuleKind.of name with
      | .group =>
          match skippedFrom block found with
          | .ok inside => skippedFrom rest inside
          | .error inside => .error inside
      | .descriptors => skippedFrom rest found
      | .skipped => skippedFrom rest (found.push (.block (atRuleHeader name prelude)))
termination_by sizeAll nodes
decreasing_by
  all_goals
    have smaller := Entry.size_next?_lt _next
    simp only [Entry.inner, sizeAll] at smaller
    omega

def skippedAtRules (text : String) : List SkippedAtRule :=
  match skippedFrom (nodes text.toList) #[] with
  | .ok found => found.toList
  | .error found => found.toList

end ComponentStyles.Css
