import ComponentStyles.Css.Node

/-!
Entries of a rule list.

`Entry.next?` takes the first entry off a list of nodes.  The main statement says that what
stays, and the block inside the entry, are together smaller than the list.
-/

namespace ComponentStyles.Css

inductive Entry where
  | dropped
  | styleRule (selector : List Node) (block : List Node)
  | atRule (name : String) (prelude : List Node) (block : List Node) (ending : Option Lexeme)
  | statement (name : String) (prelude : List Node)
  | unfinished (selector : List Node)

def Token.separatesRules : Token → Bool
  | .markupOpening | .markupClosing | .semicolon => true
  | _ => false

def Node.insidePrelude (node : Node) : Bool :=
  !(node.isCurly || node.isSemicolon)

def Node.insideSelector (node : Node) : Bool :=
  !node.isCurly

def Entry.atRuleOf (name : String) (rest : List Node) : Entry × List Node :=
  match rest.dropWhile Node.insidePrelude with
  | .block _ content closing :: after =>
      (.atRule name (rest.takeWhile Node.insidePrelude) content closing, after)
  | after => (.statement name (rest.takeWhile Node.insidePrelude), after.tail)

def Entry.styleRuleOf (nodes : List Node) : Entry × List Node :=
  match nodes.dropWhile Node.insideSelector with
  | .block _ content _ :: after =>
      (.styleRule (nodes.takeWhile Node.insideSelector) content, after)
  | after => (.unfinished (nodes.takeWhile Node.insideSelector), after)

def Entry.next? (nodes : List Node) : Option (Entry × List Node) :=
  match nodes.dropWhile Node.isSeparator with
  | [] => none
  | .block opening content closing :: rest =>
      if opening.token = .opening .curly then some (.dropped, rest)
      else some (Entry.styleRuleOf (.block opening content closing :: rest))
  | .leaf lexeme :: rest =>
      match lexeme.token with
      | .atKeyword name => some (Entry.atRuleOf name rest)
      | token =>
          if token.separatesRules then some (.dropped, rest)
          else some (Entry.styleRuleOf (.leaf lexeme :: rest))

mutual

def Node.size : Node → Nat
  | .leaf _ => 1
  | .block _ content _ => 2 + sizeAll content

def sizeAll : List Node → Nat
  | [] => 0
  | node :: rest => node.size + sizeAll rest

end

theorem Node.size_pos (node : Node) : 0 < node.size := by
  cases node with
  | leaf lexeme => simp only [Node.size, Nat.lt_add_one]
  | block opening content closing => simp only [Node.size]; omega

theorem sizeAll_append (left right : List Node) :
    sizeAll (left ++ right) = sizeAll left + sizeAll right := by
  induction left with
  | nil => simp [sizeAll]
  | cons node rest inductionHypothesis =>
      simp only [List.cons_append, sizeAll, inductionHypothesis]
      omega

theorem sizeAll_dropWhile_le (test : Node → Bool) (nodes : List Node) :
    sizeAll (nodes.dropWhile test) ≤ sizeAll nodes := by
  induction nodes with
  | nil => simp
  | cons node rest inductionHypothesis =>
      rw [List.dropWhile_cons]
      split
      · simp only [sizeAll]
        omega
      · exact Nat.le_refl _

def Entry.inner : Entry → List Node
  | .atRule _ _ block _ => block
  | _ => []

theorem sizeAll_tail_le (nodes : List Node) : sizeAll nodes.tail ≤ sizeAll nodes := by
  cases nodes <;> simp [sizeAll]

theorem Entry.size_atRuleOf_le (name : String) (rest : List Node) :
    sizeAll (Entry.atRuleOf name rest).1.inner + sizeAll (Entry.atRuleOf name rest).2 ≤
      sizeAll rest := by
  have shorter := sizeAll_dropWhile_le Node.insidePrelude rest
  unfold Entry.atRuleOf
  split
  · rename_i shape
    simp only [shape, sizeAll, Node.size] at shorter
    simp only [Entry.inner]
    omega
  · have tailShorter := sizeAll_tail_le (rest.dropWhile Node.insidePrelude)
    simp only [Entry.inner, sizeAll, Nat.zero_add]
    omega

theorem Entry.inner_styleRuleOf (nodes : List Node) : (Entry.styleRuleOf nodes).1.inner = [] := by
  unfold Entry.styleRuleOf
  split <;> rfl

theorem Entry.size_styleRuleOf_lt (first : Node) (rest : List Node)
    (ordinary : first.isCurly = false) :
    sizeAll (Entry.styleRuleOf (first :: rest)).2 < sizeAll (first :: rest) := by
  have positive := first.size_pos
  have shorter := sizeAll_dropWhile_le Node.insideSelector rest
  have advance : (first :: rest).dropWhile Node.insideSelector =
      rest.dropWhile Node.insideSelector := by
    simp [Node.insideSelector, ordinary]
  unfold Entry.styleRuleOf
  rw [advance]
  split
  · rename_i shape
    simp only [shape, sizeAll] at shorter
    simp only [sizeAll]
    omega
  · simp only [sizeAll]
    omega

/-- What is left of the list, and what is inside the entry, is smaller than the list. -/
theorem Entry.size_next?_lt {nodes rest : List Node} {entry : Entry}
    (next : Entry.next? nodes = some (entry, rest)) :
    sizeAll entry.inner + sizeAll rest < sizeAll nodes := by
  have shorter := sizeAll_dropWhile_le Node.isSeparator nodes
  unfold Entry.next? at next
  split at next
  · contradiction
  · rename_i opening content closing after shape
    rw [shape] at shorter
    split at next
    · obtain ⟨rfl, rfl⟩ := Prod.mk.inj (Option.some.inj next)
      simp only [Entry.inner, sizeAll, Node.size] at shorter ⊢
      omega
    · rename_i ordinary
      have smaller := Entry.size_styleRuleOf_lt (.block opening content closing) after
        (by simpa [Node.isCurly] using ordinary)
      have inside := Entry.inner_styleRuleOf (.block opening content closing :: after)
      rw [Option.some.inj next] at smaller inside
      simp only [inside, sizeAll, Nat.zero_add]
      simp only [sizeAll] at smaller shorter
      omega
  · rename_i lexeme after shape
    rw [shape] at shorter
    split at next
    · rename_i name _
      have smaller := Entry.size_atRuleOf_le name after
      simp only [Option.some.inj next] at smaller
      simp only [sizeAll, Node.size] at shorter
      omega
    · split at next
      · obtain ⟨rfl, rfl⟩ := Prod.mk.inj (Option.some.inj next)
        simp only [Entry.inner, sizeAll, Node.size] at shorter ⊢
        omega
      · have smaller := Entry.size_styleRuleOf_lt (.leaf lexeme) after (by simp [Node.isCurly])
        have inside := Entry.inner_styleRuleOf (.leaf lexeme :: after)
        rw [Option.some.inj next] at smaller inside
        simp only [inside, sizeAll, Nat.zero_add]
        simp only [sizeAll] at smaller shorter
        omega

end ComponentStyles.Css
