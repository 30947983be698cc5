/-!
Breadth-first search.

Every item found has a key, and of several items with one key only the first is taken.  Keys
leave the set of remaining ones when they are taken, so the search ends on every graph, cycles
included.
-/

namespace ComponentStyles.Project

variable {α κ : Type} [DecidableEq κ]

def withoutKey (remaining : List κ) (key : κ) : List κ :=
  remaining.filter (· ≠ key)

theorem mem_withoutKey {remaining : List κ} {key other : κ} :
    other ∈ withoutKey remaining key ↔ other ∈ remaining ∧ other ≠ key := by
  simp [withoutKey]

theorem length_withoutKey_lt {remaining : List κ} {key : κ} (member : key ∈ remaining) :
    (withoutKey remaining key).length < remaining.length := by
  rw [withoutKey, List.length_filter_lt_length_iff_exists]
  exact ⟨key, member, by simp⟩

/-- The items reached from the waiting ones, in breadth-first order.  An item is taken when its
key remains. -/
def breadthFirst (key : α → κ) (next : α → List α) (remaining : List κ) (waiting : List α) :
    List α :=
  match waiting with
  | [] => []
  | item :: rest =>
      if key item ∈ remaining then
        item :: breadthFirst key next (withoutKey remaining (key item)) (rest ++ next item)
      else breadthFirst key next remaining rest
termination_by (remaining.length, waiting.length)
decreasing_by
  · rename_i member
    exact Prod.Lex.left _ _ (length_withoutKey_lt member)
  · apply Prod.Lex.right
    simp

end ComponentStyles.Project
