import ComponentStyles.Proofs.Css.Round

/-!
The one fault of a text.

A text has no rules only if some list of rules in it, at the top or directly inside groups, ends
behind a selector without a block.  Whatever else is wrong in a text is passed: the cursor, which
may meet a fault at every token, never lets another one out of the list that it reads.
-/

namespace ComponentStyles.Css

/-- A text fails exactly if it has a bare selector at the top or directly inside groups, and then
with the first one; no other fault of the cursor gets out of it. -/
theorem only_bare_selectors_fail (text : String) :
    (∀ fault, readText text = .error fault ↔
      ∃ enclosed bare others, RuleList (nodes text.toList) enclosed (bare :: others) ∧
        fault = { kind := .missingBlock (trimmedText bare.selector), ahead := bare.behind }) ∧
    (∀ message, (rules text).mapError MissingBlock.message = .error message ↔
      ∃ enclosed bare others, RuleList (nodes text.toList) enclosed (bare :: others) ∧
        message = "rule '" ++ trimmedText bare.selector ++
          "' has no declaration block at line " ++ toString (bare.fault.placeIn text).line ++
          ", column " ++ toString (bare.fault.placeIn text).column) ∧
    (∀ found, rules text = .ok found ↔ readText text = .ok found) ∧
    ((∃ found, rules text = .ok found) ↔
      ∃ enclosed, RuleList (nodes text.toList) enclosed []) := by
  have cursor := text_ends_iff text (readText text) BareSelector.fault
    (fun _ list => list.readText_eq) fun _ _ _ list => list.readText_fault
  have tree := text_ends_iff text (rules text) (BareSelector.missingBlock text)
    (fun _ list => list.rules_eq) fun _ _ _ list => list.rules_fault
  have message := text_ends_iff text ((rules text).mapError MissingBlock.message)
    (fun bare => (bare.missingBlock text).message)
    (fun _ list => congrArg (Except.mapError MissingBlock.message) list.rules_eq)
    fun _ _ _ list => congrArg (Except.mapError MissingBlock.message) list.rules_fault
  refine ⟨cursor.2, message.2, ?_, ?_⟩
  · intro found
    exact (tree.1 found).trans (cursor.1 found).symm
  · constructor
    · rintro ⟨found, read⟩
      obtain ⟨enclosed, list, _⟩ := (tree.1 found).mp read
      exact ⟨enclosed, list⟩
    · rintro ⟨enclosed, list⟩
      exact ⟨_, list.rules_eq⟩

example : (rules "@import x; a; b").mapError MissingBlock.message =
    .error "rule 'a; b' has no declaration block at line 1, column 16" := by
  decide +kernel

end ComponentStyles.Css
