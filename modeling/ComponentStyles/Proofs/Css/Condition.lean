import ComponentStyles.Proofs.Css.Round

/-!
Conditions of rules in groups.

A list of rules is read in the same way whatever condition holds around it; only the conditions of
its rules differ, and they do so by the condition around the list.  So a rule inside any number of
groups carries their headers, outermost first.
-/

namespace ComponentStyles.Css

open Cursor

def conditionUnder (outer : String) (condition : Option String) : String :=
  match condition with
  | some inner => outer ++ " " ++ inner
  | none => outer

theorem nestedCondition_under (outer : String) (condition : Option String) (header : String) :
    nestedCondition (some (conditionUnder outer condition)) header =
      conditionUnder outer (some (nestedCondition condition header)) := by
  cases condition with
  | none => rfl
  | some inner =>
      unfold nestedCondition conditionUnder
      dsimp only
      rw [String.append_assoc, String.append_assoc, String.append_assoc, String.append_assoc,
        String.append_assoc]

def Rule.under (outer : String) (rule : Rule) : Rule :=
  { rule with condition := some (conditionUnder outer rule.condition) }

/-- Both readings end in the same way and at the same place, and what one finds is what the other
finds, under the condition. -/
structure SameUnder (outer : String) (plain : RulesReading) (found : List Rule)
    (nested : RulesReading) (others : List Rule) : Prop where
  result : nested.result = plain.result
  cursor : nested.cursor = plain.cursor
  added : ∃ added, plain.found = found ++ added ∧
    nested.found = others ++ added.map (Rule.under outer)

theorem SameUnder.behind {outer : String} {plain nested : RulesReading} {found others : List Rule}
    (earlier : List Rule)
    (same : SameUnder outer plain (found ++ earlier) nested
      (others ++ earlier.map (Rule.under outer))) : SameUnder outer plain found nested others := by
  obtain ⟨added, foundAll, othersAll⟩ := same.added
  refine { result := same.result, cursor := same.cursor, added := ⟨earlier ++ added, ?_, ?_⟩ }
  · rw [foundAll, List.append_assoc]
  · rw [othersAll, List.map_append, List.append_assoc]

theorem SameUnder.blockResult {outer : String} {plain nested : RulesReading}
    {found others : List Rule} (same : SameUnder outer plain found nested others) :
    nested.blockResult = plain.blockResult ∧ nested.behind = plain.behind := by
  unfold RulesReading.blockResult RulesReading.behind
  rw [same.result, same.cursor]
  exact ⟨rfl, rfl⟩

theorem readRules_suffix (delimiters : List Delimiter) (condition : Option String)
    (cursor : Cursor) (found : List Rule) :
    (readRules delimiters condition cursor found).cursor.settled <:+ cursor.settled :=
  (readRulesFrom delimiters condition cursor found).2

/-- By induction on what is left to read: each round is the same, up to the condition. -/
theorem readRules_under (outer : String) (delimiters : List Delimiter) (condition : Option String)
    (cursor : Cursor) (found others : List Rule) :
    SameUnder outer (readRules delimiters condition cursor found) found
      (readRules delimiters (some (conditionUnder outer condition)) cursor others) others := by
  induction size : cursor.settled.length using Nat.strongRecOn
    generalizing delimiters condition cursor found others with
  | ind size inductionHypothesis =>
      subst size
      cases round : readRound delimiters cursor with
      | ended result after =>
          rw [readRules_ended _ _ round, readRules_ended _ _ round]
          exact { result := rfl, cursor := rfl, added := ⟨[], by simp⟩ }
      | passed after =>
          have shorter := (settled_of_round round rfl).2
          have less := Nat.lt_of_le_of_lt (settled_suffix after).length_le shorter
          rw [readRules_passed _ _ round, readRules_passed _ _ round]
          exact inductionHypothesis _ less delimiters condition after found others rfl
      | kept selector declarations after =>
          have shorter := (settled_of_round round rfl).2
          have less := Nat.lt_of_le_of_lt (settled_suffix after).length_le shorter
          rw [readRules_kept _ _ round, readRules_kept _ _ round]
          exact (inductionHypothesis _ less delimiters condition after _ _ rfl).behind
            [⟨condition, selector, declarations⟩]
      | entered header after =>
          have shorter := (settled_of_round round rfl).2
          have inside : (facing after.ahead).settled.length < cursor.settled.length := by
            rw [settled_facing]
            exact shorter
          have same := inductionHypothesis _ inside [.closing .curly]
            (some (nestedCondition condition header)) (facing after.ahead) found others rfl
          have left := RulesReading.behind_suffix
            (readRules_suffix [.closing .curly] (some (nestedCondition condition header))
              (facing after.ahead) found)
          rw [readRules_entered _ _ round, readRules_entered _ _ round, nestedCondition_under]
          dsimp only
          rw [same.blockResult.1, same.blockResult.2]
          split
          · exact { result := rfl, cursor := rfl, added := same.added }
          · obtain ⟨added, foundInside, othersInside⟩ := same.added
            rw [foundInside, othersInside]
            have less := Nat.lt_of_le_of_lt left.length_le inside
            exact (inductionHypothesis _ less delimiters condition _ _ _ rfl).behind added

theorem EnclosedRule.under_some (outer : String) (rule : EnclosedRule) :
    rule.under (some outer) = (rule.under none).under outer := by
  obtain ⟨headers, selector, declarations⟩ := rule
  cases headers with
  | nil => rfl
  | cons first others =>
      have condition := foldl_nestedCondition outer (first :: others)
      have inner := foldl_nestedCondition first others
      rw [String.intercalate_cons_cons] at condition
      unfold EnclosedRule.under Rule.under
      dsimp only
      rw [condition, List.foldl_cons, nestedCondition, inner]
      rfl

theorem outcome_under (outer : String) (enclosed : List EnclosedRule) (bares : List BareSelector) :
    outcome (some outer) [] enclosed bares =
      (outcome none [] enclosed bares).map (List.map (Rule.under outer)) := by
  cases bares with
  | cons bare others => rfl
  | nil =>
      have same : EnclosedRule.under (some outer) = Rule.under outer ∘ EnclosedRule.under none :=
        funext (EnclosedRule.under_some outer)
      unfold outcome
      rw [same, ← List.map_map]
      rfl

theorem rulesIn_under (outer text : String) :
    rulesIn (some outer) (nodes text.toList) =
      (rulesIn none (nodes text.toList)).map (List.map (Rule.under outer)) := by
  obtain ⟨enclosed, bares, list⟩ := ruleList_total (nodes text.toList)
  have placed := (nodesOf_placed (lexemes text.toList)).1
  rw [list.rulesIn_eq]
  refine (list.rulesFrom_eq placed (some outer) #[]).trans ?_
  rw [outcome_under]
  cases outcome none [] enclosed bares <;> rfl

/-- The condition around a list is put in front of the conditions of its rules and has no other
influence on how the list is read.  So the rules of a text carry the headers of the groups around
them, and a rule outside all groups carries none. -/
theorem groups_flatten :
    (∀ delimiters cursor outer found others,
      let plain := readRules delimiters none cursor found
      let nested := readRules delimiters (some outer) cursor others
      nested.result = plain.result ∧ nested.cursor = plain.cursor ∧
        ∃ added, plain.found = found ++ added ∧
          nested.found = others ++ added.map (Rule.under outer)) ∧
    (∀ outer text : String, rulesIn (some outer) (nodes text.toList) =
      (rulesIn none (nodes text.toList)).map (List.map (Rule.under outer))) ∧
    (∀ text found, rules text = .ok found ↔
      ∃ enclosed, RuleList (nodes text.toList) enclosed [] ∧
        found = enclosed.map EnclosedRule.listed) ∧
    ∀ rule : EnclosedRule, rule.listed.condition = none ↔ rule.headers = [] := by
  refine ⟨?_, rulesIn_under, ?_, ?_⟩
  · intro delimiters cursor outer found others
    have same := readRules_under outer delimiters none cursor found others
    exact ⟨same.result, same.cursor, same.added⟩
  · intro text found
    exact (text_ends_iff text (rules text) (BareSelector.missingBlock text)
      (fun _ list => list.rules_eq) fun _ _ _ list => list.rules_fault).1 found
  · intro rule
    cases shape : rule.headers <;> simp [EnclosedRule.listed, shape]

example :
    (rules "@media a\x7b@layer b\x7bc\x7bd: e\x7d\x7df\x7b\x7d\x7dg\x7b\x7d").toOption.map
        (List.map Rule.condition) =
      some [some "@media a @layer b", some "@media a", none] := by
  decide +kernel

end ComponentStyles.Css
