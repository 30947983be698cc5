import ComponentStyles.Proofs.Sheet.Recording

/-!
What a stylesheet adds to the sinks.

A sheet that does not compile adds nothing.  One that compiles adds its new strings, each where
it first comes, and one count for every reference in its values.  Every recording step gains the
strings and the references of its own item, and gains add up along a run.
-/

namespace ComponentStyles

namespace Css

/-- The strings of a rule in the order in which they are written. -/
def Rule.texts (rule : Rule) : List String :=
  rule.condition.toList ++ rule.selector ::
    rule.declarations.flatMap fun declaration => [declaration.name, declaration.value]

def Rule.references (rule : Rule) : List Reference :=
  rule.declarations.flatMap fun declaration => Css.references declaration.value

open Sheet.AssetTally in
def Reference.IsFilm : Reference → Prop
  | .asset path => NamesFilm path
  | .component _ => False

open Sheet.AssetTally in
def Reference.IsImage : Reference → Prop
  | .asset path => ¬NamesFilm path
  | .component _ => False

instance : DecidablePred Reference.IsFilm
  | .asset path => inferInstanceAs (Decidable (Sheet.AssetTally.NamesFilm path))
  | .component _ => inferInstanceAs (Decidable False)

instance : DecidablePred Reference.IsImage
  | .asset path => inferInstanceAs (Decidable (¬Sheet.AssetTally.NamesFilm path))
  | .component _ => inferInstanceAs (Decidable False)

end Css

namespace Sheet

open ComponentStyles.Css

structure Sinks.Gained (before : Sinks) (texts : List String) (found : List Reference)
    (after : Sinks) : Prop where
  strings : after.strings.strings.toList =
    before.strings.strings.toList ++
      (texts.filter fun text => text ∉ before.strings.strings.toList).eraseDups
  components : ∀ name : ClassName,
    after.components.count name =
      before.components.count name + found.count (.component name.qualified)
  films : after.assets.films =
    before.assets.films + found.countP fun reference => reference.IsFilm
  images : after.assets.images =
    before.assets.images + found.countP fun reference => reference.IsImage

namespace Sinks.Gained

theorem refl (sinks : Sinks) : sinks.Gained [] [] sinks where
  strings := by rw [List.filter_nil, List.eraseDups_nil, List.append_nil]
  components _ := rfl
  films := rfl
  images := rfl

/-- What is new behind the first strings is what is new to the table they left. -/
theorem new_append (held first second : List String) :
    held ++ ((first ++ second).filter fun text => text ∉ held).eraseDups =
      held ++ (first.filter fun text => text ∉ held).eraseDups ++
        (second.filter fun text =>
          text ∉ held ++ (first.filter fun text => text ∉ held).eraseDups).eraseDups := by
  have remaining : (second.filter fun text => text ∉ held).removeAll
        (first.filter fun text => text ∉ held) =
      second.filter fun text =>
        text ∉ held ++ (first.filter fun text => text ∉ held).eraseDups := by
    rw [List.removeAll, List.filter_filter]
    apply List.filter_congr
    intro text _
    by_cases known : text ∈ held
    · simp [known]
    · simp [known, List.mem_eraseDups]
  rw [List.filter_append, List.eraseDups_append, remaining, List.append_assoc]

theorem trans {before middle after : Sinks} {texts laterTexts : List String}
    {found laterFound : List Reference} (first : before.Gained texts found middle)
    (second : middle.Gained laterTexts laterFound after) :
    before.Gained (texts ++ laterTexts) (found ++ laterFound) after where
  strings := by rw [second.strings, first.strings, new_append]
  components name := by rw [second.components, first.components, List.count_append, Nat.add_assoc]
  films := by rw [second.films, first.films, List.countP_append, Nat.add_assoc]
  images := by rw [second.images, first.images, List.countP_append, Nat.add_assoc]

theorem intern (sinks : Sinks) (text : String) :
    sinks.Gained [text] [] (sinks.intern text).2 where
  strings := by
    by_cases holds : sinks.strings.Holds text
    · have known : text ∈ sinks.strings.strings.toList := holds
      simp only [Sinks.intern, StringTable.intern_held holds]
      rw [List.filter_cons_of_neg (by simpa using known), List.filter_nil, List.eraseDups_nil,
        List.append_nil]
    · have absent : text ∉ sinks.strings.strings.toList := holds
      simp only [Sinks.intern, StringTable.intern_new holds, Array.toList_push]
      rw [List.filter_cons_of_pos (by simpa using absent), List.filter_nil]
      rfl
  components _ := rfl
  films := rfl
  images := rfl

theorem note (sinks : Sinks) (reference : Reference) :
    sinks.Gained [] [reference] (sinks.note reference) where
  strings := by
    rw [sinks.note_strings, List.filter_nil, List.eraseDups_nil, List.append_nil]
  components name := by
    cases reference with
    | asset path => rfl
    | component className =>
        by_cases same : className = name.qualified
        · simp only [Sinks.note, ComponentTally.count, ComponentTally.register, same,
            List.count_cons_self, List.count_nil, Nat.zero_add]
        · have different : ({ qualified := className } : ClassName) ≠ name :=
            fun equal => same (congrArg ClassName.qualified equal)
          have otherReference : Reference.component className ≠ .component name.qualified :=
            fun equal => same (Reference.component.inj equal)
          simp only [Sinks.note, ComponentTally.count, ComponentTally.register]
          rw [List.count_cons_of_ne different, List.count_cons_of_ne otherReference]
          rfl
  films := by
    cases reference with
    | component className => rfl
    | asset path =>
        by_cases film : AssetTally.NamesFilm path <;>
          simp [Sinks.note, AssetTally.record, AssetTally.isFilm_iff, Reference.IsFilm, film]
  images := by
    cases reference with
    | component className => rfl
    | asset path =>
        by_cases film : AssetTally.NamesFilm path <;>
          simp [Sinks.note, AssetTally.record, AssetTally.isFilm_iff, Reference.IsImage, film]

theorem noteAll (found : List Reference) (sinks : Sinks) :
    sinks.Gained [] found (found.foldl Sinks.note sinks) := by
  induction found generalizing sinks with
  | nil => exact refl sinks
  | cons reference rest inductionHypothesis =>
      exact (note sinks reference).trans (inductionHypothesis (sinks.note reference))

theorem scan (sinks : Sinks) (value : String) :
    sinks.Gained [] (references value) (sinks.scan value) :=
  noteAll (references value) sinks

/-- If one step gains what belongs to its item, a run gains what belongs to all of them. -/
theorem recordAll {α β : Type} {step : α → Sinks → β × Sinks} {texts : α → List String}
    {found : α → List Reference}
    (gains : ∀ (item : α) (sinks : Sinks),
      sinks.Gained (texts item) (found item) (step item sinks).2)
    (items : List α) (sinks : Sinks) (records : Array β) :
    sinks.Gained (items.flatMap texts) (items.flatMap found)
      (Sheet.recordAll step items sinks records).2 := by
  induction items generalizing sinks records with
  | nil => exact refl sinks
  | cons item rest inductionHypothesis =>
      rw [List.flatMap_cons, List.flatMap_cons]
      exact (gains item sinks).trans
        (inductionHypothesis (step item sinks).2 (records.push (step item sinks).1))

theorem recordDeclaration (declaration : Declaration) (sinks : Sinks) :
    sinks.Gained [declaration.name, declaration.value] (references declaration.value)
      (Sheet.recordDeclaration declaration sinks).2 := by
  have name := (scan sinks declaration.value).trans
    (intern (sinks.scan declaration.value) declaration.name)
  have value := name.trans
    (intern ((sinks.scan declaration.value).intern declaration.name).2 declaration.value)
  rw [List.append_nil, List.append_nil] at value
  exact value

theorem recordCondition (condition : Option String) (sinks : Sinks) :
    sinks.Gained condition.toList [] (Sheet.recordCondition condition sinks).2 := by
  cases condition with
  | none => exact refl sinks
  | some text => exact intern sinks text

theorem recordRule (rule : Rule) (sinks : Sinks) :
    sinks.Gained rule.texts rule.references (Sheet.recordRule rule sinks).2 := by
  have condition := recordCondition rule.condition sinks
  have selector := intern (Sheet.recordCondition rule.condition sinks).2 rule.selector
  have declarations := recordAll recordDeclaration rule.declarations
    ((Sheet.recordCondition rule.condition sinks).2.intern rule.selector).2 #[]
  exact condition.trans (selector.trans declarations)

theorem compileRules (rules : List Rule) (sinks : Sinks) :
    sinks.Gained (rules.flatMap Rule.texts) (rules.flatMap Rule.references)
      (Sheet.compileRules rules sinks).2 :=
  recordAll recordRule rules sinks #[]

end Sinks.Gained

/-- A text whose rules cannot be read, or are more than the layout can count. -/
def Refused (text : String) : Prop :=
  (∃ fault, Css.rules text = .error fault) ∨
    ∃ found, Css.rules text = .ok found ∧
      (65535 < found.length ∨ ∃ rule ∈ found, 65535 < rule.declarations.length)

theorem checkedRules_error_iff {text : String} :
    (∃ fault, checkedRules text = .error fault) ↔ Refused text := by
  cases checked : checkedRules text with
  | ok found =>
      obtain ⟨read, fit⟩ := checkedRules_ok checked
      refine iff_of_false (by simp) ?_
      rintro (⟨fault, failed⟩ | ⟨other, otherRead, many | ⟨rule, inside, long⟩⟩)
      · rw [read] at failed
        cases failed
      · rw [read] at otherRead
        cases otherRead
        exact absurd fit.rules (Nat.not_le_of_lt many)
      · rw [read] at otherRead
        cases otherRead
        exact absurd (fit.declarations rule inside) (Nat.not_le_of_lt long)
  | error fault =>
      refine iff_of_true ⟨fault, rfl⟩ ?_
      unfold checkedRules at checked
      cases read : Css.rules text with
      | error missing => exact Or.inl ⟨missing, read⟩
      | ok found =>
          refine Or.inr ⟨found, read, ?_⟩
          simp only [read] at checked
          by_cases many : countLimit < found.length
          · exact Or.inl many
          · rw [if_neg many] at checked
            cases long : found.find? oversized with
            | none =>
                simp only [long] at checked
                cases checked
            | some rule =>
                have isLong := List.find?_some long
                exact Or.inr ⟨rule, List.mem_of_find?_eq_some long, of_decide_eq_true isLong⟩

end Sheet

open ComponentStyles.Sheet

/-- Compiling a sheet fails exactly if it is refused and then leaves the sinks alone; otherwise
the sinks gain the strings and the references of all its rules. -/
theorem compile_all_or_nothing (document : Document) (module : ModuleName) (before : Sinks) :
    ((∃ failure, (sheetCompiler.compile document module before).1 = .error failure) ↔
        Refused document.text) ∧
      match sheetCompiler.compile document module before with
      | (.error _, after) => after = before
      | (.ok _, after) => ∃ found, Css.rules document.text = .ok found ∧
          before.Gained (found.flatMap Css.Rule.texts) (found.flatMap Css.Rule.references)
            after := by
  rw [← checkedRules_error_iff]
  simp only [sheetCompiler, compileText]
  cases checked : checkedRules document.text with
  | error fault => exact ⟨iff_of_true ⟨_, rfl⟩ ⟨fault, rfl⟩, rfl⟩
  | ok found =>
      refine ⟨iff_of_false ?_ ?_, found, (checkedRules_ok checked).1,
        Sinks.Gained.compileRules found before⟩
      · rintro ⟨failure, failed⟩
        cases failed
      · rintro ⟨fault, refused⟩
        cases refused

end ComponentStyles
