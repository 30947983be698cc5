import ComponentStyles.Problem.Message

/-!
Replacing a mark wherever it occurs.

What is put in place of a mark is not read again, a character that the mark does not have divides
the text into two that are read on their own, and a text stays as it is exactly if there is nothing
to replace or each mark is replaced by itself.
-/

namespace ComponentStyles.Message

variable (mark replacement : List Char)

theorem replaceFrom_append (text done earlier : List Char) :
    replaceFrom mark replacement text (done ++ earlier) =
      earlier.reverse ++ replaceFrom mark replacement text done := by
  fun_induction replaceFrom mark replacement text done with
  | case1 done => rw [replaceFrom, List.reverse_append]
  | case2 done character rest marked inductionHypothesis =>
      rw [replaceFrom, if_pos marked, ← inductionHypothesis, List.reverseAux_eq,
        List.reverseAux_eq, List.append_assoc]
  | case3 done character rest unmarked inductionHypothesis =>
      rw [replaceFrom, if_neg unmarked, ← inductionHypothesis, List.cons_append]

@[simp]
theorem replaceAll_nil : replaceAll mark replacement [] = [] := by
  rw [replaceAll, replaceFrom, List.reverse_nil]

theorem replaceAll_cons (character : Char) (rest : List Char) :
    replaceAll mark replacement (character :: rest) =
      if mark.isPrefixOf (character :: rest) then
        replacement ++ replaceAll mark replacement (rest.drop (mark.length - 1))
      else character :: replaceAll mark replacement rest := by
  rw [replaceAll, replaceFrom]
  split
  · rw [List.reverseAux_eq, List.append_nil, ← List.nil_append replacement.reverse,
      replaceFrom_append, List.reverse_reverse]
    rfl
  · exact replaceFrom_append mark replacement rest [] [character]

variable {mark}

theorem replaceAll_marked (something : mark ≠ []) (rest : List Char) :
    replaceAll mark replacement (mark ++ rest) =
      replacement ++ replaceAll mark replacement rest := by
  obtain ⟨first, others, shape⟩ := List.exists_cons_of_ne_nil something
  have marked : mark.isPrefixOf (mark ++ rest) = true :=
    List.isPrefixOf_iff_prefix.mpr (List.prefix_append mark rest)
  rw [shape, List.cons_append] at marked ⊢
  rw [replaceAll_cons, if_pos marked, List.length_cons, Nat.add_sub_cancel, List.drop_left]

theorem replaceAll_unmarked {character : Char} {rest : List Char}
    (unmarked : ¬mark <+: character :: rest) :
    replaceAll mark replacement (character :: rest) =
      character :: replaceAll mark replacement rest := by
  rw [replaceAll_cons, if_neg fun marked => unmarked (List.isPrefixOf_iff_prefix.mp marked)]

theorem prefix_of_foreign {character : Char} {front rest : List Char} (foreign : character ∉ mark)
    (marked : mark <+: front ++ character :: rest) : mark <+: front := by
  obtain ⟨behind, shape⟩ := marked
  rcases List.append_eq_append_iff.mp shape with ⟨between, within, _⟩ | ⟨reach, longer, rest⟩
  · exact ⟨between, within.symm⟩
  · cases reach with
    | nil =>
        rewrite [longer, List.append_nil]
        exact List.prefix_refl front
    | cons next others =>
        rw [List.cons_append, List.cons.injEq] at rest
        rw [longer, rest.1] at foreign
        exact absurd (List.mem_append_right _ List.mem_cons_self) foreign

/-- A text is read from left to right: a mark as a whole, anything else character by character. -/
@[elab_as_elim]
theorem reading_induction (something : mark ≠ []) {motive : List Char → Prop} (text : List Char)
    (nothing : motive [])
    (marked : ∀ rest, motive rest → motive (mark ++ rest))
    (unmarked : ∀ character rest, ¬mark <+: character :: rest → motive rest →
      motive (character :: rest)) : motive text := by
  by_cases found : mark <+: text
  · obtain ⟨rest, shape⟩ := found
    rw [← shape]
    exact marked rest (reading_induction something rest nothing marked unmarked)
  · cases text with
    | nil => exact nothing
    | cons character rest =>
        exact unmarked character rest found
          (reading_induction something rest nothing marked unmarked)
termination_by text.length
decreasing_by
  · have longer := List.length_pos_iff.mpr something
    rw [← shape, List.length_append]
    omega
  · exact Nat.lt_succ_self rest.length

/-- A character that the mark does not have separates what stands on its sides. -/
theorem replaceAll_divided {character : Char} (foreign : character ∉ mark) (something : mark ≠ [])
    (front rest : List Char) :
    replaceAll mark replacement (front ++ character :: rest) =
      replaceAll mark replacement front ++ character :: replaceAll mark replacement rest := by
  induction front using reading_induction something with
  | nothing =>
      have unmarked : ¬mark <+: character :: rest := by
        intro wide
        have begun : mark <+: [] := prefix_of_foreign foreign wide
        exact something (List.prefix_nil.mp begun)
      rw [replaceAll_nil]
      exact replaceAll_unmarked replacement unmarked
  | marked behind inductionHypothesis =>
      rw [List.append_assoc, replaceAll_marked replacement something,
        replaceAll_marked replacement something, inductionHypothesis, List.append_assoc]
  | unmarked next behind unmarked inductionHypothesis =>
      have unmarkedWide : ¬mark <+: next :: behind ++ character :: rest :=
        fun wide => unmarked (prefix_of_foreign foreign wide)
      rw [replaceAll_unmarked replacement unmarked, List.cons_append, List.cons_append,
        ← inductionHypothesis]
      exact replaceAll_unmarked replacement unmarkedWide

theorem replaceAll_of_absent {text : List Char} (absent : ¬mark <:+: text) :
    replaceAll mark replacement text = text := by
  induction text with
  | nil => exact replaceAll_nil mark replacement
  | cons character rest inductionHypothesis =>
      have unmarked : ¬mark <+: character :: rest := fun marked => absent marked.isInfix
      have absentBehind : ¬mark <:+: rest := by
        intro inside
        exact absent (inside.trans (List.suffix_cons character rest).isInfix)
      rw [replaceAll_unmarked replacement unmarked, inductionHypothesis absentBehind]

theorem replaceAll_self (something : mark ≠ []) (text : List Char) :
    replaceAll mark mark text = text := by
  induction text using reading_induction something with
  | nothing => exact replaceAll_nil mark mark
  | marked rest inductionHypothesis =>
      rw [replaceAll_marked mark something, inductionHypothesis]
  | unmarked character rest unmarked inductionHypothesis =>
      rw [replaceAll_unmarked mark unmarked, inductionHypothesis]

theorem length_replaceAll (something : mark ≠ []) (text : List Char) :
    ∃ count, (replaceAll mark replacement text).length + count * mark.length =
        text.length + count * replacement.length ∧ (mark <:+: text → 0 < count) := by
  induction text using reading_induction something with
  | nothing =>
      refine ⟨0, by rw [replaceAll_nil, Nat.zero_mul, Nat.zero_mul], ?_⟩
      intro inside
      exact absurd (List.infix_nil.mp inside) something
  | marked rest inductionHypothesis =>
      obtain ⟨count, exchanged, _⟩ := inductionHypothesis
      refine ⟨count + 1, ?_, fun _ => Nat.succ_pos count⟩
      rw [replaceAll_marked replacement something, List.length_append, List.length_append,
        Nat.succ_mul, Nat.succ_mul]
      omega
  | unmarked character rest unmarked inductionHypothesis =>
      obtain ⟨count, exchanged, occurs⟩ := inductionHypothesis
      refine ⟨count, ?_, ?_⟩
      · rw [replaceAll_unmarked replacement unmarked, List.length_cons, List.length_cons]
        omega
      · intro inside
        exact occurs ((List.infix_cons_iff.mp inside).resolve_left unmarked)

theorem eq_of_replaceAll_eq (something : mark ≠ []) (alike : replacement.length = mark.length)
    {text : List Char} (inside : mark <:+: text)
    (kept : replaceAll mark replacement text = text) : replacement = mark := by
  induction text using reading_induction something with
  | nothing => exact absurd (List.infix_nil.mp inside) something
  | marked rest _ =>
      rw [replaceAll_marked replacement something] at kept
      exact List.append_inj_left kept alike
  | unmarked character rest unmarked inductionHypothesis =>
      rw [replaceAll_unmarked replacement unmarked, List.cons.injEq] at kept
      exact inductionHypothesis ((List.infix_cons_iff.mp inside).resolve_left unmarked) kept.2

/-- A text stays as it is exactly if the mark does not occur in it or is replaced by itself. -/
theorem replaceAll_eq_self (something : mark ≠ []) {text : List Char} :
    replaceAll mark replacement text = text ↔ ¬mark <:+: text ∨ replacement = mark := by
  constructor
  · intro kept
    by_cases inside : mark <:+: text
    · obtain ⟨count, exchanged, occurs⟩ := length_replaceAll replacement something text
      rw [kept] at exchanged
      have alike : replacement.length = mark.length :=
        Nat.eq_of_mul_eq_mul_left (occurs inside) (by omega)
      exact Or.inr (eq_of_replaceAll_eq replacement something alike inside kept)
    · exact Or.inl inside
  · rintro (absent | same)
    · exact replaceAll_of_absent replacement absent
    · rw [same]
      exact replaceAll_self something text

end ComponentStyles.Message
