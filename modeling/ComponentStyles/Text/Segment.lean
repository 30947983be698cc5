/-!
Texts cut at a separating character.

The statements say that a cut at the first or at the last separator loses nothing, and that
the part on the separator's outer side holds no further one.
-/

namespace ComponentStyles.Text

variable {separator : Char} {text front back : List Char}

def cutFirst? (separator : Char) : List Char → Option (List Char × List Char)
  | [] => none
  | character :: rest =>
      if character = separator then some ([], rest)
      else (cutFirst? separator rest).map fun parts => (character :: parts.1, parts.2)

def cutLast? (separator : Char) (text : List Char) : Option (List Char × List Char) :=
  (cutFirst? separator text.reverse).map fun parts => (parts.2.reverse, parts.1.reverse)

def lastSegment (separator : Char) (text : List Char) : List Char :=
  match cutLast? separator text with
  | some (_, back) => back
  | none => text

def leadingSegments (separator : Char) (text : List Char) : List Char :=
  match cutLast? separator text with
  | some (front, _) => front
  | none => []

theorem cutFirst?_append (absent : separator ∉ front) :
    cutFirst? separator (front ++ separator :: back) = some (front, back) := by
  induction front with
  | nil => simp [cutFirst?]
  | cons character rest inductionHypothesis =>
      simp only [List.mem_cons, not_or] at absent
      obtain ⟨different, absent⟩ := absent
      simp [cutFirst?, Ne.symm different, inductionHypothesis absent]

theorem not_mem_of_cutFirst? (uncut : cutFirst? separator text = none) : separator ∉ text := by
  intro inside
  obtain ⟨front, back, shape, absent⟩ := List.eq_append_cons_of_mem inside
  rw [shape, cutFirst?_append absent] at uncut
  cases uncut

theorem append_of_cutFirst? (cut : cutFirst? separator text = some (front, back)) :
    text = front ++ separator :: back ∧ separator ∉ front := by
  induction text generalizing front with
  | nil => simp [cutFirst?] at cut
  | cons character rest inductionHypothesis =>
      by_cases same : character = separator
      · simp only [cutFirst?, same, if_true, Option.some.injEq, Prod.mk.injEq] at cut
        obtain ⟨rfl, rfl⟩ := cut
        simp [same]
      · simp only [cutFirst?, same, if_false] at cut
        obtain ⟨parts, inner, shape⟩ := Option.map_eq_some_iff.mp cut
        obtain ⟨rfl, rfl⟩ := Prod.mk.inj shape
        obtain ⟨rfl, absent⟩ := inductionHypothesis inner
        exact ⟨by simp, by simp [Ne.symm same, absent]⟩

theorem not_mem_of_cutLast? (uncut : cutLast? separator text = none) : separator ∉ text := by
  have absent := not_mem_of_cutFirst? (Option.map_eq_none_iff.mp uncut)
  rw [List.mem_reverse] at absent
  exact absent

theorem cutLast?_append (absent : separator ∉ back) :
    cutLast? separator (front ++ separator :: back) = some (front, back) := by
  have absent : separator ∉ back.reverse := by simpa using absent
  simp [cutLast?, cutFirst?_append absent]

theorem append_of_cutLast? (cut : cutLast? separator text = some (front, back)) :
    text = front ++ separator :: back ∧ separator ∉ back := by
  obtain ⟨parts, inner, shape⟩ := Option.map_eq_some_iff.mp cut
  obtain ⟨rfl, rfl⟩ := Prod.mk.inj shape
  obtain ⟨reversed, absent⟩ := append_of_cutFirst? inner
  refine ⟨?_, by simpa using absent⟩
  have straight := congrArg List.reverse reversed
  simpa using straight

end ComponentStyles.Text
