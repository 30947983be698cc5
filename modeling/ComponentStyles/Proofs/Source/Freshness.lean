import ComponentStyles.Proofs.Source.Flushes

/-!
What the barrier guarantees.

The index and the edits are looked at one after the other.  So behind a barrier that is passed lies
an instant at which the index was fresh and, not before it, one at which every edit was committed;
but the two are the same only if nobody rebuilds the index in between.
-/

namespace ComponentStyles

namespace SourceWorld

variable {world : SourceWorld} {schedule : List SourceAction} {number thread : Nat}

def FindsFresh (world : SourceWorld) (number thread : Nat) (schedule : List SourceAction) : Prop :=
  ∃ front rest, schedule = front ++ rest ∧ (world.after front).signals.indexing = false ∧
    (world.after front).calls[number]? = some { thread, phase := .testEdits } ∧
    ((world.after front).after rest).phase? number = some .passed

theorem FindsFresh.behind {front rest : List SourceAction}
    (found : (world.after front).FindsFresh number thread rest) :
    world.FindsFresh number thread (front ++ rest) := by
  obtain ⟨waited, later, split, indexed, placed, passed⟩ := found
  refine ⟨front ++ waited, later, ?_, ?_, ?_, ?_⟩
  · rw [split, List.append_assoc]
  · rw [after_append]
    exact indexed
  · rw [after_append]
    exact placed
  · rw [after_append]
    exact passed

theorem findsFresh_of_awaitIndex
    (present : world.calls[number]? = some { thread, phase := .awaitIndex })
    (passed : (world.after schedule).phase? number = some .passed) :
    world.FindsFresh number thread schedule := by
  obtain ⟨front, rest, before, next, split, stepped, placed, passed⟩ :=
    step_of_passed present nofun passed
  rw [BarrierPhase.step?] at stepped
  split at stepped
  · cases stepped
  · rename_i indexed
    rw [Option.some.injEq, Prod.mk.injEq] at stepped
    obtain ⟨tests, signals⟩ := stepped
    rw [← tests] at placed
    rw [signals] at indexed
    exact ⟨front, rest, split, Bool.eq_false_iff.mpr indexed, placed, passed⟩

/-- A barrier that is passed has found the index fresh, at once or after waiting for it. -/
theorem findsFresh_of_testIndex
    (present : world.calls[number]? = some { thread, phase := .testIndex })
    (passed : (world.after schedule).phase? number = some .passed) :
    world.FindsFresh number thread schedule := by
  obtain ⟨front, rest, before, next, split, stepped, placed, passed⟩ :=
    step_of_passed present nofun passed
  rw [BarrierPhase.step?, Option.some.injEq, Prod.mk.injEq] at stepped
  obtain ⟨tests, signals⟩ := stepped
  rw [signals] at tests
  cases indexing : (world.after front).signals.indexing with
  | false =>
      rw [indexing, if_neg Bool.false_ne_true] at tests
      rw [← tests] at placed
      exact ⟨front, rest, split, indexing, placed, passed⟩
  | true =>
      rw [indexing, if_pos rfl] at tests
      rw [← tests] at placed
      rw [split]
      exact (findsFresh_of_awaitIndex placed passed).behind

theorem Orderly.committed_of_testAccess (orderly : world.Orderly)
    (present : world.calls[number]? = some { thread, phase := .testAccess })
    (passed : (world.after schedule).phase? number = some .passed) :
    world.CommittedWithin schedule := by
  obtain ⟨front, rest, before, next, split, stepped, placed, passed⟩ :=
    step_of_passed present nofun passed
  rw [BarrierPhase.step?, Option.some.injEq, Prod.mk.injEq] at stepped
  obtain ⟨tests, _⟩ := stepped
  split at tests
  · rw [← tests] at placed
    exact absurd passed (not_passed_of_final rfl BarrierPhase.noConfusion placed)
  · rw [← tests] at placed
    rw [split]
    exact ((orderly.after front).committed_of_post placed passed).behind

theorem Orderly.committed_of_testEdits (orderly : world.Orderly)
    (present : world.calls[number]? = some { thread, phase := .testEdits })
    (passed : (world.after schedule).phase? number = some .passed) :
    world.CommittedWithin schedule := by
  obtain ⟨front, rest, before, next, split, stepped, placed, passed⟩ :=
    step_of_passed present nofun passed
  rw [BarrierPhase.step?, Option.some.injEq, Prod.mk.injEq] at stepped
  obtain ⟨tests, signals⟩ := stepped
  rw [signals] at tests
  rw [split]
  cases uncommitted : (world.after front).signals.uncommitted with
  | false => exact ⟨front, List.prefix_append front rest, uncommitted⟩
  | true =>
      rw [uncommitted, if_pos rfl] at tests
      rw [← tests] at placed
      exact ((orderly.after front).committed_of_testAccess placed passed).behind

end SourceWorld

/-- However calls, commits, edits and rebuilds of the index interleave on a new source model: a
barrier that is passed has found the index fresh at an instant behind its call, and at an instant
between that one and its return every edit was committed.  The index was still fresh then, unless
somebody began to rebuild it in between: the barrier does not look again. -/
theorem barrier_finds_fresh_then_committed (before during : List SourceAction) (thread : Nat) :
    let world := SourceWorld.initial.after before
    let called := world.act (.call thread .barrier)
    (called.after during).phase? world.calls.length = some .passed →
      ∃ waiting testing rest, during = waiting ++ testing ++ rest ∧
        (called.after waiting).phase? world.calls.length = some .testEdits ∧
        (called.after waiting).signals.indexing = false ∧
        (called.after (waiting ++ testing)).signals.uncommitted = false ∧
        (.event .startIndexing ∈ testing ∨
          (called.after (waiting ++ testing)).signals.indexing = false) := by
  intro world called passed
  have orderly : called.Orderly :=
    (SourceWorld.orderly_initial.after before).act (.call thread .barrier)
  have present : called.calls[world.calls.length]? = some { thread, phase := .testIndex } :=
    List.getElem?_concat_length
  obtain ⟨waiting, behind, split, indexed, placed, passed⟩ :=
    SourceWorld.findsFresh_of_testIndex present passed
  obtain ⟨testing, ⟨rest, later⟩, committed⟩ :=
    (orderly.after waiting).committed_of_testEdits placed passed
  refine ⟨waiting, testing, rest, ?_, ?_, indexed, ?_, ?_⟩
  · rw [split, ← later, List.append_assoc]
  · rw [SourceWorld.phase?, placed]
    rfl
  · rw [SourceWorld.after_append]
    exact committed
  · by_cases disturbed : .event .startIndexing ∈ testing
    · exact Or.inl disturbed
    · rw [SourceWorld.after_append]
      exact Or.inr (SourceWorld.indexed_after indexed disturbed)

theorem barrier_finds_fresh_between_edits :
    let called := (SourceWorld.initial.after [.event .startIndexing, .event .markUncommitted]).act
      (.call 7 .barrier)
    let during : List SourceAction :=
      [.turn 0, .event .finishIndexing, .turn 0, .turn 0, .turn 0, .turn 0, .runTask,
        .event .commitAll, .event .markUncommitted, .turn 0]
    (called.after during).phase? 0 = some .passed ∧
      ∃ waiting testing rest, during = waiting ++ testing ++ rest ∧
        (called.after waiting).phase? 0 = some .testEdits ∧
        (called.after waiting).signals.indexing = false ∧
        (called.after (waiting ++ testing)).signals.uncommitted = false ∧
        (.event .startIndexing ∈ testing ∨
          (called.after (waiting ++ testing)).signals.indexing = false) := by
  intro called during
  have passed : (called.after during).phase? 0 = some .passed := by decide
  exact ⟨passed, barrier_finds_fresh_then_committed
    [.event .startIndexing, .event .markUncommitted] during 7 passed⟩

/-- The index is rebuilt again while the barrier waits for the commit, but nobody looks. -/
theorem barrier_passed_while_indexing :
    let called := (SourceWorld.initial.after [.event .markUncommitted]).act (.call 7 .barrier)
    let during : List SourceAction :=
      [.turn 0, .event .startIndexing, .turn 0, .turn 0, .turn 0, .runTask, .event .commitAll,
        .turn 0]
    (called.after during).phase? 0 = some .passed ∧
      ∀ sofar, sofar <+: during →
        ¬((called.after sofar).signals.indexing = false ∧
          (called.after sofar).signals.uncommitted = false) := by
  intro called during
  refine ⟨by decide, ?_⟩
  intro sofar inside
  have checked : ∀ count < during.length + 1,
      ¬((called.after (during.take count)).signals.indexing = false ∧
        (called.after (during.take count)).signals.uncommitted = false) := by decide
  rw [List.prefix_iff_eq_take.mp inside]
  exact checked sofar.length (Nat.lt_succ_of_le inside.length_le)

end ComponentStyles
