import ComponentStyles.Source.Barrier

/-!
Runs of the barrier, one step at a time.

A run that can step goes on behind the step, and one that has to wait behind the next task or
event; so what all of these keep holds at its end.  A source model that is consistent from the
start is passed in two steps, whatever other threads will do.
-/

namespace ComponentStyles

namespace BarrierPhase

/-- A step leaves the signals alone, or it posts a flush and then waits for it. -/
theorem signals_of_step? {thread : Nat} {phase next : BarrierPhase} {signals after : Signals}
    (stepped : phase.step? thread signals = some (next, after)) :
    after = signals ∧ (∀ flush, next ≠ .awaitWake flush) ∨
      phase = .post ∧ next = .awaitWake signals.flushes ∧ after = signals.postFlush.2 := by
  cases phase with
  | testIndex =>
      cases stepped
      refine Or.inl ⟨rfl, ?_⟩
      intro flush
      split <;> simp
  | awaitIndex =>
      rw [step?] at stepped
      split at stepped <;> cases stepped
      exact Or.inl ⟨rfl, by simp⟩
  | testEdits =>
      cases stepped
      refine Or.inl ⟨rfl, ?_⟩
      intro flush
      split <;> simp
  | testAccess =>
      cases stepped
      refine Or.inl ⟨rfl, ?_⟩
      intro flush
      split <;> simp
  | post =>
      cases stepped
      exact Or.inr ⟨rfl, rfl, rfl⟩
  | awaitWake flush =>
      rw [step?] at stepped
      split at stepped
      · cases stepped
        exact Or.inl ⟨rfl, by simp⟩
      · split at stepped <;> cases stepped
        exact Or.inl ⟨rfl, by simp⟩
  | passed => cases stepped
  | refused => cases stepped
  | stopped => cases stepped

theorem step?_final {phase : BarrierPhase} (final : phase.isFinal = true) (thread : Nat)
    (signals : Signals) : phase.step? thread signals = none := by
  cases phase with
  | passed => rfl
  | refused => rfl
  | stopped => rfl
  | _ => cases final

theorem run_final {thread : Nat} {phase : BarrierPhase} {signals : Signals}
    (final : phase.isFinal = true) (events : List SourceEvent) :
    phase.run thread signals events =
      some (phase, events.foldl (fun current event => event.apply current) signals) := by
  rw [run.eq_def, if_pos final]

theorem run_step {thread : Nat} {phase next : BarrierPhase} {signals after : Signals}
    (running : phase.isFinal = false) (stepped : phase.step? thread signals = some (next, after))
    (events : List SourceEvent) :
    phase.run thread signals events = next.run thread after events := by
  rw [run.eq_def, running, if_neg Bool.false_ne_true]
  split
  · rename_i other otherAfter same
    rw [stepped] at same
    cases same
    rfl
  · rename_i blocked
    rw [stepped] at blocked
    cases blocked

theorem run_blocked {thread : Nat} {phase : BarrierPhase} {signals : Signals}
    (running : phase.isFinal = false) (blocked : phase.step? thread signals = none)
    (events : List SourceEvent) :
    phase.run thread signals events =
      if signals.tasks = [] then
        match events with
        | [] => none
        | event :: rest => phase.run thread (event.apply signals) rest
      else phase.run thread signals.runTask events := by
  rw [run.eq_def, running, if_neg Bool.false_ne_true]
  split
  · rename_i next after stepped
    rw [blocked] at stepped
    cases stepped
  · by_cases idle : signals.tasks = []
    · cases events with
      | nil => simp only [dif_pos idle, if_pos idle]
      | cons event rest => simp only [dif_pos idle, if_pos idle]
    · rw [dif_neg idle, if_neg idle]

/-- What every step of a thread, every event and every posted task keep holds at the end of a run,
which is one of the final phases. -/
theorem run_keeps {thread : Nat} (holds : BarrierPhase → Signals → Prop)
    (stepped : ∀ phase next signals after, phase.step? thread signals = some (next, after) →
      holds phase signals → holds next after)
    (applied : ∀ phase signals event, holds phase signals →
      holds phase (SourceEvent.apply event signals))
    (tasked : ∀ phase signals, holds phase signals → holds phase signals.runTask)
    {phase final : BarrierPhase} {signals after : Signals} {events : List SourceEvent}
    (ended : phase.run thread signals events = some (final, after))
    (start : holds phase signals) : holds final after ∧ final.isFinal = true := by
  induction phase, signals, events using run.induct thread with
  | case1 phase signals events isFinal =>
      rw [run_final isFinal, Option.some.injEq, Prod.mk.injEq] at ended
      obtain ⟨samePhase, sameSignals⟩ := ended
      rw [← samePhase, ← sameSignals]
      refine ⟨?_, isFinal⟩
      exact List.foldlRecOn events _ start fun current kept event _ =>
        applied phase current event kept
  | case2 phase signals events running next between step inductionHypothesis =>
      rw [run_step (Bool.eq_false_iff.mpr running) step] at ended
      exact inductionHypothesis ended (stepped phase next signals between step start)
  | case3 phase signals running blocked idle =>
      rw [run_blocked (Bool.eq_false_iff.mpr running) blocked, if_pos idle] at ended
      cases ended
  | case4 phase signals running blocked idle event rest inductionHypothesis =>
      rw [run_blocked (Bool.eq_false_iff.mpr running) blocked, if_pos idle] at ended
      exact inductionHypothesis ended (applied phase signals event start)
  | case5 phase signals events running blocked busy inductionHypothesis =>
      rw [run_blocked (Bool.eq_false_iff.mpr running) blocked, if_neg busy] at ended
      exact inductionHypothesis ended (tasked phase signals start)

end BarrierPhase

theorem Signals.awaitConsistency_consistent {signals : Signals}
    (indexed : signals.indexing = false) (committed : signals.uncommitted = false)
    (thread : Nat) (events : List SourceEvent) :
    signals.awaitConsistency thread events =
      some (.passed, events.foldl (fun current event => event.apply current) signals) := by
  have index : BarrierPhase.testIndex.step? thread signals = some (.testEdits, signals) := by
    simp only [BarrierPhase.step?, indexed, Bool.false_eq_true, if_false]
  have edits : BarrierPhase.testEdits.step? thread signals = some (.passed, signals) := by
    simp only [BarrierPhase.step?, committed, Bool.false_eq_true, if_false]
  unfold awaitConsistency
  rw [BarrierPhase.run_step rfl index events, BarrierPhase.run_step rfl edits events]
  exact BarrierPhase.run_final rfl events

end ComponentStyles
