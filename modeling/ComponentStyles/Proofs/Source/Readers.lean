import ComponentStyles.Proofs.Source.Barrier

/-!
Who holds read access.

A thread holds it as often as it has acquired and not yet released it, and what one thread does
about it concerns no other.  Waiting for a consistent source model changes nothing about it,
whatever other threads do to the model meanwhile.
-/

namespace ComponentStyles

namespace Signals

def holds (signals : Signals) (thread : Nat) : Nat :=
  (signals.readers.get? thread).getD 0

theorem holds_acquire (signals : Signals) (thread other : Nat) :
    (signals.acquire thread).holds other =
      if thread = other then signals.holds other + 1 else signals.holds other := by
  unfold holds acquire
  rw [Table.get?_put]
  by_cases own : thread = other
  · rw [if_pos own, if_pos own, own, Option.getD_some]
  · rw [if_neg own, if_neg own]

theorem holds_release (signals : Signals) (thread other : Nat) :
    (signals.release thread).holds other =
      if thread = other then signals.holds other - 1 else signals.holds other := by
  unfold holds release
  cases held : signals.readers.get? thread with
  | none =>
      by_cases own : thread = other
      · rw [if_pos own, ← own, held, Option.getD_none]
      · rw [if_neg own]
  | some count =>
      by_cases several : 1 < count
      · simp only [several, if_true, Table.get?_put]
        by_cases own : thread = other
        · rw [if_pos own, if_pos own, ← own, held, Option.getD_some, Option.getD_some]
        · rw [if_neg own, if_neg own]
      · simp only [several, if_false, Table.get?_remove]
        by_cases own : thread = other
        · have last : count - 1 = 0 := by omega
          rw [if_pos own, if_pos own, ← own, held, Option.getD_some, last, Option.getD_none]
        · rw [if_neg own, if_neg own]

theorem holds_release_acquire (signals : Signals) (thread other : Nat) :
    ((signals.acquire thread).release thread).holds other = signals.holds other := by
  rw [holds_release, holds_acquire]
  by_cases own : thread = other
  · rw [if_pos own, if_pos own, Nat.add_sub_cancel]
  · rw [if_neg own, if_neg own]

theorem acquisitions_release (signals : Signals) (thread : Nat) :
    (signals.release thread).acquisitions = signals.acquisitions := by
  unfold release
  split
  · split <;> rfl
  · rfl

structure KeepsReaders (before after : Signals) : Prop where
  readers : after.readers = before.readers
  acquisitions : after.acquisitions = before.acquisitions

namespace KeepsReaders

variable {first second third : Signals}

theorem refl (signals : Signals) : signals.KeepsReaders signals :=
  ⟨rfl, rfl⟩

theorem trans (one : first.KeepsReaders second) (two : second.KeepsReaders third) :
    first.KeepsReaders third :=
  ⟨two.readers.trans one.readers, two.acquisitions.trans one.acquisitions⟩

theorem holds (kept : first.KeepsReaders second) (thread : Nat) :
    second.holds thread = first.holds thread := by
  unfold Signals.holds
  rw [kept.readers]

end KeepsReaders

theorem keepsReaders_onAllCommitted (signals : Signals) (callback : CommitCallback) :
    signals.KeepsReaders (signals.onAllCommitted callback) := by
  obtain ⟨pending, fired, registered⟩ := signals.onAllCommitted_eq callback
  rw [registered]
  exact ⟨rfl, rfl⟩

theorem keepsReaders_runTask (signals : Signals) : signals.KeepsReaders signals.runTask := by
  unfold runTask
  split
  · exact KeepsReaders.refl signals
  · rename_i flush rest _posted
    have asked := keepsReaders_onAllCommitted { signals with tasks := rest } (.wake flush)
    exact ⟨asked.readers, asked.acquisitions⟩
  · exact ⟨rfl, rfl⟩

theorem keepsReaders_post (signals : Signals) (task : ExecutorTask) :
    signals.KeepsReaders (signals.post task) := by
  obtain ⟨tasks, executorGone, dropped, posted⟩ := signals.post_eq task
  rw [posted]
  exact ⟨rfl, rfl⟩

theorem keepsReaders_postFlush (signals : Signals) :
    signals.KeepsReaders signals.postFlush.2 := by
  have posted := signals.keepsReaders_post (.flush signals.flushes)
  exact ⟨posted.readers, posted.acquisitions⟩

theorem keepsReaders_apply (signals : Signals) (event : SourceEvent) :
    signals.KeepsReaders (event.apply signals) := by
  cases event with
  | onAllCommitted label => exact signals.keepsReaders_onAllCommitted (.record label)
  | startIndexing => exact ⟨rfl, rfl⟩
  | finishIndexing => exact ⟨rfl, rfl⟩
  | markUncommitted => exact ⟨rfl, rfl⟩
  | commitAll => exact ⟨rfl, rfl⟩
  | postFailing => exact signals.keepsReaders_post .failing

theorem keepsReaders_step? {thread : Nat} {phase next : BarrierPhase} {signals after : Signals}
    (stepped : phase.step? thread signals = some (next, after)) : signals.KeepsReaders after := by
  rcases BarrierPhase.signals_of_step? stepped with ⟨same, _⟩ | ⟨_, _, posted⟩
  · rw [same]
    exact .refl signals
  · rw [posted]
    exact signals.keepsReaders_postFlush

/-- However the barrier ends, nobody's read access has changed meanwhile. -/
theorem awaitConsistency_keepsReaders {signals after : Signals} {thread : Nat}
    {events : List SourceEvent} {phase : BarrierPhase}
    (ended : signals.awaitConsistency thread events = some (phase, after)) :
    signals.KeepsReaders after ∧ phase.isFinal = true :=
  BarrierPhase.run_keeps (fun _ current => signals.KeepsReaders current)
    (fun _ _ _ _ stepped kept => kept.trans (keepsReaders_step? stepped))
    (fun _ current event kept => kept.trans (current.keepsReaders_apply event))
    (fun _ current kept => kept.trans current.keepsReaders_runTask)
    ended (KeepsReaders.refl signals)

end Signals

end ComponentStyles
