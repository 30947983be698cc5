import ComponentStyles.Source.Signals

/-!
Callbacks behind the commit.

The callbacks that have fired, followed by those that wait, are all that were ever registered, in
the order of their registration.  No single action keeps that order by itself: a callback that is
registered while every edit is committed fires at once, and it would overtake one that waits.  But
none waits then.
-/

namespace ComponentStyles

namespace Signals

/-- Every callback registered so far, those that have fired in front. -/
def registered (signals : Signals) : List CommitCallback :=
  signals.fired ++ signals.pending

/-- Callbacks wait only while edits do. -/
def Prompt (signals : Signals) : Prop :=
  signals.pending = [] ∨ signals.uncommitted = true

/-- What fired on the way from one state to the next did so with every edit committed. -/
structure FiresCommitted (before after : Signals) : Prop where
  grown : before.fired <+: after.fired
  committed : after.fired = before.fired ∨ after.uncommitted = false

theorem FiresCommitted.of_eq {before after : Signals} (same : after.fired = before.fired) :
    before.FiresCommitted after :=
  ⟨same ▸ List.prefix_refl _, Or.inl same⟩

theorem prompt_initial : initial.Prompt :=
  Or.inl rfl

theorem Prompt.onAllCommitted {signals : Signals} (prompt : signals.Prompt)
    (callback : CommitCallback) : (signals.onAllCommitted callback).Prompt := by
  unfold Signals.onAllCommitted
  split
  · rename_i waiting
    exact Or.inr waiting
  · exact prompt

theorem Prompt.registered_onAllCommitted {signals : Signals} (prompt : signals.Prompt)
    (callback : CommitCallback) :
    (signals.onAllCommitted callback).registered = signals.registered ++ [callback] := by
  unfold Signals.onAllCommitted registered
  split
  · exact (List.append_assoc _ _ _).symm
  · rename_i committed
    have idle : signals.pending = [] := prompt.resolve_right committed
    simp only [idle, List.append_nil]

theorem firesCommitted_onAllCommitted (signals : Signals) (callback : CommitCallback) :
    signals.FiresCommitted (signals.onAllCommitted callback) := by
  unfold onAllCommitted
  split
  · exact .of_eq rfl
  · rename_i committed
    exact ⟨List.prefix_append _ _, Or.inr (Bool.eq_false_iff.mpr committed)⟩

theorem registered_commitAll (signals : Signals) :
    signals.commitAll.registered = signals.registered :=
  List.append_nil _

theorem firesCommitted_commitAll (signals : Signals) :
    signals.FiresCommitted signals.commitAll :=
  ⟨List.prefix_append _ _, Or.inr rfl⟩

end Signals

namespace SourceEvent

def registers : SourceEvent → List CommitCallback
  | onAllCommitted label => [.record label]
  | _ => []

def applyAll (events : List SourceEvent) (signals : Signals) : Signals :=
  events.foldl (fun current event => event.apply current) signals

variable {signals : Signals}

theorem prompt_apply (event : SourceEvent) (prompt : signals.Prompt) :
    (event.apply signals).Prompt := by
  cases event with
  | startIndexing => exact prompt
  | finishIndexing => exact prompt
  | markUncommitted => exact Or.inr rfl
  | commitAll => exact Or.inl rfl
  | onAllCommitted label => exact prompt.onAllCommitted (.record label)
  | postFailing =>
      obtain ⟨tasks, executorGone, dropped, posted⟩ := signals.post_eq .failing
      rw [apply, posted]
      exact prompt

theorem registered_apply (event : SourceEvent) (prompt : signals.Prompt) :
    (event.apply signals).registered = signals.registered ++ event.registers := by
  cases event with
  | startIndexing => exact (List.append_nil _).symm
  | finishIndexing => exact (List.append_nil _).symm
  | markUncommitted => exact (List.append_nil _).symm
  | commitAll => exact signals.registered_commitAll.trans (List.append_nil _).symm
  | onAllCommitted label => exact prompt.registered_onAllCommitted (.record label)
  | postFailing =>
      obtain ⟨tasks, executorGone, dropped, posted⟩ := signals.post_eq .failing
      rw [apply, posted]
      exact (List.append_nil _).symm

theorem firesCommitted_apply (event : SourceEvent) (signals : Signals) :
    signals.FiresCommitted (event.apply signals) := by
  cases event with
  | startIndexing => exact .of_eq rfl
  | finishIndexing => exact .of_eq rfl
  | markUncommitted => exact .of_eq rfl
  | commitAll => exact signals.firesCommitted_commitAll
  | onAllCommitted label => exact signals.firesCommitted_onAllCommitted (.record label)
  | postFailing =>
      obtain ⟨tasks, executorGone, dropped, posted⟩ := signals.post_eq .failing
      rw [apply, posted]
      exact .of_eq rfl

theorem applyAll_registers (events : List SourceEvent) (prompt : signals.Prompt) :
    (applyAll events signals).Prompt ∧
      (applyAll events signals).registered =
        signals.registered ++ events.flatMap registers := by
  induction events generalizing signals with
  | nil => exact ⟨prompt, (List.append_nil _).symm⟩
  | cons event rest inductionHypothesis =>
      obtain ⟨keptPrompt, registered⟩ := inductionHypothesis (event.prompt_apply prompt)
      refine ⟨keptPrompt, ?_⟩
      rw [List.flatMap_cons, ← List.append_assoc, ← event.registered_apply prompt]
      exact registered

end SourceEvent

/-- Whatever happens to a new source model, its callbacks fire in the order of their registration
and none is lost or fires twice, some wait only while edits do, and whatever the next event fires
it fires with every edit committed. -/
theorem callbacks_fire_in_order (events : List SourceEvent) :
    let reached := SourceEvent.applyAll events .initial
    reached.fired ++ reached.pending = events.flatMap SourceEvent.registers ∧
      (reached.pending = [] ∨ reached.uncommitted = true) ∧
      ∀ event : SourceEvent, reached.fired <+: (event.apply reached).fired ∧
        ((event.apply reached).fired = reached.fired ∨
          (event.apply reached).uncommitted = false) := by
  intro reached
  obtain ⟨prompt, registered⟩ := SourceEvent.applyAll_registers events Signals.prompt_initial
  refine ⟨registered, prompt, ?_⟩
  intro event
  have fires := event.firesCommitted_apply reached
  exact ⟨fires.grown, fires.committed⟩

end ComponentStyles
