import ComponentStyles.Proofs.Source.Callbacks
import ComponentStyles.Proofs.Source.Interleaving

/-!
Flushes among other calls.

A flush is first a posted task, then a callback that waits for the commit, and then one that has
fired, unless its task is lost with the executor.  So a flush that is woken has seen every edit
committed since it was posted, and none is forgotten on the way.
-/

namespace ComponentStyles

namespace Signals

def wakeUps (callbacks : List CommitCallback) : List Nat :=
  callbacks.filterMap fun callback =>
    match callback with
    | .wake flush => some flush
    | .record _ => none

theorem mem_wakeUps {callbacks : List CommitCallback} {flush : Nat} :
    flush ∈ wakeUps callbacks ↔ .wake flush ∈ callbacks := by
  unfold wakeUps
  rw [List.mem_filterMap]
  constructor
  · rintro ⟨callback, inside, wakes⟩
    cases callback with
    | wake other =>
        cases wakes
        exact inside
    | record label => cases wakes
  · intro inside
    exact ⟨.wake flush, inside, rfl⟩

theorem mem_flushesOf {tasks : List ExecutorTask} {flush : Nat} :
    flush ∈ flushesOf tasks ↔ .flush flush ∈ tasks := by
  unfold flushesOf
  rw [List.mem_filterMap]
  constructor
  · rintro ⟨task, inside, posted⟩
    cases task with
    | flush other =>
        cases posted
        exact inside
    | failing => cases posted
  · intro inside
    exact ⟨.flush flush, inside, rfl⟩

/-- The flushes whose callback is registered, those whose task waits, and those whose task was
lost. -/
def posted (signals : Signals) : List Nat :=
  wakeUps signals.registered ++ (flushesOf signals.tasks ++ signals.dropped)

variable {signals : Signals}

theorem posted_post (signals : Signals) (task : ExecutorTask) :
    (signals.post task).posted.Perm (signals.posted ++ flushesOf [task]) := by
  unfold post
  split
  · simp only [posted, List.append_assoc]
    exact .refl _
  · simp only [posted, flushesOf, List.filterMap_append, List.append_assoc]
    exact (List.perm_append_comm.append_left _).append_left _

theorem Prompt.posted_onAllCommitted (prompt : signals.Prompt) (callback : CommitCallback) :
    (signals.onAllCommitted callback).posted =
      wakeUps signals.registered ++ wakeUps [callback] ++
        (flushesOf signals.tasks ++ signals.dropped) := by
  obtain ⟨pending, fired, registered⟩ := signals.onAllCommitted_eq callback
  rw [posted, prompt.registered_onAllCommitted, registered, wakeUps, wakeUps, wakeUps,
    List.filterMap_append]

/-- The flush of the task that runs goes from the tasks to the callbacks, and what a task that
panics takes with it goes to the flushes that were lost. -/
theorem Prompt.posted_runTask (prompt : signals.Prompt) :
    signals.runTask.posted.Perm signals.posted := by
  unfold runTask
  split
  · exact .refl _
  · rename_i flush rest waiting
    have undone : { signals with tasks := rest }.Prompt := prompt
    rw [undone.posted_onAllCommitted, posted, waiting, List.append_assoc]
    exact .refl _
  · rename_i rest waiting
    rw [posted, posted, waiting]
    have lost : (signals.dropped ++ flushesOf rest).Perm (flushesOf rest ++ signals.dropped) :=
      List.perm_append_comm
    exact lost.append_left _

theorem Prompt.posted_apply (prompt : signals.Prompt) (event : SourceEvent) :
    (event.apply signals).posted.Perm signals.posted := by
  cases event with
  | startIndexing => exact .refl _
  | finishIndexing => exact .refl _
  | markUncommitted => exact .refl _
  | commitAll =>
      have same : signals.commitAll.posted = signals.posted :=
        congrArg (wakeUps · ++ (flushesOf signals.tasks ++ signals.dropped))
          signals.registered_commitAll
      exact .of_eq same
  | onAllCommitted label =>
      rw [SourceEvent.apply, prompt.posted_onAllCommitted]
      exact .of_eq (congrArg (· ++ _) (List.append_nil _))
  | postFailing =>
      have more := signals.posted_post .failing
      rw [flushesOf, List.filterMap_cons_none rfl, List.filterMap_nil, List.append_nil] at more
      exact more

theorem flushes_post (signals : Signals) (task : ExecutorTask) :
    (signals.post task).flushes = signals.flushes := by
  obtain ⟨tasks, executorGone, dropped, posted⟩ := signals.post_eq task
  rw [posted]

theorem flushes_onAllCommitted (signals : Signals) (callback : CommitCallback) :
    (signals.onAllCommitted callback).flushes = signals.flushes := by
  obtain ⟨pending, fired, registered⟩ := signals.onAllCommitted_eq callback
  rw [registered]

theorem flushes_runTask (signals : Signals) : signals.runTask.flushes = signals.flushes := by
  unfold runTask
  split
  · rfl
  · exact flushes_onAllCommitted _ _
  · rfl

theorem flushes_apply (signals : Signals) (event : SourceEvent) :
    (event.apply signals).flushes = signals.flushes := by
  cases event with
  | startIndexing => rfl
  | finishIndexing => rfl
  | markUncommitted => rfl
  | commitAll => rfl
  | onAllCommitted label => exact signals.flushes_onAllCommitted (.record label)
  | postFailing => exact signals.flushes_post .failing

/-- Callbacks wait only while edits do, and every number given out is that of one flush. -/
structure Orderly (signals : Signals) : Prop where
  prompt : signals.Prompt
  flushes : signals.posted.Perm (List.range signals.flushes)

theorem orderly_initial : initial.Orderly :=
  ⟨prompt_initial, .refl _⟩

theorem Orderly.postFlush (orderly : signals.Orderly) : signals.postFlush.2.Orderly := by
  refine ⟨?_, ?_⟩
  · obtain ⟨tasks, executorGone, dropped, posted⟩ := signals.post_eq (.flush signals.flushes)
    unfold Signals.postFlush
    rw [posted]
    exact orderly.prompt
  · have more : (signals.post (.flush signals.flushes)).posted.Perm
        (signals.posted ++ [signals.flushes]) := signals.posted_post (.flush signals.flushes)
    have longer : (signals.posted ++ [signals.flushes]).Perm
        (List.range (signals.flushes + 1)) := by
      rw [List.range_succ]
      exact orderly.flushes.append_right _
    exact more.trans longer

theorem Orderly.runTask (orderly : signals.Orderly) : signals.runTask.Orderly := by
  refine ⟨?_, ?_⟩
  · unfold Signals.runTask
    split
    · exact orderly.prompt
    · rename_i flush rest _waiting
      have undone : { signals with tasks := rest }.Prompt := orderly.prompt
      exact undone.onAllCommitted _
    · exact orderly.prompt
  · rw [flushes_runTask]
    exact orderly.prompt.posted_runTask.trans orderly.flushes

theorem Orderly.apply (orderly : signals.Orderly) (event : SourceEvent) :
    (event.apply signals).Orderly := by
  refine ⟨event.prompt_apply orderly.prompt, ?_⟩
  rw [flushes_apply]
  exact (orderly.prompt.posted_apply event).trans orderly.flushes

theorem Orderly.not_woken (orderly : signals.Orderly) {flush : Nat}
    (unrun : flush ∈ flushesOf signals.tasks ++ signals.dropped) :
    CommitCallback.wake flush ∉ signals.fired := by
  intro woken
  have distinct : signals.posted.Nodup := orderly.flushes.nodup_iff.mpr List.nodup_range
  have registered : flush ∈ wakeUps signals.registered :=
    mem_wakeUps.mpr (List.mem_append_left _ woken)
  exact (List.nodup_append.mp distinct).2.2 flush registered flush unrun rfl

theorem mem_fired_of_isWoken {flush : Nat} :
    signals.isWoken flush = true ↔ .wake flush ∈ signals.fired :=
  List.contains_iff_mem

/-- A flush whose task was lost does not wait for ever: its call ends at its next turn. -/
theorem Orderly.step?_of_dropped (orderly : signals.Orderly) {flush : Nat}
    (lost : flush ∈ signals.dropped) (thread : Nat) :
    (BarrierPhase.awaitWake flush).step? thread signals = some (.stopped, signals) := by
  have asleep : ¬ signals.isWoken flush = true := by
    rw [mem_fired_of_isWoken]
    exact orderly.not_woken (List.mem_append_right _ lost)
  have isLost : signals.isDropped flush = true := List.contains_iff_mem.mpr lost
  rw [BarrierPhase.step?, if_neg asleep, if_pos isLost]

/-- A flush that has been posted has its task waiting or has lost it, or its callback waits or has
fired. -/
theorem Orderly.whereabouts (orderly : signals.Orderly) {flush : Nat}
    (numbered : flush < signals.flushes) :
    .flush flush ∈ signals.tasks ∨ flush ∈ signals.dropped ∨
      .wake flush ∈ signals.pending ∨ .wake flush ∈ signals.fired := by
  have inside : flush ∈ signals.posted := orderly.flushes.mem_iff.mpr (List.mem_range.mpr numbered)
  rcases List.mem_append.mp inside with registered | unrun
  · rcases List.mem_append.mp (mem_wakeUps.mp registered) with fired | pending
    · exact Or.inr (Or.inr (Or.inr fired))
    · exact Or.inr (Or.inr (Or.inl pending))
  · rcases List.mem_append.mp unrun with waiting | dropped
    · exact Or.inl (mem_flushesOf.mp waiting)
    · exact Or.inr (Or.inl dropped)

theorem unrun_postFlush (signals : Signals) :
    signals.flushes ∈ flushesOf signals.postFlush.2.tasks ++ signals.postFlush.2.dropped := by
  have own : signals.flushes ∈ flushesOf [.flush signals.flushes] := List.mem_singleton.mpr rfl
  unfold postFlush post
  split
  · exact List.mem_append_right _ (List.mem_append_right _ own)
  · refine List.mem_append_left _ ?_
    rw [flushesOf, List.filterMap_append]
    exact List.mem_append_right _ own

theorem firesCommitted_runTask (signals : Signals) : signals.FiresCommitted signals.runTask := by
  unfold runTask
  split
  · exact .of_eq rfl
  · rename_i flush rest _posted
    have fires := firesCommitted_onAllCommitted { signals with tasks := rest } (.wake flush)
    exact ⟨fires.grown, fires.committed⟩
  · exact .of_eq rfl

theorem fired_postFlush (signals : Signals) : signals.postFlush.2.fired = signals.fired := by
  obtain ⟨tasks, executorGone, dropped, posted⟩ := signals.post_eq (.flush signals.flushes)
  unfold postFlush
  rw [posted]

end Signals

/-! ### Interleaved calls -/

namespace SourceEffect

variable {before after : Signals} {action : SourceAction}

theorem orderly (effect : SourceEffect before action after) (orderly : before.Orderly) :
    after.Orderly := by
  cases effect with
  | reading readers acquisitions => exact ⟨orderly.prompt, orderly.flushes⟩
  | posting number => exact orderly.postFlush
  | running => exact orderly.runTask
  | happening event => exact orderly.apply event

theorem firesCommitted (effect : SourceEffect before action after) :
    before.FiresCommitted after := by
  cases effect with
  | reading readers acquisitions => exact .of_eq rfl
  | posting number => exact .of_eq before.fired_postFlush
  | running => exact before.firesCommitted_runTask
  | happening event => exact event.firesCommitted_apply before

theorem flushes_le (effect : SourceEffect before action after) :
    before.flushes ≤ after.flushes := by
  cases effect with
  | reading readers acquisitions => exact Nat.le_refl _
  | posting number => exact Nat.le_succ _
  | running => exact Nat.le_of_eq before.flushes_runTask.symm
  | happening event => exact Nat.le_of_eq (before.flushes_apply event).symm

end SourceEffect

namespace SourceWorld

variable {world : SourceWorld} {schedule : List SourceAction}

/-- The signals are orderly, and a call waits only for a flush that has been posted. -/
structure Orderly (world : SourceWorld) : Prop where
  signals : world.signals.Orderly
  posted : ∀ call ∈ world.calls, ∀ flush, call.phase = .awaitWake flush →
    flush < world.signals.flushes

theorem orderly_initial : initial.Orderly :=
  ⟨Signals.orderly_initial, fun _ inside => by cases inside⟩

/-- A call behind an action is one from before, or it has just begun, or it has taken a step. -/
theorem mem_calls_act {action : SourceAction} {call : SourceCall}
    (inside : call ∈ (world.act action).calls) :
    call ∈ world.calls ∨ (∃ entry : SourceEntry, call.phase = entry.phase) ∨
      ∃ (thread : Nat) (phase : BarrierPhase),
        phase.step? thread world.signals = some (call.phase, (world.act action).signals) := by
  cases action with
  | call thread entry =>
      rcases List.mem_append.mp inside with before | begun
      · exact Or.inl before
      · rw [List.mem_singleton.mp begun]
        exact Or.inr (Or.inl ⟨entry, rfl⟩)
  | turn number =>
      rw [act] at inside ⊢
      cases present : world.calls[number]? with
      | none =>
          rw [turn_of_absent present] at inside
          exact Or.inl inside
      | some moved =>
          cases stepped : moved.phase.step? moved.thread world.signals with
          | none =>
              rw [turn_of_waiting present stepped] at inside
              exact Or.inl inside
          | some step =>
              rw [turn_of_step present stepped] at inside ⊢
              rcases List.mem_or_eq_of_mem_set inside with before | same
              · exact Or.inl before
              · rw [same]
                exact Or.inr (Or.inr ⟨moved.thread, moved.phase, stepped⟩)
  | runTask => exact Or.inl inside
  | event event => exact Or.inl inside
  | acquire thread => exact Or.inl inside
  | release thread => exact Or.inl inside

theorem Orderly.act (orderly : world.Orderly) (action : SourceAction) :
    (world.act action).Orderly := by
  have effect := world.act_effect action
  refine ⟨effect.orderly orderly.signals, ?_⟩
  intro call inside flush waits
  rcases mem_calls_act inside with before | ⟨entry, begun⟩ | ⟨thread, phase, stepped⟩
  · exact Nat.lt_of_lt_of_le (orderly.posted call before flush waits) effect.flushes_le
  · rw [begun] at waits
    cases entry <;> cases waits
  · rw [waits] at stepped
    -- Only posting leads to waiting, for the flush that was just posted.
    rcases BarrierPhase.signals_of_step? stepped with ⟨_, elsewhere⟩ | ⟨_, posted, after⟩
    · exact absurd rfl (elsewhere flush)
    · cases posted
      rw [after]
      exact Nat.lt_succ_self _

theorem Orderly.after (orderly : world.Orderly) (schedule : List SourceAction) :
    (world.after schedule).Orderly :=
  after_keeps Orderly (fun _ action _ kept => kept.act action) orderly

/-! ### Flushes that return -/

/-- At some instant of the schedule, its ends among them, every edit is committed. -/
def CommittedWithin (world : SourceWorld) (schedule : List SourceAction) : Prop :=
  ∃ sofar, sofar <+: schedule ∧ (world.after sofar).signals.uncommitted = false

theorem CommittedWithin.behind {front rest : List SourceAction}
    (committed : (world.after front).CommittedWithin rest) :
    world.CommittedWithin (front ++ rest) := by
  obtain ⟨sofar, inside, committed⟩ := committed
  refine ⟨front ++ sofar, (List.prefix_append_right_inj front).mpr inside, ?_⟩
  rw [after_append]
  exact committed

theorem CommittedWithin.within {front : List SourceAction}
    (committed : world.CommittedWithin front) (rest : List SourceAction) :
    world.CommittedWithin (front ++ rest) := by
  obtain ⟨sofar, inside, committed⟩ := committed
  exact ⟨sofar, inside.trans (List.prefix_append front rest), committed⟩

theorem CommittedWithin.commitAll_mem (committed : world.CommittedWithin schedule)
    (waiting : world.signals.uncommitted = true) : .event .commitAll ∈ schedule := by
  obtain ⟨sofar, inside, committed⟩ := committed
  refine Decidable.byContradiction ?_
  intro undisturbed
  have still := waiting_after waiting fun early => undisturbed (inside.subset early)
  rw [committed] at still
  cases still

/-- A callback that fires within a schedule does so at an instant at which every edit is
committed. -/
theorem committed_of_fired {callback : CommitCallback}
    (absent : callback ∉ world.signals.fired)
    (fired : callback ∈ (world.after schedule).signals.fired) :
    world.CommittedWithin schedule := by
  induction schedule generalizing world with
  | nil => exact absurd fired absent
  | cons action rest inductionHypothesis =>
      by_cases now : callback ∈ (world.act action).signals.fired
      · have committed := (world.act_effect action).firesCommitted.committed
        refine ⟨[action], ⟨rest, rfl⟩, committed.resolve_left ?_⟩
        intro same
        rw [same] at now
        exact absent now
      · have later : (world.after [action]).CommittedWithin rest := inductionHypothesis now fired
        exact later.behind

variable {number thread : Nat}

theorem committed_of_awaitWake {flush : Nat}
    (present : world.calls[number]? = some { thread, phase := .awaitWake flush })
    (asleep : CommitCallback.wake flush ∉ world.signals.fired)
    (passed : (world.after schedule).phase? number = some .passed) :
    world.CommittedWithin schedule := by
  obtain ⟨front, rest, before, next, split, stepped, placed, passed⟩ :=
    step_of_passed present nofun passed
  rw [BarrierPhase.step?] at stepped
  split at stepped
  · rename_i woken
    rw [Option.some.injEq, Prod.mk.injEq] at stepped
    rw [stepped.2] at woken
    rw [split]
    exact (committed_of_fired asleep (Signals.mem_fired_of_isWoken.mp woken)).within rest
  · split at stepped
    · rw [Option.some.injEq, Prod.mk.injEq] at stepped
      rw [← stepped.1] at placed
      exact absurd passed (not_passed_of_final rfl BarrierPhase.noConfusion placed)
    · cases stepped

/-- A call about to post its flush passes behind a commit. -/
theorem Orderly.committed_of_post (orderly : world.Orderly)
    (present : world.calls[number]? = some { thread, phase := .post })
    (passed : (world.after schedule).phase? number = some .passed) :
    world.CommittedWithin schedule := by
  obtain ⟨front, rest, before, next, split, stepped, placed, passed⟩ :=
    step_of_passed present nofun passed
  rw [BarrierPhase.step?, Option.some.injEq, Prod.mk.injEq] at stepped
  obtain ⟨waits, signals⟩ := stepped
  -- The flush has a number of its own, so nothing that fired before wakes it.
  have unrun := before.unrun_postFlush
  rw [signals] at unrun
  have asleep := (orderly.after front).signals.not_woken unrun
  rw [← waits] at placed
  rw [split]
  exact (committed_of_awaitWake placed asleep passed).behind

end SourceWorld

/-- A flush that returns by itself while edits wait has seen a commit among the events. -/
theorem Signals.Orderly.commitAll_mem_of_flushAndWait {signals after : Signals} {thread : Nat}
    {events : List SourceEvent} (orderly : signals.Orderly)
    (waiting : signals.uncommitted = true)
    (returned : signals.flushAndWait thread events = some (.passed, after)) :
    .commitAll ∈ events := by
  obtain ⟨schedule, happened, reached⟩ := SourceWorld.after_of_run returned
  have alone : (SourceWorld.alone thread .post signals).Orderly := by
    refine ⟨orderly, ?_⟩
    intro call inside flush waits
    rw [List.mem_singleton.mp inside] at waits
    cases waits
  have passed :
      ((SourceWorld.alone thread .post signals).after schedule).phase? 0 = some .passed := by
    rw [reached]
    rfl
  have committed := (alone.committed_of_post rfl passed).commitAll_mem waiting
  rw [← happened]
  exact List.mem_filterMap.mpr ⟨.event .commitAll, committed, rfl⟩

/-- However calls, commits and edits interleave on a new source model: a flush returns only after an
instant, behind its call, at which every edit was committed, and so behind a commit if edits waited
when it was called; and a flush whose task has run, being neither posted still nor lost, but which is
not woken yet has its callback waiting, while edits are uncommitted. -/
theorem flush_sees_commit (before during : List SourceAction) (thread : Nat) :
    let world := SourceWorld.initial.after before
    let called := world.act (.call thread .flush)
    ((called.after during).phase? world.calls.length = some .passed →
      (∃ sofar, sofar <+: during ∧ (called.after sofar).signals.uncommitted = false) ∧
        (called.signals.uncommitted = true → .event .commitAll ∈ during)) ∧
    ∀ call ∈ world.calls, ∀ flush, call.phase = .awaitWake flush →
      .flush flush ∉ world.signals.tasks → flush ∉ world.signals.dropped →
      world.signals.isWoken flush = false →
      .wake flush ∈ world.signals.pending ∧ world.signals.uncommitted = true := by
  intro world called
  have orderly : world.Orderly := SourceWorld.orderly_initial.after before
  constructor
  · intro passed
    have present : called.calls[world.calls.length]? = some { thread, phase := .post } :=
      List.getElem?_concat_length
    have committed := (orderly.act (.call thread .flush)).committed_of_post present passed
    exact ⟨committed, committed.commitAll_mem⟩
  · intro call inside flush waits run kept asleep
    have posted := orderly.posted call inside flush waits
    have unwoken : CommitCallback.wake flush ∉ world.signals.fired := by
      intro woken
      rw [Signals.mem_fired_of_isWoken.mpr woken] at asleep
      cases asleep
    have pending : .wake flush ∈ world.signals.pending :=
      (((orderly.signals.whereabouts posted).resolve_left run).resolve_left kept).resolve_right
        unwoken
    exact ⟨pending, orderly.signals.prompt.resolve_left (List.ne_nil_of_mem pending)⟩

theorem flush_sees_commit_between_edits :
    let world := SourceWorld.initial.after [.event .markUncommitted]
    let called := world.act (.call 7 .flush)
    let during : List SourceAction :=
      [.turn 0, .runTask, .event .commitAll, .event .markUncommitted, .turn 0]
    let midway := called.after [.turn 0, .runTask]
    (called.after during).phase? 0 = some .passed ∧
      (∃ sofar, sofar <+: during ∧ (called.after sofar).signals.uncommitted = false) ∧
      .event .commitAll ∈ during ∧
      midway.calls = [{ thread := 7, phase := .awaitWake 0 }] ∧
      .wake 0 ∈ midway.signals.pending ∧ midway.signals.uncommitted = true := by
  intro world called during midway
  have passed : (called.after during).phase? 0 = some .passed := by decide
  have returned := (flush_sees_commit [.event .markUncommitted] during 7).1 passed
  have waiting := (flush_sees_commit
    [.event .markUncommitted, .call 7 .flush, .turn 0, .runTask] [] 7).2
    { thread := 7, phase := .awaitWake 0 } (by decide) 0 rfl (by decide) (by decide) (by decide)
  exact ⟨passed, returned.1, returned.2 (by decide), by decide, waiting⟩

end ComponentStyles
