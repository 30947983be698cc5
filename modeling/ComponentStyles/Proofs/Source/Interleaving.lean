import ComponentStyles.Proofs.Source.Barrier

/-!
Calls of many threads, interleaved.

Every call of the barrier or of a flush takes its steps one at a time, and between any two of them
the executor, other threads and other calls may act.  A schedule is any list of such actions; a
call that has to wait, or has come to its end, lets its turn pass.  So what holds behind every
schedule holds behind every interleaving.
-/

namespace ComponentStyles

inductive SourceEntry where
  | barrier
  | flush
  deriving DecidableEq, Repr

def SourceEntry.phase : SourceEntry → BarrierPhase
  | barrier => .testIndex
  | flush => .post

structure SourceCall where
  thread : Nat
  phase : BarrierPhase
  deriving DecidableEq, Repr

/-- The signals of the source model with every call ever begun, first begun first. -/
structure SourceWorld where
  signals : Signals
  calls : List SourceCall
  deriving DecidableEq, Repr

inductive SourceAction where
  | call (thread : Nat) (entry : SourceEntry)
  | turn (number : Nat)
  | runTask
  | event (event : SourceEvent)
  | acquire (thread : Nat)
  | release (thread : Nat)
  deriving DecidableEq, Repr

def SourceAction.event? : SourceAction → Option SourceEvent
  | .event happened => some happened
  | _ => none

namespace Signals

theorem release_eq (signals : Signals) (thread : Nat) :
    ∃ readers, signals.release thread = { signals with readers } := by
  unfold release
  split
  · split <;> exact ⟨_, rfl⟩
  · exact ⟨signals.readers, rfl⟩

@[simp]
theorem indexing_onAllCommitted (signals : Signals) (callback : CommitCallback) :
    (signals.onAllCommitted callback).indexing = signals.indexing := by
  obtain ⟨pending, fired, registered⟩ := signals.onAllCommitted_eq callback
  rw [registered]

@[simp]
theorem uncommitted_onAllCommitted (signals : Signals) (callback : CommitCallback) :
    (signals.onAllCommitted callback).uncommitted = signals.uncommitted := by
  obtain ⟨pending, fired, registered⟩ := signals.onAllCommitted_eq callback
  rw [registered]

@[simp]
theorem indexing_post (signals : Signals) (task : ExecutorTask) :
    (signals.post task).indexing = signals.indexing := by
  obtain ⟨tasks, executorGone, dropped, posted⟩ := signals.post_eq task
  rw [posted]

@[simp]
theorem uncommitted_post (signals : Signals) (task : ExecutorTask) :
    (signals.post task).uncommitted = signals.uncommitted := by
  obtain ⟨tasks, executorGone, dropped, posted⟩ := signals.post_eq task
  rw [posted]

theorem indexing_runTask (signals : Signals) : signals.runTask.indexing = signals.indexing := by
  unfold runTask
  split
  · rfl
  · rw [indexing_onAllCommitted]
  · rfl

theorem uncommitted_runTask (signals : Signals) :
    signals.runTask.uncommitted = signals.uncommitted := by
  unfold runTask
  split
  · rfl
  · rw [uncommitted_onAllCommitted]
  · rfl

end Signals

namespace SourceWorld

def initial : SourceWorld :=
  { signals := .initial, calls := [] }

def turn (world : SourceWorld) (number : Nat) : SourceWorld :=
  match world.calls[number]? with
  | none => world
  | some call =>
      match call.phase.step? call.thread world.signals with
      | none => world
      | some (next, signals) =>
          { signals, calls := world.calls.set number { call with phase := next } }

def act (world : SourceWorld) : SourceAction → SourceWorld
  | .call thread entry => { world with calls := world.calls ++ [{ thread, phase := entry.phase }] }
  | .turn number => world.turn number
  | .runTask => { world with signals := world.signals.runTask }
  | .event event => { world with signals := event.apply world.signals }
  | .acquire thread => { world with signals := world.signals.acquire thread }
  | .release thread => { world with signals := world.signals.release thread }

def after (world : SourceWorld) (schedule : List SourceAction) : SourceWorld :=
  schedule.foldl act world

def phase? (world : SourceWorld) (number : Nat) : Option BarrierPhase :=
  world.calls[number]?.map SourceCall.phase

theorem after_cons (world : SourceWorld) (action : SourceAction) (rest : List SourceAction) :
    world.after (action :: rest) = (world.act action).after rest :=
  rfl

theorem after_append (world : SourceWorld) (schedule later : List SourceAction) :
    world.after (schedule ++ later) = (world.after schedule).after later :=
  List.foldl_append

theorem after_keeps (holds : SourceWorld → Prop) {schedule : List SourceAction}
    (kept : ∀ world, ∀ action ∈ schedule, holds world → holds (world.act action))
    {world : SourceWorld} (start : holds world) : holds (world.after schedule) :=
  List.foldlRecOn schedule act start fun current holding action inside =>
    kept current action inside holding

variable {world : SourceWorld} {call : SourceCall} {number : Nat}

theorem turn_of_step {next : BarrierPhase} {signals : Signals}
    (present : world.calls[number]? = some call)
    (stepped : call.phase.step? call.thread world.signals = some (next, signals)) :
    world.turn number =
      { signals, calls := world.calls.set number { call with phase := next } } := by
  simp only [turn, present, stepped]

theorem turn_of_waiting (present : world.calls[number]? = some call)
    (waiting : call.phase.step? call.thread world.signals = none) : world.turn number = world := by
  simp only [turn, present, waiting]

theorem turn_of_absent (absent : world.calls[number]? = none) : world.turn number = world := by
  simp only [turn, absent]

theorem turn_other {other : Nat} (different : other ≠ number) :
    (world.turn other).calls[number]? = world.calls[number]? := by
  cases present : world.calls[other]? with
  | none => rw [turn_of_absent present]
  | some moved =>
      cases stepped : moved.phase.step? moved.thread world.signals with
      | none => rw [turn_of_waiting present stepped]
      | some step =>
          rw [turn_of_step present stepped]
          exact List.getElem?_set_ne different

/-- An action leaves a call where it is, or it is the call's own turn and takes its next step. -/
theorem act_call (present : world.calls[number]? = some call) (action : SourceAction) :
    (world.act action).calls[number]? = some call ∨
      ∃ next signals, action = .turn number ∧
        call.phase.step? call.thread world.signals = some (next, signals) ∧
        (world.act action).signals = signals ∧
        (world.act action).calls[number]? = some { call with phase := next } := by
  cases action with
  | call thread entry =>
      have inside : number < world.calls.length := (List.getElem?_eq_some_iff.mp present).1
      exact Or.inl ((List.getElem?_append_left inside).trans present)
  | turn other =>
      by_cases own : other = number
      · rw [own]
        cases stepped : call.phase.step? call.thread world.signals with
        | none =>
            left
            rw [act, turn_of_waiting present stepped]
            exact present
        | some step =>
            obtain ⟨next, signals⟩ := step
            have inside : number < world.calls.length := (List.getElem?_eq_some_iff.mp present).1
            refine Or.inr ⟨next, signals, rfl, rfl, ?_, ?_⟩
            · rw [act, turn_of_step present stepped]
            · rw [act, turn_of_step present stepped]
              exact List.getElem?_set_self inside
      · left
        rw [act, turn_other own]
        exact present
  | runTask => exact Or.inl present
  | event event => exact Or.inl present
  | acquire thread => exact Or.inl present
  | release thread => exact Or.inl present

/-- A call that is not where it was has taken a step.  Here the schedule is cut behind the first
one. -/
theorem first_step {later : SourceCall} {schedule : List SourceAction}
    (present : world.calls[number]? = some call)
    (found : (world.after schedule).calls[number]? = some later) (moved : later ≠ call) :
    ∃ front rest before next, schedule = front ++ rest ∧
      call.phase.step? call.thread before = some (next, (world.after front).signals) ∧
      (world.after front).calls[number]? = some { call with phase := next } := by
  induction schedule generalizing world with
  | nil =>
      have same := present.symm.trans found
      cases same
      exact absurd rfl moved
  | cons action rest inductionHypothesis =>
      rcases act_call present action with kept | ⟨next, signals, _, stepped, signalled, placed⟩
      · obtain ⟨front, back, before, next, split, others⟩ := inductionHypothesis kept found
        refine ⟨action :: front, back, before, next, ?_, others⟩
        rw [split, List.cons_append]
      · rw [← signalled] at stepped
        exact ⟨[action], rest, world.signals, next, rfl, stepped, placed⟩

theorem step_of_passed {thread : Nat} {phase : BarrierPhase} {schedule : List SourceAction}
    (present : world.calls[number]? = some { thread, phase }) (running : phase ≠ .passed)
    (passed : (world.after schedule).phase? number = some .passed) :
    ∃ front rest before next, schedule = front ++ rest ∧
      phase.step? thread before = some (next, (world.after front).signals) ∧
      (world.after front).calls[number]? = some { thread, phase := next } ∧
      ((world.after front).after rest).phase? number = some .passed := by
  obtain ⟨later, found, ended⟩ := Option.map_eq_some_iff.mp passed
  have moved : later ≠ { thread, phase } := by
    intro same
    rw [same] at ended
    exact running ended
  obtain ⟨front, rest, before, next, split, stepped, placed⟩ := first_step present found moved
  refine ⟨front, rest, before, next, split, stepped, placed, ?_⟩
  rw [← after_append, ← split]
  exact passed

theorem not_passed_of_final {thread : Nat} {phase : BarrierPhase} {schedule : List SourceAction}
    (final : phase.isFinal = true) (ended : phase ≠ .passed)
    (present : world.calls[number]? = some { thread, phase }) :
    (world.after schedule).phase? number ≠ some .passed := by
  intro passed
  obtain ⟨_, _, before, _, _, stepped, _, _⟩ := step_of_passed present ended passed
  rw [BarrierPhase.step?_final final] at stepped
  cases stepped

theorem turn_signals (world : SourceWorld) (number : Nat) :
    (world.turn number).signals = world.signals ∨
      (world.turn number).signals = world.signals.postFlush.2 := by
  cases present : world.calls[number]? with
  | none => exact Or.inl (by rw [turn_of_absent present])
  | some call =>
      cases stepped : call.phase.step? call.thread world.signals with
      | none => exact Or.inl (by rw [turn_of_waiting present stepped])
      | some step =>
          rw [turn_of_step present stepped]
          rcases BarrierPhase.signals_of_step? stepped with ⟨kept, _⟩ | ⟨_, _, posted⟩
          · exact Or.inl kept
          · exact Or.inr posted

end SourceWorld

/-- What an action does to the signals: it concerns the readers at most, it posts a flush, it runs a
task, or it is an event. -/
inductive SourceEffect (before : Signals) : SourceAction → Signals → Prop where
  | reading (action : SourceAction) (readers : Table Nat Nat) (acquisitions : Nat) :
      SourceEffect before action { before with readers, acquisitions }
  | posting (number : Nat) : SourceEffect before (.turn number) before.postFlush.2
  | running : SourceEffect before .runTask before.runTask
  | happening (event : SourceEvent) : SourceEffect before (.event event) (event.apply before)

namespace SourceEffect

variable {before after : Signals} {action : SourceAction}

theorem indexed (effect : SourceEffect before action after) (indexed : before.indexing = false)
    (other : action ≠ .event .startIndexing) : after.indexing = false := by
  cases effect with
  | reading readers acquisitions => exact indexed
  | posting number => exact (before.indexing_post _).trans indexed
  | running => exact before.indexing_runTask.trans indexed
  | happening event =>
      cases event with
      | startIndexing => exact absurd rfl other
      | finishIndexing => rfl
      | markUncommitted => exact indexed
      | commitAll => exact indexed
      | onAllCommitted label => exact (before.indexing_onAllCommitted _).trans indexed
      | postFailing => exact (before.indexing_post .failing).trans indexed

theorem waiting (effect : SourceEffect before action after) (waiting : before.uncommitted = true)
    (other : action ≠ .event .commitAll) : after.uncommitted = true := by
  cases effect with
  | reading readers acquisitions => exact waiting
  | posting number => exact (before.uncommitted_post _).trans waiting
  | running => exact before.uncommitted_runTask.trans waiting
  | happening event =>
      cases event with
      | startIndexing => exact waiting
      | finishIndexing => exact waiting
      | markUncommitted => rfl
      | commitAll => exact absurd rfl other
      | onAllCommitted label => exact (before.uncommitted_onAllCommitted _).trans waiting
      | postFailing => exact (before.uncommitted_post .failing).trans waiting

end SourceEffect

namespace SourceWorld

variable {world : SourceWorld} {schedule : List SourceAction}

theorem act_effect (world : SourceWorld) (action : SourceAction) :
    SourceEffect world.signals action (world.act action).signals := by
  cases action with
  | call thread entry => exact .reading _ world.signals.readers world.signals.acquisitions
  | turn number =>
      rcases world.turn_signals number with same | posted
      · rw [act, same]
        exact .reading _ world.signals.readers world.signals.acquisitions
      · rw [act, posted]
        exact .posting number
  | runTask => exact .running
  | event event => exact .happening event
  | acquire thread => exact .reading _ _ _
  | release thread =>
      obtain ⟨readers, released⟩ := world.signals.release_eq thread
      rw [act, released]
      exact .reading _ readers world.signals.acquisitions

theorem indexed_after (indexed : world.signals.indexing = false)
    (undisturbed : .event .startIndexing ∉ schedule) :
    (world.after schedule).signals.indexing = false := by
  refine after_keeps (fun current => current.signals.indexing = false) ?_ indexed
  intro current action inside indexed
  apply (current.act_effect action).indexed indexed
  intro same
  exact undisturbed (same ▸ inside)

theorem waiting_after (waiting : world.signals.uncommitted = true)
    (undisturbed : .event .commitAll ∉ schedule) :
    (world.after schedule).signals.uncommitted = true := by
  refine after_keeps (fun current => current.signals.uncommitted = true) ?_ waiting
  intro current action inside waiting
  apply (current.act_effect action).waiting waiting
  intro same
  exact undisturbed (same ▸ inside)

def alone (thread : Nat) (phase : BarrierPhase) (signals : Signals) : SourceWorld :=
  { signals, calls := [{ thread, phase }] }

theorem turn_alone {thread : Nat} {phase next : BarrierPhase} {signals after : Signals}
    (stepped : phase.step? thread signals = some (next, after)) :
    (alone thread phase signals).turn 0 = alone thread next after := by
  have present : (alone thread phase signals).calls[0]? = some (.mk thread phase) := rfl
  rw [turn_of_step present stepped]
  rfl

theorem after_events (world : SourceWorld) (events : List SourceEvent) :
    world.after (events.map .event) =
      { world with
        signals := events.foldl (fun current event => event.apply current) world.signals } := by
  induction events generalizing world with
  | nil => rfl
  | cons event rest inductionHypothesis => exact inductionHypothesis _

/-- A run of the barrier is one of its interleavings: the events happen in their order, and the
turns of the call and the posted tasks lie in between. -/
theorem after_of_run {thread : Nat} {phase final : BarrierPhase} {signals after : Signals}
    {events : List SourceEvent}
    (ended : phase.run thread signals events = some (final, after)) :
    ∃ schedule : List SourceAction, schedule.filterMap SourceAction.event? = events ∧
      (alone thread phase signals).after schedule = alone thread final after := by
  induction phase, signals, events using BarrierPhase.run.induct thread with
  | case1 phase signals events isFinal =>
      rw [BarrierPhase.run_final isFinal, Option.some.injEq, Prod.mk.injEq] at ended
      obtain ⟨samePhase, sameSignals⟩ := ended
      refine ⟨events.map .event, ?_, ?_⟩
      · rw [List.filterMap_map]
        exact List.filterMap_some
      · rw [after_events, ← samePhase, ← sameSignals]
        rfl
  | case2 phase signals events running next between step inductionHypothesis =>
      rw [BarrierPhase.run_step (Bool.eq_false_iff.mpr running) step] at ended
      obtain ⟨schedule, happened, reached⟩ := inductionHypothesis ended
      refine ⟨.turn 0 :: schedule, happened, ?_⟩
      rw [after_cons, act, turn_alone step]
      exact reached
  | case3 phase signals running blocked idle =>
      rw [BarrierPhase.run_blocked (Bool.eq_false_iff.mpr running) blocked, if_pos idle] at ended
      cases ended
  | case4 phase signals running blocked idle event rest inductionHypothesis =>
      rw [BarrierPhase.run_blocked (Bool.eq_false_iff.mpr running) blocked, if_pos idle] at ended
      obtain ⟨schedule, happened, reached⟩ := inductionHypothesis ended
      exact ⟨.event event :: schedule, congrArg (event :: ·) happened, reached⟩
  | case5 phase signals events running blocked busy inductionHypothesis =>
      rw [BarrierPhase.run_blocked (Bool.eq_false_iff.mpr running) blocked, if_neg busy] at ended
      obtain ⟨schedule, happened, reached⟩ := inductionHypothesis ended
      exact ⟨.runTask :: schedule, happened, reached⟩

end SourceWorld

end ComponentStyles
