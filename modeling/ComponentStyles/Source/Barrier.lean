import ComponentStyles.Source.Signals

/-!
Waiting for a consistent source model.

The barrier first waits for a fresh index and then, if edits are uncommitted, for their commit.
A thread that holds read access would keep the commit from happening, so it is refused instead; and
one whose task is lost with the executor is told that the executor has stopped.
Every phase is one step; between steps other threads may act.
-/

namespace ComponentStyles

inductive BarrierPhase where
  | testIndex
  | awaitIndex
  | testEdits
  | testAccess
  | post
  | awaitWake (flush : Nat)
  | passed
  | refused
  | stopped
  deriving DecidableEq, Repr

namespace BarrierPhase

def isFinal : BarrierPhase → Bool
  | passed | refused | stopped => true
  | _ => false

def rank : BarrierPhase → Nat
  | testIndex => 6
  | awaitIndex => 5
  | testEdits => 4
  | testAccess => 3
  | post => 2
  | awaitWake _ => 1
  | passed | refused | stopped => 0

def step? (thread : Nat) (phase : BarrierPhase) (signals : Signals) :
    Option (BarrierPhase × Signals) :=
  match phase with
  | testIndex => some (if signals.indexing then awaitIndex else testEdits, signals)
  | awaitIndex => if signals.indexing then none else some (testEdits, signals)
  | testEdits => some (if signals.uncommitted then testAccess else passed, signals)
  | testAccess => some (if signals.mayRead thread then refused else post, signals)
  | post =>
      let posted := signals.postFlush
      some (awaitWake posted.1, posted.2)
  | awaitWake flush =>
      if signals.isWoken flush then some (passed, signals)
      else if signals.isDropped flush then some (stopped, signals)
      else none
  | passed | refused | stopped => none

theorem rank_step?_lt {thread : Nat} {phase next : BarrierPhase} {signals after : Signals}
    (stepped : phase.step? thread signals = some (next, after)) : next.rank < phase.rank := by
  cases phase <;> simp only [step?] at stepped <;> grind [rank]

/-- The barrier with the executor at hand and the events that other threads will add: a thread
that has to wait lets the executor run a posted task, or else the next event happen.  There is
no outcome when it would wait for ever.  Events that are left when waiting ends happen then. -/
def run (thread : Nat) (phase : BarrierPhase) (signals : Signals) (events : List SourceEvent) :
    Option (BarrierPhase × Signals) :=
  if phase.isFinal then some (phase, events.foldl (fun signals event => event.apply signals) signals)
  else
    match _stepped : phase.step? thread signals with
    | some (next, after) => run thread next after events
    | none =>
        if _waiting : signals.tasks = [] then
          match events with
          | [] => none
          | event :: rest => run thread phase (event.apply signals) rest
        else run thread phase signals.runTask events
termination_by (phase.rank, events.length, signals.tasks.length)
decreasing_by
  · exact Prod.Lex.left _ _ (rank_step?_lt _stepped)
  · apply Prod.Lex.right
    apply Prod.Lex.left
    simp
  · apply Prod.Lex.right
    apply Prod.Lex.right
    cases shape : signals.tasks with
    | nil => exact absurd shape _waiting
    | cons task rest =>
        cases task with
        | flush number =>
            simp only [Signals.runTask, shape, Signals.onAllCommitted]
            split <;> simp
        | failing => simp [Signals.runTask, shape]

end BarrierPhase

namespace Signals

def awaitConsistency (signals : Signals) (thread : Nat) (events : List SourceEvent) :
    Option (BarrierPhase × Signals) :=
  BarrierPhase.testIndex.run thread signals events

/-- Waits until every edit is committed, whoever reads. -/
def flushAndWait (signals : Signals) (thread : Nat) (events : List SourceEvent) :
    Option (BarrierPhase × Signals) :=
  BarrierPhase.post.run thread signals events

end Signals

end ComponentStyles
