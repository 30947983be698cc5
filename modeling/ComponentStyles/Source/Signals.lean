import ComponentStyles.Table

/-!
Signals of the source model: whether its index is being rebuilt, whether edits wait to be
committed, what runs after the commit, what the executor has to do, and who reads.

The actions here are the single steps that threads take one at a time.
-/

namespace ComponentStyles

inductive CommitCallback where
  | record (label : String)
  | wake (flush : Nat)
  deriving DecidableEq, Repr

/-- What the executor runs: the task of a flush, or one that panics and ends the executor. -/
inductive ExecutorTask where
  | flush (number : Nat)
  | failing
  deriving DecidableEq, Repr

structure Signals where
  indexing : Bool
  uncommitted : Bool
  pending : List CommitCallback
  fired : List CommitCallback
  tasks : List ExecutorTask
  /-- The executor has ended, and no task has been posted since. -/
  executorGone : Bool
  /-- Flushes whose task was lost with an executor. -/
  dropped : List Nat
  flushes : Nat
  /-- How often each thread holds read access; a thread that holds none has no entry. -/
  readers : Table Nat Nat
  acquisitions : Nat
  deriving DecidableEq, Repr

namespace Signals

def initial : Signals :=
  { indexing := false, uncommitted := false, pending := [], fired := [], tasks := [],
    executorGone := false, dropped := [], flushes := 0, readers := [], acquisitions := 0 }

def startIndexing (signals : Signals) : Signals :=
  { signals with indexing := true }

def finishIndexing (signals : Signals) : Signals :=
  { signals with indexing := false }

def markUncommitted (signals : Signals) : Signals :=
  { signals with uncommitted := true }

def commitAll (signals : Signals) : Signals :=
  { signals with
    uncommitted := false
    pending := []
    fired := signals.fired ++ signals.pending }

def onAllCommitted (signals : Signals) (callback : CommitCallback) : Signals :=
  if signals.uncommitted then { signals with pending := signals.pending ++ [callback] }
  else { signals with fired := signals.fired ++ [callback] }

theorem onAllCommitted_eq (signals : Signals) (callback : CommitCallback) :
    ∃ pending fired, signals.onAllCommitted callback = { signals with pending, fired } := by
  unfold onAllCommitted
  split <;> exact ⟨_, _, rfl⟩

def labels (signals : Signals) : List String :=
  signals.fired.filterMap fun callback =>
    match callback with
    | .record label => some label
    | .wake _ => none

def flushesOf (tasks : List ExecutorTask) : List Nat :=
  tasks.filterMap fun task =>
    match task with
    | .flush number => some number
    | .failing => none

/-- Posts a task.  The first one behind the end of an executor is lost; from then on there is an
executor again. -/
def post (signals : Signals) (task : ExecutorTask) : Signals :=
  if signals.executorGone then
    { signals with executorGone := false, dropped := signals.dropped ++ flushesOf [task] }
  else { signals with tasks := signals.tasks ++ [task] }

theorem post_eq (signals : Signals) (task : ExecutorTask) :
    ∃ tasks executorGone dropped,
      signals.post task = { signals with tasks, executorGone, dropped } := by
  unfold post
  split <;> exact ⟨_, _, _, rfl⟩

def postFlush (signals : Signals) : Nat × Signals :=
  (signals.flushes, { signals.post (.flush signals.flushes) with flushes := signals.flushes + 1 })

/-- Runs the task posted first.  The one of a flush asks to be woken after the commit; one that
panics takes the others with it. -/
def runTask (signals : Signals) : Signals :=
  match signals.tasks with
  | [] => signals
  | .flush flush :: rest => { signals with tasks := rest }.onAllCommitted (.wake flush)
  | .failing :: rest =>
      { signals with
        tasks := []
        executorGone := true
        dropped := signals.dropped ++ flushesOf rest }

def isWoken (signals : Signals) (flush : Nat) : Bool :=
  signals.fired.contains (.wake flush)

def isDropped (signals : Signals) (flush : Nat) : Bool :=
  signals.dropped.contains flush

def acquire (signals : Signals) (thread : Nat) : Signals :=
  { signals with
    readers := signals.readers.put thread ((signals.readers.get? thread).getD 0 + 1)
    acquisitions := signals.acquisitions + 1 }

/-- A thread gives up read access once; one that holds none changes nothing. -/
def release (signals : Signals) (thread : Nat) : Signals :=
  match signals.readers.get? thread with
  | some holds =>
      if 1 < holds then { signals with readers := signals.readers.put thread (holds - 1) }
      else { signals with readers := signals.readers.remove thread }
  | none => signals

def mayRead (signals : Signals) (thread : Nat) : Bool :=
  (signals.readers.get? thread).isSome

def activeReaders (signals : Signals) : Nat :=
  (signals.readers.map (·.2)).foldr (· + ·) 0

end Signals

inductive SourceEvent where
  | startIndexing
  | finishIndexing
  | markUncommitted
  | commitAll
  | onAllCommitted (label : String)
  | postFailing
  deriving DecidableEq, Repr

def SourceEvent.apply (event : SourceEvent) (signals : Signals) : Signals :=
  match event with
  | startIndexing => signals.startIndexing
  | finishIndexing => signals.finishIndexing
  | markUncommitted => signals.markUncommitted
  | commitAll => signals.commitAll
  | onAllCommitted label => signals.onAllCommitted (.record label)
  | postFailing => signals.post .failing

end ComponentStyles
