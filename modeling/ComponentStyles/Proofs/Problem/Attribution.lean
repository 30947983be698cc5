import ComponentStyles.Problem.Basic
import Mathlib.Data.List.Induction

/-!
Which file a problem is put down to.

Files are entered and left like brackets, so at any time some of them are open, the innermost one
entered last.  The log itself knows one file at most: the innermost one, as long as no file has been
left since it was entered.  From then on, and until another file is entered, the files around the
one that was left are forgotten.
-/

namespace ComponentStyles

inductive LogEvent where
  | enter (file : FileId)
  | leave
  | add (property : InvalidProperty)
  | report (file : FileId) (key : String) (arguments : List String)
  deriving DecidableEq, Repr

namespace LogEvent

def apply (log : ProblemLog) : LogEvent → ProblemLog
  | enter file => log.enter file
  | leave => log.leave
  | add property => log.add property
  | report file key arguments => log.report file key arguments

def problem? : LogEvent → Option Problem
  | add property => some
      { file := property.location.file
        line := property.location.line
        message := property.message }
  | report file key arguments => some
      { file, line := none, message := Message.render key arguments }
  | _ => none

def recorded (events : List LogEvent) : List Problem :=
  events.filterMap problem?

theorem recorded_cons (event : LogEvent) (rest : List LogEvent) :
    recorded (event :: rest) = event.problem?.toList ++ recorded rest := by
  rw [recorded, List.filterMap_cons]
  cases event.problem? <;> rfl

def turn (files : List FileId) : LogEvent → List FileId
  | enter file => file :: files
  | leave => files.tail
  | _ => files

def openFiles (events : List LogEvent) : List FileId :=
  events.foldl turn []

def leaves (left : Bool) : LogEvent → Bool
  | enter _ => false
  | leave => true
  | _ => left

/-- A file has been left, and none has been entered since. -/
def leftLast (events : List LogEvent) : Bool :=
  events.foldl leaves false

/-- Every file that is entered is left again, the innermost first. -/
inductive WellNested : List LogEvent → Prop
  | nothing : WellNested []
  | recording {event : LogEvent} {rest : List LogEvent} :
      event.problem?.isSome → WellNested rest → WellNested (event :: rest)
  | within {file : FileId} {inside rest : List LogEvent} :
      WellNested inside → WellNested rest → WellNested (.enter file :: (inside ++ .leave :: rest))

theorem openFiles_of_leftLast {events : List LogEvent}
    (flat : ∀ front, front <+: events → (openFiles front).length ≤ 1)
    (left : leftLast events = true) : openFiles events = [] := by
  induction events using List.reverseRecOn with
  | nil => rfl
  | append_singleton front event inductionHypothesis =>
      have flatBefore : ∀ earlier, earlier <+: front → (openFiles earlier).length ≤ 1 :=
        fun earlier inside => flat earlier (inside.trans (List.prefix_append front [event]))
      rw [leftLast, List.foldl_append] at left
      rw [openFiles, List.foldl_append]
      cases event with
      | enter file => cases left
      | leave =>
          have short := flatBefore front (List.prefix_refl front)
          change (openFiles front).tail = []
          rw [← List.length_eq_zero_iff, List.length_tail]
          omega
      | add property => exact inductionHypothesis flatBefore left
      | report file key arguments => exact inductionHypothesis flatBefore left

end LogEvent

namespace ProblemLog

open LogEvent

def after (log : ProblemLog) (events : List LogEvent) : ProblemLog :=
  events.foldl LogEvent.apply log

theorem after_append (log : ProblemLog) (front rest : List LogEvent) :
    log.after (front ++ rest) = (log.after front).after rest :=
  List.foldl_append

variable (log : ProblemLog) (event : LogEvent)

theorem problems_apply :
    (event.apply log).problems.toList =
      log.problems.toList ++
        event.problem?.toList.map fun problem =>
          { problem with file := log.current.getD problem.file } := by
  cases event with
  | enter file => exact (List.append_nil _).symm
  | leave => exact (List.append_nil _).symm
  | add property => exact Array.toList_push
  | report file key arguments => exact Array.toList_push

/-- Problems only come behind the others, one for each event that records one. -/
theorem problems_after (events : List LogEvent) :
    ∃ later, (log.after events).problems.toList = log.problems.toList ++ later ∧
      later.length = (recorded events).length := by
  induction events generalizing log with
  | nil => exact ⟨[], (List.append_nil _).symm, rfl⟩
  | cons event rest inductionHypothesis =>
      obtain ⟨later, grown, counted⟩ := inductionHypothesis (event.apply log)
      rw [problems_apply, List.append_assoc] at grown
      refine ⟨_, grown, ?_⟩
      rw [List.length_append, List.length_map, counted, recorded_cons, List.length_append]

/-- The log knows the innermost open file unless a file has been left last. -/
theorem current_after {log : ProblemLog} {files : List FileId} {left : Bool}
    (known : log.current = if left then none else files.head?) (events : List LogEvent) :
    (log.after events).current =
      if events.foldl leaves left then none else (events.foldl turn files).head? := by
  induction events generalizing log files left with
  | nil => exact known
  | cons event rest inductionHypothesis =>
      have next : (event.apply log).current =
          if leaves left event then none else (turn files event).head? := by
        cases event with
        | enter file => rfl
        | leave => rfl
        | add property => exact known
        | report file key arguments => exact known
      exact inductionHypothesis next

end ProblemLog

open LogEvent in
/-- Behind any events, the log has one problem for each that records one, in their order.  A problem
is put down to the innermost file that is open where it is recorded, unless a file has been left
since that one was entered, and to its own file otherwise.  So where no file is entered inside
another, it is the open file for every problem. -/
theorem problems_under_last_entered (events : List LogEvent) :
    let told := ProblemLog.empty.after events
    told.problems.size = (recorded events).length ∧
    (∀ front event rest problem, events = front ++ event :: rest →
      event.problem? = some problem →
      told.problems[(recorded front).length]? = some
        { problem with
          file := if leftLast front then problem.file
            else (openFiles front).head?.getD problem.file }) ∧
    ((∀ front, front <+: events → (openFiles front).length ≤ 1) →
      ∀ front event rest problem, events = front ++ event :: rest →
        event.problem? = some problem →
        told.problems[(recorded front).length]? = some
          { problem with file := (openFiles front).head?.getD problem.file }) := by
  intro told
  have placed : ∀ front event rest problem, events = front ++ event :: rest →
      event.problem? = some problem →
      told.problems[(recorded front).length]? = some
        { problem with
          file := if leftLast front then problem.file
            else (openFiles front).head?.getD problem.file } := by
    intro front event rest problem split records
    obtain ⟨before, grown, counted⟩ := ProblemLog.empty.problems_after front
    obtain ⟨later, behind, _⟩ :=
      (event.apply (ProblemLog.empty.after front)).problems_after rest
    have known : (ProblemLog.empty.after front).current =
        if leftLast front then none else (openFiles front).head? :=
      ProblemLog.current_after rfl front
    have reached : told = (event.apply (ProblemLog.empty.after front)).after rest := by
      change ProblemLog.empty.after events = _
      rw [split, ProblemLog.after_append]
      rfl
    rw [← Array.getElem?_toList, reached, behind, ProblemLog.problems_apply, grown, records, known,
      ← counted]
    cases leftLast front <;> simp [ProblemLog.empty]
  refine ⟨?_, placed, ?_⟩
  · obtain ⟨later, grown, counted⟩ := ProblemLog.empty.problems_after events
    rw [← Array.length_toList, grown, List.length_append, counted]
    exact Nat.zero_add _
  · intro flat front event rest problem split records
    have found := placed front event rest problem split records
    have flatBefore : ∀ earlier, earlier <+: front → (openFiles earlier).length ≤ 1 := by
      intro earlier inside
      exact flat earlier (split ▸ inside.trans (List.prefix_append front (event :: rest)))
    cases left : leftLast front with
    | false => rw [found, left, if_neg Bool.false_ne_true]
    | true =>
        rw [found, left, if_pos rfl, openFiles_of_leftLast flatBefore left]
        rfl

open LogEvent in
theorem problem_of_cart_page :
    let front : List LogEvent := [.report ⟨"theme.css"⟩ "unreadable" [], .enter ⟨"Cart.mxml"⟩]
    let rest : List LogEvent := [.leave, .enter ⟨"Shop.mxml"⟩, .leave]
    let events := front ++ .report ⟨"menu.css"⟩ "unreadable" [] :: rest
    (∀ front, front <+: events → (openFiles front).length ≤ 1) ∧
      (ProblemLog.empty.after events).problems.size = 2 ∧
      (ProblemLog.empty.after events).problems[1]? = some
        { file := ⟨"Cart.mxml"⟩, line := none, message := Message.render "unreadable" [] } := by
  intro front rest events
  have flat : ∀ earlier, earlier <+: events → (openFiles earlier).length ≤ 1 := by
    have checked : ∀ count < events.length + 1, (openFiles (events.take count)).length ≤ 1 := by
      decide
    intro earlier inside
    rw [List.prefix_iff_eq_take.mp inside]
    exact checked earlier.length (Nat.lt_succ_of_le inside.length_le)
  obtain ⟨size, _, placed⟩ := problems_under_last_entered events
  exact ⟨flat, size, placed flat front (.report ⟨"menu.css"⟩ "unreadable" []) rest _ rfl rfl⟩

open LogEvent in
/-- The shop is still open when the cart inside it has been left, but the log knows no file then. -/
theorem outer_file_forgotten :
    let front : List LogEvent := [.enter ⟨"Shop.mxml"⟩, .enter ⟨"Cart.mxml"⟩, .leave]
    let events := front ++ .report ⟨"theme.css"⟩ "unreadable" [] :: [.leave]
    WellNested events ∧ openFiles front = [⟨"Shop.mxml"⟩] ∧
      (ProblemLog.empty.after events).problems = #[
        { file := ⟨"theme.css"⟩, line := none, message := Message.render "unreadable" [] }] := by
  intro front events
  have reports : WellNested [.report ⟨"theme.css"⟩ "unreadable" []] := .recording rfl .nothing
  exact ⟨.within (.within .nothing reports) .nothing, rfl, rfl⟩

end ComponentStyles
