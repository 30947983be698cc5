import ComponentStyles.Proofs.Pass.Collection
import ComponentStyles.Proofs.Source.Readers

/-!
What a pass leaves as it found it.

Whatever a pass returns, read access is as it was, the project has only been read, and the log has
at most gained problems behind those it was given.  A pass that ends before it has anything to
style never asks the compiler.
-/

namespace ComponentStyles

variable {σ : Type}

namespace ProblemLog

/-- Problems have only come behind the others, and no file is left entered. -/
structure ExtendsTo (before after : ProblemLog) : Prop where
  problems : before.problems.toList <+: after.problems.toList
  current : before.current = none → after.current = none

theorem ExtendsTo.refl (log : ProblemLog) : log.ExtendsTo log :=
  ⟨List.prefix_refl _, fun unset => unset⟩

theorem ExtendsTo.trans {first second third : ProblemLog} (one : first.ExtendsTo second)
    (two : second.ExtendsTo third) : first.ExtendsTo third :=
  ⟨one.problems.trans two.problems, fun unset => two.current (one.current unset)⟩

theorem extendsTo_record (log : ProblemLog) (file : FileId) (line : Option Nat)
    (message : String) : log.ExtendsTo (log.record file line message) := by
  refine ⟨?_, fun unset => unset⟩
  rw [record, Array.toList_push]
  exact List.prefix_append _ _

end ProblemLog

namespace ResolutionContext

theorem resolveTags_extends (context : ResolutionContext σ) (document : Document)
    (tags : List Element) (state : PassState σ) (made : Nat) :
    state.log.ExtendsTo (context.resolveTags document tags state made).2.log := by
  induction tags generalizing state made with
  | nil => exact .refl state.log
  | cons tag rest inductionHypothesis =>
      rw [resolveTags]
      split
      · rename_i resolution _resolved
        exact inductionHypothesis { state with resolution } (made + 1)
      · rename_i resolution _resolved
        exact inductionHypothesis { state with resolution } made
      · rename_i invalid resolution _resolved
        have added : state.log.ExtendsTo (state.log.add invalid) :=
          state.log.extendsTo_record _ _ _
        exact added.trans (inductionHypothesis { resolution, log := state.log.add invalid } made)
      · exact .refl state.log

theorem extract_extends (context : ResolutionContext σ) (style : StyleTagSettings)
    (declared : ComponentClass) (state : PassState σ) :
    state.log.ExtendsTo (context.extract style declared state).2.log := by
  unfold extract
  split
  · exact .refl state.log
  · rename_i document _backed
    have resolved := context.resolveTags_extends document (style.tagsOf document)
      { state with log := state.log.enter document.file } 0
    -- Leaving the document clears the entered file, whatever was entered before.
    exact ⟨resolved.problems, fun _ => rfl⟩

theorem extractAll_extends (context : ResolutionContext σ) (style : StyleTagSettings)
    (classes : List ComponentClass) (state : PassState σ) :
    state.log.ExtendsTo (context.extractAll style classes state).2.log := by
  induction classes generalizing state with
  | nil => exact .refl state.log
  | cons declared rest inductionHypothesis =>
      have first := context.extract_extends style declared state
      rw [extractAll]
      split
      · rename_i made after extracted
        rw [extracted] at first
        exact first.trans (inductionHypothesis after)
      · rename_i failure after extracted
        rw [extracted] at first
        exact first

end ResolutionContext

theorem collectApplication_extends (settings : Settings) (compiler : StyleCompiler σ)
    (project : Project) (module : ModuleName) (sdk : SdkVersion) (state : σ) (log : ProblemLog) :
    log.ExtendsTo (collectApplication settings compiler project module sdk state log).2.2 := by
  unfold collectApplication
  dsimp only
  split
  · exact .refl log
  · have extracted := ResolutionContext.extractAll_extends
      { project, compiler, sourceAttribute := settings.style.sourceAttribute, module }
      settings.style (project.components module (project.baseClasses settings module sdk))
      { resolution := .start state, log }
    split
    · rename_i after answered
      rw [answered] at extracted
      exact extracted
    · rename_i failure after answered
      rw [answered] at extracted
      exact extracted

theorem collectLibrary_extends (settings : Settings) (compiler : StyleCompiler σ)
    (project : Project) (module : ModuleName) (library : ComponentModule) (state : σ)
    (log : ProblemLog) :
    log.ExtendsTo (collectLibrary settings compiler project module library state log).2.2 := by
  unfold collectLibrary
  split
  · exact .refl log
  · split
    · exact .refl log
    · exact log.extendsTo_record _ _ _
    · exact .refl log

theorem collectConsistent_extends (settings : Settings) (compiler : StyleCompiler σ)
    (project : Project) (module : ModuleName) (sdk : String) (state : σ) (log : ProblemLog) :
    log.ExtendsTo (collectConsistent settings compiler project module sdk state log).2.2 := by
  unfold collectConsistent
  split
  · exact .refl log
  · split
    · exact collectLibrary_extends settings compiler project module _ state log
    · split
      · exact .refl log
      · exact collectApplication_extends settings compiler project module _ state log

/-- The module is unknown, or it is an application and the text names no SDK version. -/
def Project.Rejects (project : Project) (module : ModuleName) (sdk : String) : Prop :=
  project.module? module = none ∨
    ∃ found fault, project.module? module = some found ∧ found.nature = .application ∧
      SdkVersion.parse sdk = .error fault

theorem collectConsistent_of_rejects {project : Project} {module : ModuleName} {sdk : String}
    (rejects : project.Rejects module sdk) :
    ∃ failure : PassFailure, ∀ (settings : Settings) (compiler : StyleCompiler σ) (state : σ)
      (log : ProblemLog),
      collectConsistent settings compiler project module sdk state log =
        (.error failure, state, log) := by
  rcases rejects with unknown | ⟨found, fault, known, application, unparsed⟩
  · refine ⟨.host (.unknownModule module.text), ?_⟩
    intro settings compiler state log
    simp only [collectConsistent, Project.knownModule, unknown]
  · refine ⟨.sdk fault, ?_⟩
    intro settings compiler state log
    simp only [collectConsistent, Project.knownModule, known, application, unparsed]

def Signals.Passes (signals : Signals) (thread : Nat) (events : List SourceEvent) : Prop :=
  ∃ after, signals.awaitConsistency thread events = some (.passed, after)

def Host.behind (host : Host) (outcome : PassOutcome σ) : Host :=
  { host with signals := outcome.signals }

theorem Host.collect_returns {host : Host} {thread : Nat} {events : List SourceEvent}
    {phase : BarrierPhase} {signals : Signals}
    (waited : host.signals.awaitConsistency thread events = some (phase, signals))
    (settings : Settings) (compiler : StyleCompiler σ) (module : ModuleName) (sdk : String)
    (state : σ) (log : ProblemLog) :
    ∃ outcome,
      host.collect settings compiler module sdk state log thread events = some outcome := by
  unfold Host.collect
  rw [waited]
  cases phase <;> exact ⟨_, rfl⟩

theorem Host.collect_eq_none (host : Host) {settings : Settings} {compiler : StyleCompiler σ}
    {module : ModuleName} {sdk : String} {state : σ} {log : ProblemLog} {thread : Nat}
    {events : List SourceEvent} :
    host.collect settings compiler module sdk state log thread events = none ↔
      host.signals.awaitConsistency thread events = none := by
  constructor
  · intro never
    cases waited : host.signals.awaitConsistency thread events with
    | none => rfl
    | some passed =>
        obtain ⟨outcome, collected⟩ :=
          host.collect_returns waited settings compiler module sdk state log
        rw [never] at collected
        cases collected
  · intro waits
    simp only [Host.collect, waits]

/-- A pass that returns has passed the barrier and then collected under one more hold of read
access, or was refused or found the executor stopped, and did nothing. -/
theorem Host.collect_cases {host : Host} {settings : Settings} {compiler : StyleCompiler σ}
    {module : ModuleName} {sdk : String} {state : σ} {log : ProblemLog} {thread : Nat}
    {events : List SourceEvent} {outcome : PassOutcome σ}
    (collected : host.collect settings compiler module sdk state log thread events =
      some outcome) :
    (∃ signals, host.signals.awaitConsistency thread events = some (.passed, signals) ∧
      outcome.signals = (signals.acquire thread).release thread ∧
      (outcome.result, outcome.compilerState, outcome.log) =
        collectConsistent settings compiler host.project module sdk state log) ∨
    (∃ phase, host.signals.awaitConsistency thread events = some (phase, outcome.signals) ∧
      (phase = .refused ∨ phase = .stopped) ∧ outcome.result = .error phase.failure ∧
      outcome.compilerState = state ∧ outcome.log = log) := by
  unfold Host.collect at collected
  split at collected
  · cases collected
  · rename_i signals waited
    cases collected
    exact Or.inl ⟨signals, waited, rfl, rfl⟩
  · rename_i phase signals notPassed waited
    cases collected
    have final := (Signals.awaitConsistency_keepsReaders waited).2
    right
    refine ⟨phase, waited, ?_, rfl, rfl, rfl⟩
    cases phase with
    | passed => exact absurd rfl notPassed
    | refused => exact Or.inl rfl
    | stopped => exact Or.inr rfl
    | _ => cases final

theorem Host.collect_idle {host : Host} {settings : Settings} {compiler : StyleCompiler σ}
    {module : ModuleName} {sdk : String} {state : σ} {log : ProblemLog} {thread : Nat}
    {events : List SourceEvent} {outcome : PassOutcome σ}
    (collected : host.collect settings compiler module sdk state log thread events = some outcome)
    (idle : ¬ host.signals.Passes thread events ∨ host.project.Rejects module sdk) :
    outcome.log = log ∧ outcome.compilerState = state ∧
      ∀ other : StyleCompiler σ,
        host.collect settings other module sdk state log thread events = some outcome := by
  rcases host.collect_cases collected with
    ⟨signals, waited, _, answer⟩ | ⟨phase, waited, ended, _, same, kept⟩
  · have rejects : host.project.Rejects module sdk :=
      idle.resolve_left fun refused => refused ⟨signals, waited⟩
    obtain ⟨failure, silent⟩ : ∃ failure : PassFailure, ∀ (settings : Settings)
        (compiler : StyleCompiler σ) (state : σ) (log : ProblemLog), collectConsistent settings
          compiler host.project module sdk state log = (.error failure, state, log) :=
      collectConsistent_of_rejects rejects
    rw [silent, Prod.mk.injEq, Prod.mk.injEq] at answer
    refine ⟨answer.2.2, answer.2.1, ?_⟩
    intro other
    rw [← collected]
    simp only [Host.collect, waited, silent]
  · refine ⟨kept, same, ?_⟩
    intro other
    rw [← collected]
    rcases ended with refused | stopped
    · simp only [Host.collect, waited, refused]
    · simp only [Host.collect, waited, stopped]

/-- Whatever a pass returns, every thread holds read access as often as before, access has been
acquired once if the barrier was passed and not at all otherwise, the project is the same, the
problems are those before and perhaps more behind them, and no file is entered if none was.  A pass
whose barrier is not passed fails because its thread reads or because the executor has stopped.  Such
a pass, and one whose module or version is unknown, records no problem and asks no compiler. -/
theorem collect_restores (host : Host) (settings : Settings) (compiler : StyleCompiler σ)
    (module : ModuleName) (sdk : String) (state : σ) (log : ProblemLog) (thread : Nat)
    (events : List SourceEvent) {outcome : PassOutcome σ}
    (collected : host.collect settings compiler module sdk state log thread events =
      some outcome) :
    (∀ other, outcome.signals.holds other = host.signals.holds other) ∧
      (host.signals.Passes thread events →
        outcome.signals.acquisitions = host.signals.acquisitions + 1) ∧
      (¬ host.signals.Passes thread events →
        outcome.signals.acquisitions = host.signals.acquisitions ∧
          (outcome.result = .error .commitWait ∨
            outcome.result = .error (.host .executorStopped))) ∧
      (host.behind outcome).project = host.project ∧
      log.problems.toList <+: outcome.log.problems.toList ∧
      (log.current = none → outcome.log.current = none) ∧
      (¬ host.signals.Passes thread events ∨ host.project.Rejects module sdk →
        outcome.log = log ∧ outcome.compilerState = state ∧
          ∀ other : StyleCompiler σ,
            host.collect settings other module sdk state log thread events = some outcome) := by
  rcases host.collect_cases collected with
    ⟨signals, waited, left, answer⟩ | ⟨phase, waited, ended, failed, _, kept⟩
  · have waiting := (Signals.awaitConsistency_keepsReaders waited).1
    have extended := collectConsistent_extends settings compiler host.project module sdk state log
    rw [← answer] at extended
    refine ⟨?_, ?_, ?_, rfl, extended.problems, extended.current, host.collect_idle collected⟩
    · intro other
      rw [left, Signals.holds_release_acquire, waiting.holds]
    · intro _passes
      rw [left, Signals.acquisitions_release, ← waiting.acquisitions]
      rfl
    · intro refused
      exact absurd ⟨signals, waited⟩ refused
  · have waiting := (Signals.awaitConsistency_keepsReaders waited).1
    refine ⟨waiting.holds, ?_, ?_, rfl, ?_, ?_, host.collect_idle collected⟩
    · rintro ⟨after, passed⟩
      cases waited.symm.trans passed
      exact absurd ended (by decide)
    · intro _heldUp
      refine ⟨waiting.acquisitions, ?_⟩
      rcases ended with rfl | rfl
      · exact Or.inl failed
      · exact Or.inr failed
    · rw [kept]
    · intro unset
      rw [kept]
      exact unset

def twoPagesRead (uncommitted : Bool) : Host :=
  { project := twoPages
    signals := { Signals.initial with uncommitted, readers := [(7, 2)] } }

/-- Two pages with edits to commit, while the executor is about to run a task that panics. -/
def twoPagesFailing : Host :=
  { project := twoPages
    signals := { Signals.initial with uncommitted := true, tasks := [.failing] } }

theorem twoPagesRead_refused :
    (twoPagesRead true).signals.awaitConsistency 7 [] =
      some (.refused, (twoPagesRead true).signals) := by
  unfold Signals.awaitConsistency
  rw [BarrierPhase.run_step rfl rfl, BarrierPhase.run_step rfl rfl, BarrierPhase.run_step rfl rfl]
  exact BarrierPhase.run_final rfl []

theorem twoPagesFailing_stopped :
    twoPagesFailing.signals.awaitConsistency 7 [] =
      some (.stopped, { twoPagesFailing.signals with
        tasks := [], executorGone := true, dropped := [0], flushes := 1 }) := by
  have busy : twoPagesFailing.signals.postFlush.2.tasks ≠ [] := List.cons_ne_nil _ _
  unfold Signals.awaitConsistency
  rw [BarrierPhase.run_step rfl rfl, BarrierPhase.run_step rfl rfl, BarrierPhase.run_step rfl rfl,
    BarrierPhase.run_step rfl rfl]
  -- The task of the flush lies behind the one that panics, and is lost with the executor.
  rw [BarrierPhase.run_blocked rfl rfl, if_neg busy, BarrierPhase.run_step rfl rfl]
  exact BarrierPhase.run_final rfl []

theorem collect_restores_twoPagesRead :
    (∃ outcome,
      (twoPagesRead false).collect .standard sheetCompiler ⟨"app"⟩ "3.6" .empty .empty 7 [] =
        some outcome ∧
      outcome.signals.holds 7 = 2 ∧ outcome.signals.acquisitions = 1) ∧
    (∃ outcome,
      (twoPagesRead true).collect .standard sheetCompiler ⟨"app"⟩ "3.6" .empty .empty 7 [] =
        some outcome ∧
      outcome.signals.holds 7 = 2 ∧ outcome.signals.acquisitions = 0 ∧ outcome.log = .empty) ∧
    ∃ outcome,
      twoPagesFailing.collect .standard sheetCompiler ⟨"app"⟩ "3.6" .empty .empty 7 [] =
        some outcome ∧
      outcome.result = .error (.host .executorStopped) ∧
      outcome.signals.holds 7 = 0 ∧ outcome.signals.acquisitions = 0 ∧ outcome.log = .empty := by
  have passed : (twoPagesRead false).signals.awaitConsistency 7 [] = some (.passed, _) :=
    Signals.awaitConsistency_consistent rfl rfl 7 []
  refine ⟨?_, ?_, ?_⟩
  · obtain ⟨outcome, collected⟩ :=
      Host.collect_returns passed .standard sheetCompiler ⟨"app"⟩ "3.6" .empty .empty
    obtain ⟨held, acquired, _⟩ :=
      collect_restores (twoPagesRead false) .standard sheetCompiler ⟨"app"⟩ "3.6" .empty .empty 7
        [] collected
    exact ⟨outcome, collected, held 7, acquired ⟨_, passed⟩⟩
  · have refused : ¬ (twoPagesRead true).signals.Passes 7 [] := by
      rintro ⟨after, passes⟩
      cases twoPagesRead_refused.symm.trans passes
    obtain ⟨outcome, collected⟩ :=
      Host.collect_returns twoPagesRead_refused .standard sheetCompiler ⟨"app"⟩ "3.6" .empty .empty
    obtain ⟨held, _, acquired, _, _, _, idle⟩ :=
      collect_restores (twoPagesRead true) .standard sheetCompiler ⟨"app"⟩ "3.6" .empty .empty 7
        [] collected
    exact ⟨outcome, collected, held 7, (acquired refused).1, (idle (Or.inl refused)).1⟩
  · have stopped : ¬ twoPagesFailing.signals.Passes 7 [] := by
      rintro ⟨after, passes⟩
      cases twoPagesFailing_stopped.symm.trans passes
    obtain ⟨outcome, collected⟩ :=
      Host.collect_returns twoPagesFailing_stopped .standard sheetCompiler ⟨"app"⟩ "3.6" .empty
        .empty
    obtain ⟨held, _, heldUp, _, _, _, idle⟩ :=
      collect_restores twoPagesFailing .standard sheetCompiler ⟨"app"⟩ "3.6" .empty .empty 7 []
        collected
    have failed : outcome.result = .error (.host .executorStopped) := by
      rw [Host.collect, twoPagesFailing_stopped] at collected
      cases collected
      rfl
    exact ⟨outcome, collected, failed, held 7, (heldUp stopped).1, (idle (Or.inl stopped)).1⟩

end ComponentStyles
